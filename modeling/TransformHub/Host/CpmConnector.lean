import Mathlib.Data.Nat.Notation
import TransformHub.Lib.Transition

/-!
# Connection to the Manager

`connect`, `connectOnce`, `handleConnectionClose` and `reconnect` of `cpm-connector.ts`.
-/

namespace TransformHub.Host

/-- Where a `connectionAttempt` stands, and what came of it. -/
inductive AttemptPhase where
  | broker
  | guest
  | registration (generation : ℕ)
  | fulfilled
  | rejected
deriving DecidableEq

def AttemptPhase.settled : AttemptPhase → Bool
  | .fulfilled | .rejected => true
  | _ => false

structure ConnectionAttempt where
  phase : AttemptPhase
  /-- the `finally` of the `connectOnce` that made the attempt has run -/
  cleared : Bool

/-- What the loop of `reconnect` awaits. -/
inductive Supervisor where
  | backoff
  | attempt (n : ℕ)

structure CPMConnector where
  /-- `connect` has been called -/
  started : Bool
  connected : Bool
  isAbandoned : Bool
  isReconnecting : Bool
  communicationStream : Bool
  communicationGeneration : ℕ
  registrationAttemptGeneration : ℕ
  connectionAttempts : ℕ
  reconnectPromise : Bool
  connectionAttempt : Option ℕ
  /-- all attempts that were made -/
  attempts : List ConnectionAttempt
  /-- the loops of `reconnect` that have not come to their end -/
  supervisors : List Supervisor
  /-- the calls of `connect` that await an attempt -/
  calls : List ℕ

namespace CPMConnector

def new : CPMConnector where
  started := false
  connected := false
  isAbandoned := false
  isReconnecting := false
  communicationStream := false
  communicationGeneration := 0
  registrationAttemptGeneration := 0
  connectionAttempts := 0
  reconnectPromise := false
  connectionAttempt := none
  attempts := []
  supervisors := []
  calls := []

section Steps

variable (c : CPMConnector)

def phase? (n : ℕ) : Option AttemptPhase := (c.attempts[n]?).map (·.phase)

def hasSettled (n : ℕ) : Bool := (c.phase? n).any AttemptPhase.settled

def setPhase (n : ℕ) (phase : AttemptPhase) : CPMConnector :=
  { c with attempts := c.attempts.modify n fun a => { a with phase } }

/-- Some `await` of a promise that has settled has not ended yet. -/
def reactionsLeft : Bool :=
  c.attempts.any (fun a => a.phase.settled && !a.cleared) || c.calls.any c.hasSettled ||
    c.supervisors.any fun
      | .backoff => false
      | .attempt n => c.hasSettled n

/-- `connectOnce`, up to the attempt that it awaits. -/
def connectOnce : CPMConnector × ℕ :=
  match c.connectionAttempt with
  | some n => (c, n)
  | none =>
    ({ c with
      connectionAttempt := some c.attempts.length
      attempts := c.attempts ++ [⟨.broker, false⟩] }, c.attempts.length)

/-- `reconnect`, up to the first delay. -/
def reconnect : CPMConnector :=
  if c.isAbandoned ∨ c.reconnectPromise then c
  else
    { c with
      isReconnecting := true
      reconnectPromise := true
      connectionAttempts := c.connectionAttempts + 1
      supervisors := c.supervisors ++ [.backoff] }

/-- `connect`, up to the attempt. -/
def connect : CPMConnector :=
  let begun := { c with started := true }
  if c.isAbandoned ∨ c.reconnectPromise then begun
  else { begun.connectOnce.1 with calls := c.calls ++ [begun.connectOnce.2] }

/-- `connect` goes on when its attempt has settled, in whichever way. -/
def callResumed (i : ℕ) : CPMConnector :=
  match c.calls[i]? with
  | none => c
  | some n =>
    if c.hasSettled n then
      let returned := { c with calls := c.calls.eraseIdx i }
      if c.connected then returned else returned.reconnect
    else c

/-- The `finally` of a supervisor. -/
def supervisorEnds (i : ℕ) : CPMConnector :=
  { c with
    supervisors := c.supervisors.eraseIdx i
    isReconnecting := false
    reconnectPromise := false }

/-- The delay of a supervisor has elapsed, or was cancelled. -/
def backoffSettled (i : ℕ) : CPMConnector :=
  match c.supervisors[i]? with
  | some .backoff =>
    if c.isAbandoned then c.supervisorEnds i
    else if c.reactionsLeft then c
    else
      { c.connectOnce.1 with
        supervisors := c.supervisors.set i (.attempt c.connectOnce.2) }
  | _ => c

/-- A supervisor goes on when its attempt has settled. -/
def supervisorResumed (i : ℕ) : CPMConnector :=
  match c.supervisors[i]? with
  | some (.attempt n) =>
    match c.phase? n with
    | some .fulfilled => c.supervisorEnds i
    | some .rejected =>
      if c.isAbandoned then c.supervisorEnds i
      else
        { c with
          connectionAttempts := c.connectionAttempts + 1
          supervisors := c.supervisors.set i .backoff }
    | _ => c
  | _ => c

def attemptProceeds (n : ℕ) : CPMConnector :=
  match c.phase? n with
  | some .broker => c.setPhase n (if c.isAbandoned then .fulfilled else .guest)
  | some .guest =>
    c.setPhase n
      (if c.isAbandoned then .fulfilled else .registration c.registrationAttemptGeneration)
  | some (.registration generation) =>
    if c.isAbandoned then c.setPhase n .fulfilled
    -- the communication stream was closed while the registration was in flight
    else if generation ≠ c.registrationAttemptGeneration then c.setPhase n .rejected
    else { c.setPhase n .fulfilled with connected := true, connectionAttempts := 0 }
  | _ => c

def attemptFails (n : ℕ) : CPMConnector :=
  if c.hasSettled n then c else c.setPhase n .rejected

/-- The `finally` of the `connectOnce` that made an attempt. -/
def attemptCleared (n : ℕ) : CPMConnector :=
  match c.attempts[n]? with
  | none => c
  | some a =>
    if a.phase.settled && !a.cleared then
      { c with
        connectionAttempt := none
        attempts := c.attempts.modify n fun a => { a with cleared := true } }
    else c

/-- `handleCommunicationRequest`, up to its handlers. -/
def handleCommunicationRequest : CPMConnector :=
  if c.communicationStream then c
  else
    { c with
      communicationStream := true
      communicationGeneration := c.communicationGeneration + 1 }

/-- `isAbandoned = true` with `abandonReconnect`. -/
def abandon : CPMConnector := { c with isAbandoned := true, isReconnecting := false }

/-- The stream of a close is the current one. -/
def isCurrent (generation : Option ℕ) : Bool :=
  generation.all fun g => g = c.communicationGeneration

def handleConnectionClose (connectionStatusCode : ℕ) (generation : Option ℕ) : CPMConnector :=
  if c.isCurrent generation then
    let lost :=
      { c with
        registrationAttemptGeneration := c.registrationAttemptGeneration + 1
        communicationStream := false
        connected := false }
    if connectionStatusCode = 403 then lost.abandon else lost.reconnect
  else c

/-- `disconnect`, up to the routes. -/
def disconnect : CPMConnector := { c.abandon with connected := false, communicationStream := false }

end Steps

/-! ## Runs -/

inductive Action where
  | connect
  | callResumed (i : ℕ)
  | attemptProceeds (n : ℕ)
  | attemptFails (n : ℕ)
  | attemptCleared (n : ℕ)
  | backoffSettled (i : ℕ)
  | supervisorResumed (i : ℕ)
  | communicationRequest
  /-- the response ends, the stream closes, or its messages cannot be read -/
  | closed (connectionStatusCode : ℕ) (generation : Option ℕ)
  | streamError (generation : ℕ)
  /-- one of the `dropMessageCodes` -/
  | dropMessage
  | disconnect

def next (c : CPMConnector) : Action → CPMConnector
  | .connect => c.connect
  | .callResumed i => c.callResumed i
  | .attemptProceeds n => c.attemptProceeds n
  | .attemptFails n => c.attemptFails n
  | .attemptCleared n => c.attemptCleared n
  | .backoffSettled i => c.backoffSettled i
  | .supervisorResumed i => c.supervisorResumed i
  | .communicationRequest => c.handleCommunicationRequest
  | .closed connectionStatusCode generation =>
    c.handleConnectionClose connectionStatusCode generation
  | .streamError generation =>
    if c.isAbandoned then c else c.handleConnectionClose 1006 (some generation)
  | .dropMessage => c.abandon
  | .disconnect => c.disconnect

def system : System CPMConnector Action := .ofFun new next

end CPMConnector

end TransformHub.Host
