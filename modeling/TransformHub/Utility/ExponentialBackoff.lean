import Mathlib.Algebra.Group.Int.Defs

/-!
# Exponential backoff

`createExponentialBackoff` of `exponential-backoff.ts`, with the timer that it is given. Numbers are
integers, the infinities and `NaN`.
-/

namespace TransformHub.Utility.ExponentialBackoff

/-! ## Numbers -/

inductive Number where
  | finite (i : ℤ)
  | infinity
  | negInfinity
  | nan

namespace Number

def pow2 (n : ℕ) : Number := if n < 1024 then .finite (2 ^ n) else .infinity

/-- `i * p`. -/
def scale (i : ℤ) : Number → Number
  | .finite j => .finite (i * j)
  | .infinity => if i = 0 then .nan else if 0 < i then .infinity else .negInfinity
  | .negInfinity => if i = 0 then .nan else if 0 < i then .negInfinity else .infinity
  | .nan => .nan

def min : Number → Number → Number
  | .nan, _ | _, .nan => .nan
  | .negInfinity, _ | _, .negInfinity => .negInfinity
  | .infinity, b => b
  | a, .infinity => a
  | .finite i, .finite j => .finite (Min.min i j)

end Number

/-! ## The generator -/

inductive Timeout where
  | armed
  | fired
  | cleared
deriving DecidableEq

/-- A promise, with its timer and the calls of its `resolve`. -/
structure BackoffPromise where
  timeout : Timeout
  settled : Bool
  resolves : ℕ
deriving DecidableEq

/-- The variables of a generator, and the promises that it has handed out. -/
structure Backoff where
  initialDelay : ℤ
  maxDelay : ℤ
  attempts : ℕ
  pending : List ℕ
  promises : List BackoffPromise

structure RangeError where
  message : String

def createExponentialBackoff (initialDelay maxDelay : Number) : Except RangeError Backoff :=
  match initialDelay, maxDelay with
  | .finite i, maxDelay =>
    if i < 0 then .error ⟨"initialDelay must be a finite non-negative number"⟩
    else
      match maxDelay with
      | .finite m =>
        if m < i then .error ⟨"maxDelay must be a finite number no smaller than initialDelay"⟩
        else .ok ⟨i, m, 0, [], []⟩
      | _ => .error ⟨"maxDelay must be a finite number no smaller than initialDelay"⟩
  | _, _ => .error ⟨"initialDelay must be a finite non-negative number"⟩

def BackoffPromise.settle (p : BackoffPromise) : BackoffPromise :=
  { p with settled := true, resolves := p.resolves + 1 }

namespace Backoff

/-- `Math.min(initialDelay * 2 ** attempts, maxDelay)`. -/
def delay (b : Backoff) : Number :=
  .min (.scale b.initialDelay (.pow2 b.attempts)) (.finite b.maxDelay)

/-- `backoff()`, with a timer that fires in `setTimeout` or later. -/
def call (b : Backoff) (fires : Bool) : Backoff :=
  let created : BackoffPromise := ⟨.armed, false, 0⟩
  let promise := if fires then { created with timeout := .fired }.settle else created
  { b with
    attempts := b.attempts + 1
    promises := b.promises ++ [promise]
    pending := if promise.settled then b.pending else b.pending ++ [b.promises.length] }

def settle (b : Backoff) (i : ℕ) (p : BackoffPromise) : Backoff :=
  if p.settled then { b with promises := b.promises.set i p }
  else
    { b with
      promises := b.promises.set i p.settle
      pending := b.pending.filter (· ≠ i) }

/-- The timer of promise `i` fires, if it is armed. -/
def fire (b : Backoff) (i : ℕ) : Backoff :=
  match b.promises[i]? with
  | some p => if p.timeout = .armed then b.settle i { p with timeout := .fired } else b
  | none => b

/-- `promise.cancel()`. -/
def cancelPromise (b : Backoff) (i : ℕ) : Backoff × Bool :=
  match b.promises[i]? with
  | none => (b, false)
  | some p =>
    if p.settled then (b, false)
    else
      (b.settle i { p with timeout := if p.timeout = .armed then .cleared else p.timeout }, true)

def cancel (b : Backoff) : Backoff × Bool :=
  b.pending.foldl
    (fun (b, cancelled) i =>
      let (b, settled) := b.cancelPromise i
      (b, settled || cancelled))
    (b, false)

def success (b : Backoff) : Backoff := { b with attempts := 0 }

end Backoff

/-! ## Runs -/

inductive Event where
  | call (fires : Bool)
  | fire (i : ℕ)
  | cancelPromise (i : ℕ)
  | cancel
  | success

/-- A generator, the delays that its timer has been given before and after the last success, and
the number of promises that had been handed out at the last `cancel()`. -/
structure State where
  backoff : Backoff
  earlier : List Number
  delays : List Number
  cancelled : ℕ

namespace State

def start (b : Backoff) : State := ⟨b, [], [], 0⟩

def next (s : State) : Event → State
  | .call fires =>
    { s with backoff := s.backoff.call fires, delays := s.delays ++ [s.backoff.delay] }
  | .fire i => { s with backoff := s.backoff.fire i }
  | .cancelPromise i => { s with backoff := (s.backoff.cancelPromise i).1 }
  | .cancel =>
    { s with
      backoff := s.backoff.cancel.1
      cancelled := s.backoff.promises.length }
  | .success =>
    { s with
      backoff := s.backoff.success
      earlier := s.earlier ++ s.delays
      delays := [] }

end State

end TransformHub.Utility.ExponentialBackoff
