import TransformHub.Js.TextDecoder
import TransformHub.Js.Value

/-!
# Shutdown control

`observeShutdownControl` of `shutdown-grace.ts`, which scans the control channel for `STOP` and
`KILL` while the frames are forwarded to the child, and the grace period after the child has closed,
with `waitForRunnerShutdownGrace` and `disconnectAfterRunnerShutdownGrace`.
-/

namespace TransformHub.Runner.ShutdownControl

open Js

def maxControlFrameBytes : ℕ := 64 * 1024

/-- `RunnerMessageCode.STOP`. -/
def stopCode : ℕ := 4001

/-- `RunnerMessageCode.KILL`. -/
def killCode : ℕ := 4002

/-- `KNOWN_CONTROL_CODES`: those of the runner, then those of the manager. -/
def knownControlCodes : List ℕ :=
  [3000, 3001, 3002, 3003, 3006, 3007, 3010, 3004, 3011, 3012, 3013, 3014, 3015, 4000, 4001, 4002,
    4003, 4004, 4005, 4006, 5001, 5002, 5003, 7000, 7001, 7002, 7003, 7004, 7005, 7006, 7007, 7008,
    8000, 9001, 9002, 9003, 9004]

inductive ShutdownCancellationReason where
  | stop
  | kill
  | controlEnded
  | controlError
  | observationInvalid
deriving DecidableEq

inductive GraceReason where
  | elapsed
  | disabled
  | ineligible
  | cancellation (reason : ShutdownCancellationReason)

inductive GraceStatus where
  | elapsed
  | cancelled
  | skipped

structure GraceResult where
  status : GraceStatus
  reason : GraceReason

/-! ## The observer -/

structure ShutdownControlObserver where
  decoder : TextDecoder
  pending : List Char
  pendingBytes : ℕ
  decoderPendingBytes : Int
  reason : Option ShutdownCancellationReason
  disposed : Bool
  sourceDataAttached : Bool
  pipeRetired : Bool
  takenOver : Bool

/-- What `takeOverAfterChildClose` reads of the streams. -/
structure Takeover where
  /-- none where reading it throws -/
  targetRetired : Option Bool
  sourceDestroyed : Bool
  readableEnded : Bool
  /-- `source.resume()` does not throw -/
  resumes : Bool

namespace ShutdownControlObserver

def cancel (o : ShutdownControlObserver) (value : ShutdownCancellationReason) :
    ShutdownControlObserver :=
  if o.reason ≠ none ∨ o.disposed then o else { o with reason := some value }

/-- `dispose`, which removes the listeners. -/
def dispose (o : ShutdownControlObserver) : ShutdownControlObserver :=
  if o.disposed then o
  else { o with
    disposed := true
    sourceDataAttached := false
    pending := []
    pendingBytes := 0
    decoderPendingBytes := 0 }

/-- `observeShutdownControl`, where the listeners are attached or that throws, and the source is
over or not. -/
def observe (attaches sourceOver : Bool) : ShutdownControlObserver :=
  let o : ShutdownControlObserver :=
    ⟨.new, [], 0, 0, none, false, attaches, false, false⟩
  if attaches = false then (o.cancel .observationInvalid).dispose
  else if sourceOver then o.cancel .controlEnded
  else o

section Frames

variable (parse : List Char → Option Json)

/-- The known code of a frame with a code and one more value. -/
def frameCode (line : List Char) : Option ℕ :=
  match parse line with
  | some (.arr [.num n, _]) =>
    match n.toSafeNat? with
    | some code => if code ∈ knownControlCodes then some code else none
    | none => none
  | _ => none

def parseFrame (o : ShutdownControlObserver) (line : List Char) : ShutdownControlObserver :=
  match frameCode parse line with
  | none => o.cancel .observationInvalid
  | some code =>
    if code = stopCode then o.cancel .stop
    else if code = killCode then o.cancel .kill
    else o

/-- One pass of the loop of `acceptText`. -/
def acceptCharacter (o : ShutdownControlObserver) (character : Char) : ShutdownControlObserver :=
  if o.reason ≠ none ∨ o.disposed then o
  else if character = '\n' then
    if o.pending.getLast? ≠ some '\r' ∨ maxControlFrameBytes < o.pendingBytes + 1 then
      o.cancel .observationInvalid
    else
      -- the frame cancels or not; in both cases the next line begins
      { o.parseFrame parse o.pending.dropLast with pending := [], pendingBytes := 0 }
  else
    let pendingBytes := o.pendingBytes + (String.utf8EncodeChar character).length
    let o := { o with pending := o.pending ++ [character], pendingBytes }
    if maxControlFrameBytes ≤ pendingBytes then o.cancel .observationInvalid else o

def acceptText (o : ShutdownControlObserver) (text : List Char) : ShutdownControlObserver :=
  text.foldl (acceptCharacter parse) o

def onData (o : ShutdownControlObserver) (chunk : List UInt8) : ShutdownControlObserver :=
  if o.reason ≠ none ∨ o.disposed then o
  else
    match o.decoder.decodeStream chunk with
    | none => o.cancel .observationInvalid
    | some (decoder, text) =>
      let decoderPendingBytes :=
        o.decoderPendingBytes + (chunk.length - (encodeChars text).length)
      let o := { o with decoder, decoderPendingBytes }
      if decoderPendingBytes < 0 then o.cancel .observationInvalid else o.acceptText parse text

def onEnd (o : ShutdownControlObserver) : ShutdownControlObserver :=
  if o.reason ≠ none ∨ o.disposed then o
  else
    match o.decoder.decode with
    | none => o.cancel .observationInvalid
    | some (decoder, finalText) =>
      let o := { o with decoder }
      if (0 : Int) < o.decoderPendingBytes then o.cancel .observationInvalid
      else
        let o := o.acceptText parse finalText
        if 0 < o.pending.length ∨ 0 < o.pendingBytes then o.cancel .observationInvalid
        else o.cancel .controlEnded

end Frames

/-- `onTargetUnpipe`, of the source itself or of another one. -/
def onTargetUnpipe (o : ShutdownControlObserver) (own : Bool) : ShutdownControlObserver :=
  if own = false then o
  else if o.takenOver then { o with pipeRetired := true }
  else { o with pipeRetired := true, sourceDataAttached := false }

def finishGraceWindow (o : ShutdownControlObserver) : ShutdownControlObserver :=
  if o.reason = none ∧ (0 < o.pendingBytes ∨ 0 < o.decoderPendingBytes) then
    o.cancel .observationInvalid
  else o

/-- `takeOverAfterChildClose`, with what it returns. -/
def takeOverAfterChildClose (o : ShutdownControlObserver) (t : Takeover) :
    ShutdownControlObserver × Bool :=
  if o.disposed ∨ o.reason ≠ none ∨ o.takenOver then (o, false)
  else
    match t.targetRetired with
    | none => (o.cancel .observationInvalid, false)
    | some targetRetired =>
      if o.pipeRetired = false ∨ targetRetired = false ∨ t.sourceDestroyed ∨ t.readableEnded then
        (o.cancel .observationInvalid, false)
      else
        let o := { o with takenOver := true, sourceDataAttached := true }
        if t.resumes then (o, true) else (o.cancel .observationInvalid, false)

end ShutdownControlObserver

/-! ## Runs -/

inductive Event where
  | data (chunk : List UInt8)
  | ended
  | sourceError
  | sourceClose
  | targetError
  | targetUnpipe (own : Bool)
  | takeOver (t : Takeover)
  | finish
  | dispose

open ShutdownControlObserver

variable (parse : List Char → Option Json)

def step (o : ShutdownControlObserver) : Event → ShutdownControlObserver
  | .data chunk => if o.sourceDataAttached then o.onData parse chunk else o
  | .ended => o.onEnd parse
  | .sourceError => o.cancel .controlError
  | .sourceClose => o.cancel .controlEnded
  | .targetError => o.cancel .controlError
  | .targetUnpipe own => if o.disposed then o else o.onTargetUnpipe own
  | .takeOver t => (o.takeOverAfterChildClose t).1
  | .finish => o.finishGraceWindow
  | .dispose => o.dispose

def run (o : ShutdownControlObserver) (events : List Event) : ShutdownControlObserver :=
  events.foldl (step parse) o

/-! ## The grace period -/

inductive Timer where
  | throws
  | resolves
  | rejects

/-- `waitForRunnerShutdownGrace`, with what happens to the observer until the timer ends. -/
def waitForRunnerShutdownGrace (durationMs : ℕ) (eligible : Bool)
    (control : ShutdownControlObserver) (controlAlreadyTakenOver : Bool) (t : Takeover)
    (timer : Timer) (events : List Event) : GraceResult :=
  if durationMs = 0 then ⟨.skipped, .disabled⟩
  else if eligible = false then ⟨.skipped, .ineligible⟩
  else
    match control.reason with
    | some reason => ⟨.cancelled, .cancellation reason⟩
    | none =>
      let (control, tookOver) :=
        if controlAlreadyTakenOver then (control, true) else control.takeOverAfterChildClose t
      if tookOver = false then
        ⟨.skipped, .cancellation (control.reason.getD .observationInvalid)⟩
      else
        match control.reason with
        | some reason => ⟨.cancelled, .cancellation reason⟩
        | none =>
          match timer with
          | .throws => ⟨.skipped, .cancellation .observationInvalid⟩
          | .resolves =>
            match (run parse control events).finishGraceWindow.reason with
            | some .observationInvalid => ⟨.skipped, .cancellation .observationInvalid⟩
            | some reason => ⟨.cancelled, .cancellation reason⟩
            | none => ⟨.elapsed, .elapsed⟩
          | .rejects =>
            match (run parse control events).reason with
            | some reason => ⟨.cancelled, .cancellation reason⟩
            | none => ⟨.skipped, .cancellation .observationInvalid⟩

/-- `disconnectAfterRunnerShutdownGrace`: the result that it reports before it disconnects. -/
def disconnectAfterRunnerShutdownGrace (durationMs : ℕ) (eligible : Bool)
    (control : Option ShutdownControlObserver) (t : Takeover) (timer : Timer)
    (events : List Event) : GraceResult :=
  if durationMs = 0 then ⟨.skipped, .disabled⟩
  else
    match control.bind (·.reason) with
    | some .observationInvalid => ⟨.skipped, .cancellation .observationInvalid⟩
    | some reason => ⟨.cancelled, .cancellation reason⟩
    | none =>
      if eligible = false then ⟨.skipped, .ineligible⟩
      else
        match control with
        | none => ⟨.skipped, .cancellation .observationInvalid⟩
        | some control =>
          let (control, tookOver) := control.takeOverAfterChildClose t
          if tookOver = false then
            ⟨.skipped, .cancellation (control.reason.getD .observationInvalid)⟩
          else
            match control.reason with
            | some .observationInvalid => ⟨.skipped, .cancellation .observationInvalid⟩
            | some reason => ⟨.cancelled, .cancellation reason⟩
            | none =>
              waitForRunnerShutdownGrace parse durationMs true control true t timer events

end TransformHub.Runner.ShutdownControl
