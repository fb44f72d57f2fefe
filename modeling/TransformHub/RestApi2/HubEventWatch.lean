import TransformHub.Js.StringDecoder
import TransformHub.Js.Text
import TransformHub.Lib.Lines
import TransformHub.RestApi2.HubEventWatchContract

/-!
# Client side of a Hub event watch

`createHubEventWatch` of `hub-event-watch.ts`: an async iterator over the frames of a response body.
-/

namespace TransformHub.RestApi2

open Js HubState

abbrev ClientFrame := HubWatchFrame HubCursor

/-- What a line of the body is read as. -/
inductive ParsedLine where
  | malformed
  | invalid
  | frame (frame : ClientFrame)

structure HubWatchErrorDetails where
  expectedPreviousCursor : Option HubCursor := none
  receivedCursor : Option HubCursor := none
  side : Option HubWatchSide := none
  status : Option ℕ := none
deriving DecidableEq

structure HubWatchError where
  code : HubWatchErrorCode
  message : String
  cursor : Option HubCursor
  details : HubWatchErrorDetails
deriving DecidableEq

inductive WatchTerminal where
  | closed
  | aborted
  | lost (error : HubWatchError)
deriving DecidableEq

inductive HubWatchConnectionState where
  | opening
  | live
  | closed
  | aborted
  | lost

structure HubWatchConnectionHealth where
  state : HubWatchConnectionState
  cursor : Option HubCursor
  error : Option HubWatchError

/-- How a promise of `next` settles; a rejection without an error is the abort error. -/
inductive Settlement where
  | value (event : ClientFrame)
  | finished
  | rejected (error : Option HubWatchError)

inductive PumpState where
  /-- awaiting the response -/
  | opening
  /-- awaiting a chunk -/
  | reading
  /-- an observer is told of a frame -/
  | framed (frame : ClientFrame)
  /-- the observers are told that the watch is live -/
  | observed (frame : ClientFrame)
  | returned

/-- What the pump looks at in a response. -/
structure OpenedResponse where
  status : ℕ
  readable : Bool
  contentType : String
deriving DecidableEq

structure HubEventWatch where
  kind : HubWatchKind
  health : HubWatchConnectionHealth
  terminal : Option WatchTerminal
  queue : List ClientFrame
  snapshotPending : Option ClientFrame
  /-- the calls of `next` whose promise is pending -/
  pending : List ℕ
  cursor : Option HubCursor
  gotSnapshot : Bool
  openTimer : Bool
  silenceTimer : Bool
  controllerAborted : Bool
  response : Bool
  disposed : Bool
  decoder : StringDecoder
  text : List Char
  pump : PumpState
  /-- how often `next` has been called -/
  calls : ℕ
  /-- the promises of `next` that have settled, in the order in which they did -/
  settled : List (ℕ × Settlement)
  /-- the events that were given to a promise, to the queue or to the place of the snapshot -/
  accepted : List ClientFrame

/-- How promises settle once a terminal is selected. -/
def WatchTerminal.settlement : WatchTerminal → Settlement
  | .closed => .finished
  | .aborted => .rejected none
  | .lost error => .rejected (some error)

def WatchTerminal.state : WatchTerminal → HubWatchConnectionState
  | .closed => .closed
  | .aborted => .aborted
  | .lost _ => .lost

def WatchTerminal.error : WatchTerminal → Option HubWatchError
  | .lost error => some error
  | _ => none

/-! ## Checks of the pump -/

/-- The content type names the media type of the stream, in any case. -/
def isNdjson (contentType : String) : Bool :=
  (contentType.toList.map Char.toLower).tails.any fun cs =>
    "application/x-ndjson".toList.isPrefixOf cs

/-- Why a response is given up, if it is. -/
def OpenedResponse.rejection (r : OpenedResponse) :
    Option (HubWatchErrorCode × String × HubWatchErrorDetails) :=
  if r.status ≠ 200 then
    some (.httpError, s!"Watch request returned HTTP {r.status}", { status := some r.status })
  else if !r.readable then
    some (.protocolError, "Watch response body is not a Node Readable", {})
  else if !isNdjson r.contentType then
    some (.protocolError, "Watch response content type is not NDJSON", {})
  else none

/-- The frame of a line, or the message of the protocol error. -/
def readLine (parse : List Char → ParsedLine) (kind : HubWatchKind) (line : List Char) :
    Except String ClientFrame :=
  if trimChars line = [] then .error "Empty watch frame"
  else
    match parse line with
    | .malformed => .error "Malformed watch JSON"
    | .invalid => .error "Invalid watch frame"
    | .frame frame =>
      if frame.kind ≠ kind then .error "Watch frame kind does not match request" else .ok frame

/-- What the pump makes of a frame. -/
inductive Verdict where
  | lost (code : HubWatchErrorCode) (message : String) (details : HubWatchErrorDetails)
  | heartbeat
  | event (cursor : HubCursor)

/-- The checks of a frame, given the cursor of the last event. -/
def checkFrame (gotSnapshot : Bool) (cursor : Option HubCursor) : ClientFrame → Verdict
  | .error _ _ error =>
    .lost error.code.toErrorCode error.message
      { side := error.side.map HubWatchTerminalSide.toSide }
  | .heartbeat _ current deliveredCursor =>
    match cursor with
    | none =>
      .lost .gap "Heartbeat delivery cursor differs from parsed cursor"
        { receivedCursor := some deliveredCursor }
    | some reached =>
      if deliveredCursor ≠ reached then
        .lost .gap "Heartbeat delivery cursor differs from parsed cursor"
          { expectedPreviousCursor := some reached, receivedCursor := some deliveredCursor }
      else if ¬ reached.SameIdentity current ∨ current.position < reached.position then
        .lost .gap "Heartbeat cursor regressed or changed identity"
          { receivedCursor := some current }
      else .heartbeat
  | .snapshot _ next _ =>
    if gotSnapshot then .lost .protocolError "A watch may contain only one snapshot" {}
    else .event next
  | .change _ _ next previousCursor =>
    match gotSnapshot, cursor with
    | true, some reached =>
      if ¬ reached.SameIdentity next then
        .lost .restarted "Watch cursor identity changed" { receivedCursor := some next }
      else if reached ≠ previousCursor ∨ next.position ≤ reached.position then
        .lost .gap "Watch change linkage is discontinuous"
          { expectedPreviousCursor := some reached, receivedCursor := some next }
      else .event next
    | _, _ => .lost .protocolError "Watch change received before snapshot" {}

namespace HubEventWatch

/-- A watch whose request has been made. -/
def opening (kind : HubWatchKind) : HubEventWatch where
  kind := kind
  health := ⟨.opening, none, none⟩
  terminal := none
  queue := []
  snapshotPending := none
  pending := []
  cursor := none
  gotSnapshot := false
  openTimer := true
  silenceTimer := false
  controllerAborted := false
  response := false
  disposed := false
  decoder := none
  text := []
  pump := .opening
  calls := 0
  settled := []
  accepted := []

/-! ## The terminal -/

def selectTerminal (next : WatchTerminal) (w : HubEventWatch) : HubEventWatch :=
  if w.terminal.isSome then w
  else
    { w with
      terminal := some next
      openTimer := false
      silenceTimer := false
      queue := []
      snapshotPending := none
      pending := []
      settled := w.settled ++ w.pending.map fun waiter => (waiter, next.settlement)
      health := ⟨next.state, w.cursor, next.error⟩
      controllerAborted := true
      disposed := w.disposed || w.response }

def lost (code : HubWatchErrorCode) (message : String) (details : HubWatchErrorDetails)
    (w : HubEventWatch) : HubEventWatch :=
  w.selectTerminal (.lost ⟨code, message, w.cursor, details⟩)

/-- The watch of a signal that has been aborted before: no request is made. -/
def alreadyAborted (kind : HubWatchKind) : HubEventWatch :=
  ({ opening kind with openTimer := false, pump := .returned } : HubEventWatch).selectTerminal
    .aborted

/-! ## The read pump -/

def stop (w : HubEventWatch) : HubEventWatch := { w with pump := .returned }

def setSilenceDeadline (w : HubEventWatch) : HubEventWatch := { w with silenceTimer := true }

def settle (waiter : ℕ) (rest : List ℕ) (event : ClientFrame) (w : HubEventWatch) : HubEventWatch :=
  { w with
    pending := rest
    settled := w.settled ++ [(waiter, .value event)]
    accepted := w.accepted ++ [event] }

def deliver (event : ClientFrame) (w : HubEventWatch) : HubEventWatch :=
  match w.pending with
  | waiter :: rest => w.settle waiter rest event
  | [] =>
    if hubWatchQueueCapacity ≤ w.queue.length then
      w.lost .overflow "Watch client queue capacity exceeded" { side := some .client }
    else { w with queue := w.queue ++ [event], accepted := w.accepted ++ [event] }

/-- The snapshot, for which there is a place of its own. -/
def deliverSnapshot (event : ClientFrame) (w : HubEventWatch) : HubEventWatch :=
  match w.pending with
  | waiter :: rest => w.settle waiter rest event
  | [] => { w with snapshotPending := some event, accepted := w.accepted ++ [event] }

section Pump

variable (parse : List Char → ParsedLine)

/-- The loop over the lines of the text, up to the next observer or the next chunk. -/
def nextFrame (w : HubEventWatch) : HubEventWatch :=
  match Lines.nextLine '\n' w.text with
  | none => { w with pump := .reading }
  | some (line, rest) =>
    match readLine parse w.kind line with
    | .error message => ({ w with text := rest }.lost .protocolError message {}).stop
    | .ok frame => { w with text := rest, pump := .framed frame }

def afterFramed (frame : ClientFrame) (w : HubEventWatch) : HubEventWatch :=
  match checkFrame w.gotSnapshot w.cursor frame with
  | .lost code message details => (w.lost code message details).stop
  | .heartbeat => w.setSilenceDeadline.nextFrame parse
  | .event cursor =>
    { w with
      gotSnapshot := true
      cursor := some cursor
      openTimer := match frame with
        | .snapshot .. => false
        | _ => w.openTimer
      health := ⟨.live, some cursor, none⟩
      pump := .observed frame }

def afterObserved (frame : ClientFrame) (w : HubEventWatch) : HubEventWatch :=
  if w.terminal.isSome then w.stop
  else
    match frame with
    | .snapshot .. => (w.setSilenceDeadline.deliverSnapshot frame).nextFrame parse
    | _ =>
      let delivered := w.deliver frame
      if delivered.terminal.isSome then delivered.stop
      else delivered.setSilenceDeadline.nextFrame parse

def onOpened (r : OpenedResponse) (w : HubEventWatch) : HubEventWatch :=
  let held := { w with response := true }
  if w.terminal.isSome then { held with disposed := true, controllerAborted := true }.stop
  else
    match r.rejection with
    | some (code, message, details) => (held.lost code message details).stop
    | none => { held with pump := .reading }

def onChunk (bytes : List UInt8) (w : HubEventWatch) : HubEventWatch :=
  if w.terminal.isSome then w.stop
  else
    { w with
      decoder := (w.decoder.write bytes).1
      text := w.text ++ (w.decoder.write bytes).2 }.nextFrame parse

def onEnd (w : HubEventWatch) : HubEventWatch :=
  if w.decoder.finish ≠ [] ∨ w.text ≠ [] then
    (w.lost .disconnected "Watch ended with an incomplete frame" {}).stop
  else (w.lost .disconnected "Watch stream ended unexpectedly" {}).stop

def onFailed (w : HubEventWatch) : HubEventWatch :=
  (w.lost .disconnected "Watch stream disconnected" {}).stop

end Pump

/-! ## The iterator -/

/-- `next`. -/
def callNext (w : HubEventWatch) : HubEventWatch :=
  let called := { w with calls := w.calls + 1 }
  match w.snapshotPending, w.queue, w.terminal with
  | some event, _, _ =>
    { called with snapshotPending := none, settled := w.settled ++ [(w.calls, .value event)] }
  | none, event :: queue, _ =>
    { called with queue := queue, settled := w.settled ++ [(w.calls, .value event)] }
  | none, [], some terminal =>
    { called with settled := w.settled ++ [(w.calls, terminal.settlement)] }
  | none, [], none => { called with pending := w.pending ++ [w.calls] }

/-- `close`, which `return` and `throw` call too. -/
def close (w : HubEventWatch) : HubEventWatch := w.selectTerminal .closed

def abort (w : HubEventWatch) : HubEventWatch := w.selectTerminal .aborted

def onOpenTimeout (w : HubEventWatch) : HubEventWatch :=
  if w.openTimer then w.lost .openTimeout "Watch did not produce a complete snapshot" {} else w

/-- The silence timer fires; before the deadline it is set again. -/
def onSilence (expired : Bool) (w : HubEventWatch) : HubEventWatch :=
  if w.silenceTimer && expired then
    w.lost .silenceTimeout "No complete watch frame was received" {}
  else w

end HubEventWatch

end TransformHub.RestApi2
