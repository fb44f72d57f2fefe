import TransformHub.RestApi2.HubEventWatchContract

/-!
# Server side of a Hub event watch

`createHubEventWatchStream` of `hub-event-watch.ts`: a readable stream that pumps the snapshot and
the changes of one store subscription, with heartbeats, into the response of a watch request.
-/

namespace TransformHub.Host

open Js HubState RestApi2

abbrev Frame := HubWatchFrame StoredCursor

structure Terminal where
  cursor : StoredCursor
  error : HubWatchTerminalError

structure HubWatchStream where
  kind : HubWatchKind
  /-- changes not yet pushed -/
  live : List HubWatchChange
  subscribed : Bool
  /-- the heartbeat interval is running -/
  heartbeat : Bool
  terminal : Option Terminal
  detached : Bool
  snapshot : Option HubWatchSnapshot
  deliveredCursor : StoredCursor
  blocked : Bool
  heartbeatPending : Bool
  destroyed : Bool
  /-- the end of the stream has been pushed -/
  ended : Bool
  /-- the frame whose `push` is in progress -/
  hand : Option Frame
  /-- the frames pushed so far -/
  pushed : List Frame

namespace HubWatchStream

/-- The stream after its subscription has been opened. -/
def opened (kind : HubWatchKind) (snapshot : HubWatchSnapshot) : HubWatchStream where
  kind := kind
  live := []
  subscribed := true
  heartbeat := true
  terminal := none
  detached := false
  snapshot := some snapshot
  deliveredCursor := snapshot.cursor
  blocked := false
  heartbeatPending := false
  destroyed := false
  ended := false
  hand := none
  pushed := []

def detach (s : HubWatchStream) : HubWatchStream :=
  { s with detached := true, subscribed := false, heartbeat := false }

/-- `end`. -/
def finish (s : HubWatchStream) : HubWatchStream :=
  if s.destroyed then s.detach else { s.detach with ended := true }

def changeFrame (kind : HubWatchKind) (c : HubWatchChange) : Frame :=
  .change kind c.mutation c.cursor c.previousCursor

/-- The frame the pump takes next, and the stream without it. A heartbeat reads the cursor of the
source, and ends the stream when the source is unavailable. -/
def take (source : Option StoredCursor) (s : HubWatchStream) :
    Option (Option Frame × HubWatchStream) :=
  match s.snapshot, s.live, s.terminal with
  | some snapshot, _, _ =>
    some (some (.snapshot snapshot.kind snapshot.cursor snapshot.items),
      { s with snapshot := none })
  | none, c :: live, _ => some (some (changeFrame s.kind c), { s with live := live })
  | none, [], some terminal =>
    some (some (.error s.kind terminal.cursor terminal.error), { s with terminal := none })
  | none, [], none =>
    if s.heartbeatPending then
      some (source.map fun cursor => .heartbeat s.kind cursor s.deliveredCursor,
        { s with heartbeatPending := false })
    else none

/-- `stream.push` is called with the frame. -/
def startPush (frame : Frame) (s : HubWatchStream) : HubWatchStream :=
  { s with
    deliveredCursor := match frame with
      | .change _ _ cursor _ => cursor
      | _ => s.deliveredCursor
    hand := some frame
    pushed := s.pushed ++ [frame] }

section Pump

-- `valid` is the schema check of frames, `gate` the write gate, `source` the cursor that a snapshot
-- of the source would have
variable (valid gate : Frame → Bool) (source : Option StoredCursor)

/-- The loop of `pump`, up to its next call of `stream.push`. A refused frame goes back where it
came from, which leaves the stream as it was but for the block. -/
def loop (s : HubWatchStream) : HubWatchStream :=
  if s.detached ∨ s.destroyed then s
  else
    match s.take source with
    | none => s
    | some (none, rest) => rest.finish
    | some (some frame, rest) =>
      if !valid frame then rest.finish
      else if !gate frame then { s with blocked := true }
      else rest.startPush frame

theorem loop_of_take {frame : Frame} {s rest : HubWatchStream} (hd : s.detached = false)
    (hdestroyed : s.destroyed = false) (htake : s.take source = some (some frame, rest)) :
    s.loop valid gate source =
      if !valid frame then rest.finish
      else if !gate frame then { s with blocked := true }
      else rest.startPush frame := by
  simp only [loop, hd, hdestroyed, Bool.false_eq_true, or_self, if_false, htake]

def pump (s : HubWatchStream) : HubWatchStream :=
  if s.hand.isSome ∨ s.blocked then s else s.loop valid gate source

/-- `stream.push` returns, and the pump goes on. -/
def pushReturned (accepted : Bool) (s : HubWatchStream) : HubWatchStream :=
  match s.hand with
  | none => s
  | some (.error ..) => { s with hand := none }.finish
  | some _ =>
    if !accepted then { s with hand := none, blocked := true }
    else { s with hand := none }.loop valid gate source

/-- The error of a terminal; only an overflow says whose it is. -/
def terminalError (code : HubWatchTerminalCode) (message : String) : HubWatchTerminalError :=
  ⟨code, message, if code = HubWatchTerminalCode.overflow then some .server else none⟩

def fail (code : HubWatchTerminalCode) (message : String) (cursor : StoredCursor)
    (s : HubWatchStream) : HubWatchStream :=
  if s.detached ∨ s.terminal.isSome then s
  else
    { s with
      terminal := some ⟨cursor, terminalError code message⟩
      live := []
      heartbeat := false
      subscribed := false }.pump valid gate source

/-- `enqueue`, the change callback of the subscription. -/
def enqueue (change : HubWatchChange) (s : HubWatchStream) : HubWatchStream :=
  if s.detached ∨ s.terminal.isSome then s
  else if hubWatchQueueCapacity ≤ s.live.length then
    s.fail valid gate source .overflow "Hub event watch queue capacity exceeded" change.cursor
  else { s with live := s.live ++ [change] }.pump valid gate source

/-- The code under which an error of the source is sent. -/
def terminalCode : HubStateSourceErrorCode → HubWatchTerminalCode
  | .gap => .gap
  | .restarted => .restarted
  | .sourceUnavailable => .sourceUnavailable

/-- The callbacks of the subscription. -/
def onNotice (s : HubWatchStream) : Notice → HubWatchStream
  | .change change => s.enqueue valid gate source change
  | .error error =>
    s.fail valid gate source (terminalCode error.code) error.message s.deliveredCursor

def read (s : HubWatchStream) : HubWatchStream :=
  { s with blocked := false }.pump valid gate source

def heartbeatTick (s : HubWatchStream) : HubWatchStream :=
  if s.heartbeat then { s with heartbeatPending := true }.pump valid gate source else s

/-- `shutdown`, up to the return of the pump that `fail` starts; `writable` says whether the
response can still be written to. -/
def shutdown (writable : Bool) (s : HubWatchStream) : HubWatchStream :=
  if s.detached ∨ !writable then s
  else
    s.fail valid gate source .sourceUnavailable "Hub event watch source is shutting down"
      s.deliveredCursor

end Pump

/-- The rest of `shutdown`: a peer that cannot accept the error frame is released. -/
def shutdownRest (s : HubWatchStream) : HubWatchStream :=
  if s.blocked then { s.finish with destroyed := true } else s

/-- `onDisconnect`; its listeners are gone once the stream is detached. -/
def onDisconnect (s : HubWatchStream) : HubWatchStream :=
  if s.detached then s else { s.detach with destroyed := true }

end HubWatchStream

end TransformHub.Host
