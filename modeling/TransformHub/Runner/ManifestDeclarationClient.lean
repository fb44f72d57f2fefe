import TransformHub.Js.Value
import TransformHub.Lib.Transition

/-!
# Manifest declarations of the Python runner

`snapshot_declaration` and `ManifestDeclarationClient` of `manifest.py`, and `StartupControlReader`
of `control_loop.py`.
-/

namespace TransformHub.Runner.Manifest

open Js (Json)

/-! ## Declarations -/

/-- What `declare` may be given. A reference to a list or a dict that the value is in is cut
there. -/
inductive PyValue where
  | none
  | bool (b : Bool)
  | number (n : Js.JsNumber)
  | nonFinite
  | str (s : String)
  | list (items : List PyValue)
  | dict (items : List (PyValue × PyValue))
  | ancestor
  /-- any other object -/
  | other

def PyValue.str? : PyValue → Option String
  | .str s => some s
  | _ => Option.none

mutual

/-- `_snapshot_json`; the error is the text of its `ValueError`. -/
def snapshotJson : PyValue → Except String Json
  | .none => .ok .null
  | .bool b => .ok (.bool b)
  | .number n => .ok (.num n)
  | .nonFinite => .error "manifest contains a non-finite number"
  | .str s => .ok (.str s)
  | .list items => (snapshotItems items).map .arr
  | .dict items =>
    if items.all fun item => item.1.str?.isSome then (snapshotMembers items).map .obj
    else .error "manifest must contain only JSON values"
  | .ancestor => .error "manifest contains a circular value"
  | .other => .error "manifest must contain only JSON values"
termination_by structural v => v

def snapshotItems : List PyValue → Except String (List Json)
  | [] => .ok []
  | v :: vs => do
      let j ← snapshotJson v
      let js ← snapshotItems vs
      return j :: js
termination_by structural vs => vs

def snapshotMembers : List (PyValue × PyValue) → Except String (List (String × Json))
  | [] => .ok []
  | (k, v) :: ms => do
      let j ← snapshotJson v
      let js ← snapshotMembers ms
      return (k.str?.getD "", j) :: js
termination_by structural ms => ms

end

def isDict : Json → Bool
  | .obj _ => true
  | _ => false

def hasString (j : Json) (name : String) : Bool := (j.getStr? name).isSome

def validateSchemaIfPresent (value : Json) (name : String) : Except String Unit :=
  match value.get? "schema" with
  | none | some (.bool _) | some (.obj _) => .ok ()
  | some _ => .error s!"manifest {name}.schema must be an object or boolean"

def validateEndpoint (value : Json) (name : String) : Except String Unit :=
  if isDict value then validateSchemaIfPresent value name
  else .error s!"manifest {name} must be an object"

def validateRpc (index : ℕ) (rpc : Json) : Except String Unit :=
  if isDict rpc && hasString rpc "procedure" then validateSchemaIfPresent rpc s!"rpc[{index}]"
  else .error s!"manifest rpc[{index}] requires a procedure string"

def validateTopic (index : ℕ) (topic : Json) : Except String Unit :=
  if !(isDict topic && hasString topic "name") then
    .error s!"manifest topics[{index}] requires a name string"
  else if !hasString topic "direction" then
    .error s!"manifest topics[{index}] requires a direction string"
  else validateSchemaIfPresent topic s!"topics[{index}]"

/-- A member that is a list of records. -/
def validateRecords (snapshot : Json) (name : String) (validate : ℕ → Json → Except String Unit) :
    Except String Unit :=
  match snapshot.get? name with
  | none => .ok ()
  | some (.arr elems) => elems.zipIdx.forM fun e => validate e.2 e.1
  | some _ => .error s!"manifest {name} must be an array"

def snapshotDeclaration (declaration : PyValue) : Except String Json := do
  let snapshot ← snapshotJson declaration
  match snapshot with
  | .obj members =>
    if !members.all fun m => ["input", "output", "rpc", "topics"].contains m.1 then
      throw "manifest declaration contains an unknown field"
    ["input", "output"].forM fun field =>
      match snapshot.get? field with
      | none => .ok ()
      | some value => validateEndpoint value field
    validateRecords snapshot "rpc" validateRpc
    validateRecords snapshot "topics" validateTopic
    return snapshot
  | _ => throw "manifest declaration must be an object"

/-! ## Client -/

inductive PyError where
  | eof (message : String)
  | value (message : String)
  | hardKill (message : String)
  | cancelled
  /-- any other exception, of the writer or the decoder -/
  | other (kind : String)

inductive FutureState where
  | pending
  | result (receipt : Json)
  | exception (error : PyError)
  | cancelled

/-- A call of `declare`. Its future is there once it has a request id. -/
structure Call where
  requestId : Option String
  future : FutureState
  /-- it was cancelled when its future was done -/
  mustCancel : Bool
  /-- what it has returned or raised -/
  outcome : Option (Except PyError Json)

namespace Call

/-- What the call returns or raises when it goes on. -/
def settled? (c : Call) : Option (Except PyError Json) :=
  match c.future with
  | .pending => none
  | .result receipt => some (if c.mustCancel then .error .cancelled else .ok receipt)
  | .exception error => some (.error (if c.mustCancel then .cancelled else error))
  | .cancelled => some (.error .cancelled)

def cancel (c : Call) : Call :=
  match c.future with
  | .pending => { c with future := .cancelled }
  | _ => { c with mustCancel := true }

end Call

/-- The client, its calls, and the reader. The replies that were handled are not in the code. -/
structure Client where
  /-- from request ids to calls -/
  pending : OrderedMap String ℕ
  terminalError : Option PyError
  readerError : Option PyError
  pumping : Bool
  /-- how many request ids were drawn -/
  drawn : ℕ
  calls : List Call
  /-- the frames that were written -/
  written : List (String × Json)
  handled : List Json

namespace Client

def new : Client where
  pending := .empty
  terminalError := none
  readerError := none
  pumping := true
  drawn := 0
  calls := []
  written := []
  handled := []

/-- The text of the error with which `declare` fails after termination. -/
def closedMessage : String := "manifest control channel is closed"

/-- What a reply does to the future of its request. The text of a message is what `str` makes of
it. -/
def resultOf (str : Json → String) (payload : Json) : FutureState :=
  match payload.get? "accepted", payload.get? "receipt", payload.get? "error" with
  | some (.bool true), some (.obj members), _ => .result (.obj members)
  | some (.bool false), _, some (.obj members) =>
    .exception (.value
      (((Json.obj members).get? "message").elim "Manifest declaration rejected" str))
  | _, _, _ => .exception (.value "Malformed manifest declaration result")

section Steps

variable (uuid4 : ℕ → String) (str : Json → String) (s : Client)

/-- A call that fails before it has a request. -/
def raise (error : PyError) : Client :=
  { s with calls := s.calls ++ [⟨none, .pending, false, some (.error error)⟩] }

/-- `declare`, up to its `await`. The frame is written or the writer raises. -/
def declare (declaration : PyValue) (writes : Bool) : Client :=
  if s.terminalError.isSome then s.raise (.eof closedMessage)
  else
    match snapshotDeclaration declaration with
    | .error message => s.raise (.value message)
    | .ok snapshot =>
      let requestId := uuid4 s.drawn
      let pending := s.pending.set requestId s.calls.length
      if writes then
        { s with
          drawn := s.drawn + 1
          pending := pending
          calls := s.calls ++ [⟨some requestId, .pending, false, none⟩]
          written := s.written ++ [(requestId, snapshot)] }
      else
        { s with
          drawn := s.drawn + 1
          pending := pending.delete requestId
          calls := s.calls ++
            [⟨some requestId, .pending, false, some (.error (.other "write_frame"))⟩] }

/-- A call goes on, when its future is done: the `finally` and the outcome. -/
def resume (i : ℕ) : Client :=
  match s.calls[i]? with
  | none => s
  | some c =>
    match c.requestId, c.outcome, c.settled? with
    | some requestId, none, some outcome =>
      { s with
        pending := s.pending.delete requestId
        calls := s.calls.set i { c with outcome := some outcome } }
    | _, _, _ => s

def cancel (i : ℕ) : Client :=
  match s.calls[i]? with
  | none => s
  | some c => if c.outcome.isNone then { s with calls := s.calls.set i c.cancel } else s

/-- A future that is not done yet comes to a state. -/
def FutureState.complete (future next : FutureState) : FutureState :=
  match future with
  | .pending => next
  | _ => future

def handleResult (payload : Json) : Client :=
  match payload.getStr? "requestId" with
  | none => s
  | some requestId =>
    match s.pending.get? requestId with
    | none => { s with handled := s.handled ++ [payload] }
    | some n =>
      { s with
        handled := s.handled ++ [payload]
        calls := s.calls.modify n fun c =>
          { c with future := FutureState.complete c.future (resultOf str payload) } }

def rejectPending (error : PyError) : Client :=
  { s with
    terminalError := s.terminalError.or (some error)
    calls := s.pending.values.foldl
      (fun calls n => calls.modify n fun c =>
        { c with future := FutureState.complete c.future (.exception (.eof closedMessage)) })
      s.calls }

/-- `_terminate` of the reader. -/
def terminate (error : PyError) : Client :=
  if s.readerError.isSome then s
  else { s.rejectPending error with readerError := some error }

end Steps

/-! ## Runs -/

def manifestResult : ℕ := 4006

def kill : ℕ := 4002

inductive Action where
  | declare (declaration : PyValue) (writes : Bool)
  | resume (i : ℕ)
  | cancel (i : ℕ)
  /-- the pump has read a frame -/
  | frame (code : ℕ) (payload : Json)
  /-- reading or decoding fails -/
  | pumpFails (error : PyError)
  | close

def next (uuid4 : ℕ → String) (str : Json → String) (s : Client) : Action → Client
  | .declare declaration writes => s.declare uuid4 declaration writes
  | .resume i => s.resume i
  | .cancel i => s.cancel i
  | .frame code payload =>
    if !s.pumping then s
    else if code = manifestResult then s.handleResult str payload
    else if code = kill then s.terminate (.hardKill "Sequence killed by host")
    else s
  | .pumpFails error => if !s.pumping then s else { s.terminate error with pumping := false }
  | .close => { s.terminate (.eof "control reader stopped") with pumping := false }

def system (uuid4 : ℕ → String) (str : Json → String) : System Client Action :=
  .ofFun new (next uuid4 str)

end Client

end TransformHub.Runner.Manifest
