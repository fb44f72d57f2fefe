import TransformHub.Js.StringDecoder
import TransformHub.Lib.Lines
import TransformHub.Lib.Transition
import TransformHub.RestApi2.RuntimeManifest

/-!
# The manifest declaration session of a Node runner

`ManifestDeclarationSession` of `manifest-declaration.ts`: the one reader of the control channel.
-/

namespace TransformHub.Runner.ManifestSession

open Js (Json JsNumber JsValue StringDecoder)
open RestApi2 (ManifestDeclaration snapshotManifestDeclaration isManifestDeclareResult)

/-! ## Frames -/

namespace RunnerMessageCode

def stop : JsNumber := .ofNat 4001

def kill : JsNumber := .ofNat 4002

def set : JsNumber := .ofNat 4005

def manifestResult : JsNumber := .ofNat 4006

def event : JsNumber := .ofNat 5001

def storage : JsNumber := .ofNat 5002

def storageUpdate : JsNumber := .ofNat 5003

end RunnerMessageCode

structure ControlFrame where
  code : JsNumber
  data : Json

namespace ControlFrame

/-- The test of `receiveFrame`. -/
def ofJson? : Json → Option ControlFrame
  | .arr [.num code, data] => some ⟨code, data⟩
  | _ => none

/-- A frame that is kept for the dispatcher and is not about the lifecycle. -/
def isOrdinary (frame : ControlFrame) : Bool :=
  [RunnerMessageCode.event, RunnerMessageCode.set, RunnerMessageCode.storage,
    RunnerMessageCode.storageUpdate].contains frame.code

/-- The codes that `dispatchControl` knows. -/
def isControl (frame : ControlFrame) : Bool :=
  frame.code = RunnerMessageCode.stop || frame.code = RunnerMessageCode.kill || frame.isOrdinary

end ControlFrame

/-- `line.replace(/\r$/, "")`. -/
def stripReturn (line : List Char) : List Char :=
  if line.getLast? = some '\r' then line.dropLast else line

/-- `indexOf("\n")`. -/
def indexOfNewline (text : List Char) : Option ℕ := text.findIdx? (· = '\n')

/-- What a line of the control channel says. -/
def lineFrame? (parse : List Char → Option Json) (line : List Char) : Option ControlFrame :=
  if stripReturn line = [] then none else (parse (stripReturn line)).bind ControlFrame.ofJson?

/-! ## Sessions -/

inductive DeclareError where
  /-- the input is no declaration -/
  | invalid
  | error (message : String)
  /-- `errorFromResult`: the code, the message and the path of a result -/
  | declaration (error : Json)

/-- How the promise of a declaration settles. -/
inductive Settlement where
  /-- with the receipt of a result -/
  | resolved (result : Json)
  | rejected (error : DeclareError)

structure DeclareCall where
  /-- none for a call that is rejected at once -/
  requestId : Option String
  settlements : List Settlement

/-- A call of user code. Handlers and dispatchers are numbered. -/
inductive Call where
  | terminalHandler (handler : ℕ)
  | earlyKillHandler (handler : ℕ)
  | earlyStopHandler (handler : ℕ) (data : Json)
  | control (dispatch : ℕ) (frame : ControlFrame)

inductive Activity where
  /-- user code runs -/
  | callback
  /-- the loop of `onData`, and the index that it has computed -/
  | reading (newline : Option ℕ)
  /-- the loop of `activate` -/
  | replaying (dispatch : ℕ)
  /-- `terminate`, after the terminal handler -/
  | closing (reason : String)
  /-- KILL, after `terminate` -/
  | killing (wasDeferred : Bool) (killHandler dispatch : Option ℕ) (frame : ControlFrame)

structure ManifestDeclarationSession where
  decoder : StringDecoder
  buffer : List Char
  pending : OrderedMap String ℕ
  deferredControls : List ControlFrame
  dispatch : Option ℕ
  earlyKillHandler : Option ℕ
  earlyStopHandler : Option ℕ
  terminalHandler : Option ℕ
  closed : Bool
  terminal : Bool
  stack : List Activity
  /-- promises of the early STOP handler that have not settled -/
  earlyStops : ℕ
  /-- how many identifiers were drawn -/
  requests : ℕ
  /-- the declarations written to the monitoring channel -/
  sent : List (String × ManifestDeclaration)
  /-- every call of `declare` -/
  declares : List DeclareCall
  /-- every call of user code -/
  calls : List Call
  /-- the text that `onData` was given -/
  text : List Char
  /-- `activate` was called before the session was closed -/
  activated : Bool

inductive StreamEnd where
  | ended
  | closed
  | failed (message : String)

def StreamEnd.reason : StreamEnd → String
  | .ended => "Manifest declaration session ended"
  | .closed => "Manifest declaration session closed"
  | .failed message => message

inductive Action where
  | data (bytes : List UInt8)
  /-- what the decoder keeps, at the end of the stream -/
  | flush
  | streamEnds (event : StreamEnd)
  | declare (input : JsValue) (writeError : Option String)
  | activate (dispatch : ℕ)
  | setEarlyKillHandler (handler : ℕ)
  | setEarlyStopHandler (handler : ℕ)
  | setTerminalHandler (handler : ℕ)
  | close (reason : String)
  | terminate (reason : String)
  /-- the promise of an early STOP handler settles; none if it is rejected -/
  | earlyStopSettles (terminal : Option Bool)
  /-- user code returns -/
  | returns
  /-- what was interrupted goes on -/
  | goOn

namespace ManifestDeclarationSession

def new : ManifestDeclarationSession where
  decoder := none
  buffer := []
  pending := .empty
  deferredControls := []
  dispatch := none
  earlyKillHandler := none
  earlyStopHandler := none
  terminalHandler := none
  closed := false
  terminal := false
  stack := []
  earlyStops := 0
  requests := 0
  sent := []
  declares := []
  calls := []
  text := []
  activated := false

variable (s : ManifestDeclarationSession)

def push (activity : Activity) : ManifestDeclarationSession :=
  { s with stack := activity :: s.stack }

def call (c : Call) : ManifestDeclarationSession :=
  { s with calls := s.calls ++ [c], stack := .callback :: s.stack }

def settle (k : ℕ) (settlement : Settlement) : ManifestDeclarationSession :=
  { s with declares := s.declares.modify k fun c =>
      { c with settlements := c.settlements ++ [settlement] } }

/-- `declare`; the write may throw an error. -/
def declare (uuid : ℕ → String) (input : JsValue) (writeError : Option String) :
    ManifestDeclarationSession :=
  match snapshotManifestDeclaration input with
  | none => { s with declares := s.declares ++ [⟨none, [.rejected .invalid]⟩] }
  | some declaration =>
    if s.closed then
      { s with declares := s.declares ++
          [⟨none, [.rejected (.error "Manifest declaration session is closed")]⟩] }
    else
      let requestId := uuid s.requests
      let requested : ManifestDeclarationSession := { s with
        requests := s.requests + 1
        pending := s.pending.set requestId s.declares.length
        declares := s.declares ++ [⟨some requestId, []⟩] }
      match writeError with
      | none => { requested with sent := s.sent ++ [(requestId, declaration)] }
      | some message =>
        { requested with pending := requested.pending.delete requestId }.settle
          s.declares.length (.rejected (.error message))

def close (reason : String) : ManifestDeclarationSession :=
  if s.closed then s
  else
    { s.pending.values.foldl (fun s k => s.settle k (.rejected (.error reason))) s with
      closed := true
      pending := .empty
      deferredControls := []
      dispatch := none
      earlyKillHandler := none
      earlyStopHandler := none
      terminalHandler := none }

def terminate (reason : String) : ManifestDeclarationSession :=
  if s.closed then s
  else
    match s.terminalHandler with
    | none => { s with terminal := true }.close reason
    | some handler => ({ s with terminal := true }.push (.closing reason)).call (.terminalHandler handler)

def isTerminal : Bool := s.terminal || s.closed

/-- `activate`, up to its loop. -/
def activate (dispatch : ℕ) : ManifestDeclarationSession :=
  if s.closed then s
  else { s with dispatch := some dispatch, activated := true }.push (.replaying dispatch)

def setTerminalHandler (handler : ℕ) : ManifestDeclarationSession :=
  let s' := { s with terminalHandler := some handler }
  if s.isTerminal then s'.call (.terminalHandler handler) else s'

def dispatchControl (frame : ControlFrame) (dispatch : ℕ) : ManifestDeclarationSession :=
  if frame.isControl then s.call (.control dispatch frame) else s

def receiveResult (data : Json) : ManifestDeclarationSession :=
  match data.getStr? "requestId" with
  | none => s
  | some requestId =>
    match s.pending.get? requestId with
    | none => s
    | some k =>
      { s with pending := s.pending.delete requestId }.settle k
        (if !isManifestDeclareResult data then
          .rejected (.error "Host returned an invalid manifest declaration result")
        else
          match data.get? "accepted" with
          | some (.bool true) => .resolved data
          | _ => .rejected (.declaration ((data.get? "error").getD .null)))

def receiveFrame (frame : ControlFrame) : ManifestDeclarationSession :=
  if frame.code = RunnerMessageCode.manifestResult then s.receiveResult frame.data
  else if frame.code = RunnerMessageCode.kill then
    (s.push (.killing s.dispatch.isNone s.earlyKillHandler s.dispatch frame)).terminate
      "Manifest declaration cancelled by runtime KILL"
  else
    match if frame.code = RunnerMessageCode.stop ∧ s.dispatch = none then s.earlyStopHandler
      else none with
    | some handler =>
      { s with earlyStops := s.earlyStops + 1 }.call (.earlyStopHandler handler frame.data)
    | none =>
      match s.dispatch with
      | some dispatch => s.dispatchControl frame dispatch
      | none => { s with deferredControls := s.deferredControls ++ [frame] }

/-- `onData`, up to its loop. The stream gives no empty text. -/
def onData (chunk : List Char) : ManifestDeclarationSession :=
  if s.closed || chunk.isEmpty then s
  else
    { s with buffer := s.buffer ++ chunk, text := s.text ++ chunk }.push
      (.reading (indexOfNewline (s.buffer ++ chunk)))

/-- One turn of the loop of `onData`. -/
def readLine (parse : List Char → Option Json) (n : ℕ) (rest : List Activity) :
    ManifestDeclarationSession :=
  let buffer := s.buffer.drop (n + 1)
  let s' := { s with buffer, stack := .reading (indexOfNewline buffer) :: rest }
  match lineFrame? parse (s.buffer.take n) with
  | none => s'
  | some frame => s'.receiveFrame frame

def goOn (parse : List Char → Option Json) : ManifestDeclarationSession :=
  match s.stack with
  | .reading none :: rest => { s with stack := rest }
  | .reading (some n) :: rest => s.readLine parse n rest
  | .replaying dispatch :: rest =>
    match s.deferredControls with
    | [] => { s with stack := rest }
    | frame :: frames => { s with deferredControls := frames }.dispatchControl frame dispatch
  | .closing reason :: rest => { s with stack := rest }.close reason
  | .killing wasDeferred killHandler dispatch frame :: rest =>
    let s' := { s with stack := rest }
    match wasDeferred, killHandler, dispatch with
    | true, some handler, _ => s'.call (.earlyKillHandler handler)
    | _, _, some dispatch => s'.dispatchControl frame dispatch
    | _, _, none => s'
  | _ => s

/-- User code runs: a call of it, or what the event loop calls. -/
def userTurn : Bool :=
  match s.stack with
  | [] => true
  | .callback :: _ => true
  | _ => false

/-- What user code or the event loop does. -/
def act (uuid : ℕ → String) : Action → ManifestDeclarationSession
  | .data bytes => { s with decoder := (s.decoder.write bytes).1 }.onData (s.decoder.write bytes).2
  | .flush => { s with decoder := none }.onData s.decoder.finish
  | .streamEnds event => s.terminate event.reason
  | .declare input writeError => s.declare uuid input writeError
  | .activate dispatch => s.activate dispatch
  | .setEarlyKillHandler handler => { s with earlyKillHandler := some handler }
  | .setEarlyStopHandler handler => { s with earlyStopHandler := some handler }
  | .setTerminalHandler handler => s.setTerminalHandler handler
  | .close reason => s.close reason
  | .terminate reason => s.terminate reason
  | .earlyStopSettles terminal =>
    match s.stack, s.earlyStops with
    | [], earlyStops + 1 =>
      if terminal = some true then
        { s with earlyStops }.terminate "Manifest declaration cancelled by terminal runtime STOP"
      else { s with earlyStops }
    | _, _ => s
  | .returns =>
    match s.stack with
    | .callback :: rest => { s with stack := rest }
    | _ => s
  | .goOn => s

def next (parse : List Char → Option Json) (uuid : ℕ → String) (a : Action) :
    ManifestDeclarationSession :=
  match a with
  | .goOn => s.goOn parse
  | a => if s.userTurn then s.act uuid a else s

end ManifestDeclarationSession

end TransformHub.Runner.ManifestSession
