import TransformHub.Js.Text

/-!
# Responses and dispatches of a routed broker

The errors and the redirect protocol of `routed-broker.ts`, and from `client-transports.ts` a
response with what `responseCleanup` keeps for it, and a dispatch with what `requestWithTimeout`
does.
-/

namespace TransformHub.ApiRouter

/-! ## Errors -/

inductive BrokerError where
  | routeUnavailable (domain : String)
  | duplicateRoute (domain : String)
  | timeout (timeoutMs : ℕ) (domain : String)
  | request (message : String)
  | cancelled (domain : String)
  | responseLimit (limitBytes : ℕ)
  | redirect (message : String)
  /-- an error of the broker or of a stream -/
  | other (message : String)
deriving DecidableEq

namespace BrokerError

def message : BrokerError → String
  | routeUnavailable domain =>
    if domain = "" then "Broker route domain is required"
    else "Broker route is unavailable: " ++ domain
  | duplicateRoute domain => "Broker route has duplicate targets: " ++ domain
  | timeout timeoutMs domain =>
    "Broker request timed out after " ++ toString timeoutMs ++ "ms for route: " ++ domain
  | request message | redirect message | other message => message
  | cancelled domain => "Broker request cancelled for route: " ++ domain
  | responseLimit limitBytes => "Broker response exceeded " ++ toString limitBytes ++ " byte limit"

/-- The error of a timer or of a signal. -/
def isInterruption : BrokerError → Bool
  | timeout _ _ | cancelled _ => true
  | _ => false

end BrokerError

/-! ## Redirects -/

inductive HeaderValue where
  | single (value : String)
  | multiple (values : List String)
deriving DecidableEq

structure RoutedBrokerRedirect where
  routeDomain : String
  targetPath : String
deriving DecidableEq

/-- A header of a redirect, which is there once. -/
def redirectHeader (headers : List (String × HeaderValue)) (name : String) : Except String String :=
  match headers.filter fun header => header.1.toLower = name with
  | [(_, .single value)] =>
    if Js.trim value = "" then .error ("Missing routed redirect " ++ name ++ " header") else .ok value
  | _ => .error ("Invalid routed redirect " ++ name ++ " header")

def includes (text part : String) :
    Bool := text.toList.tails.any fun cs => part.toList.isPrefixOf cs

def parseRoutedBrokerRedirect (status : ℕ) (headers : List (String × HeaderValue)) :
    Except String (Option RoutedBrokerRedirect) := do
  if status ≠ 308 then return none
  let decision ← redirectHeader headers "x-scramjet-route-decision"
  let routeDomain ← redirectHeader headers "x-scramjet-route-domain"
  let targetPath ← redirectHeader headers "x-scramjet-route-target-path"
  if decision ≠ "redirect" ∧ decision ≠ "follow" then throw "Invalid routed redirect decision"
  if !Js.startsWith targetPath "/" || Js.startsWith targetPath "//" || includes targetPath "://"
      || includes targetPath "\\" then
    throw "Invalid routed redirect target path"
  return some ⟨routeDomain, targetPath⟩

/-! ## Responses -/

inductive BodyStage where
  | open
  /-- destroyed, but this has not been told yet -/
  | destroyed
  /-- ended, closed or failed -/
  | finished
deriving DecidableEq

inductive CleanupStage where
  | notCalled
  | pending
  | settled (failure : Option BrokerError)
deriving DecidableEq

def CleanupStage.isSettled : CleanupStage → Bool
  | settled _ => true
  | _ => false

structure RoutedBrokerResponse where
  status : ℕ
  headers : List (String × HeaderValue)
  body : BodyStage
  /-- how often its `cleanup` has been called -/
  cleanups : ℕ
  cleanup : CleanupStage
  late : Bool
  /-- `responseCleanup` listens to its body -/
  owned : Bool
  /-- the cleanup of `responseCleanup` has been called -/
  cleanupPromise : Bool
  /-- the listener of `responseCleanup` on the signal of the request -/
  requestListener : Bool
  /-- the same on the signal of the dispatch -/
  dispatchListener : Bool
deriving DecidableEq

namespace RoutedBrokerResponse

def new (status : ℕ) (headers : List (String × HeaderValue)) (body : BodyStage) :
    RoutedBrokerResponse where
  status := status
  headers := headers
  body := body
  cleanups := 0
  cleanup := .notCalled
  late := false
  owned := false
  cleanupPromise := false
  requestListener := false
  dispatchListener := false

variable (r : RoutedBrokerResponse)

def destroy : RoutedBrokerResponse :=
  if r.body = .open then { r with body := .destroyed } else r

def callCleanup : RoutedBrokerResponse :=
  { r with cleanups := r.cleanups + 1, cleanup := .pending }

/-- The cleanup of `createVerser2ClientTransport` for a response that comes too late. -/
def ownLateCleanup : RoutedBrokerResponse :=
  if r.late then r else { r.destroy with late := true }.callCleanup

/-- The cleanup that `responseCleanup` returns. -/
def cleanUp : RoutedBrokerResponse :=
  if r.cleanupPromise then r else { r with cleanupPromise := true }.callCleanup

/-- The promise of `cleanup` settles. With `responseCleanup`, the listeners go. -/
def settleCleanup (failure : Option BrokerError) : RoutedBrokerResponse :=
  { r with
    cleanup := .settled failure
    requestListener := r.requestListener && !r.cleanupPromise
    dispatchListener := r.dispatchListener && !r.cleanupPromise }

/-- The body ends, closes or fails. -/
def finish : RoutedBrokerResponse :=
  let r := { r with body := .finished }
  if r.owned then r.cleanUp else r

def abort : RoutedBrokerResponse :=
  if r.dispatchListener then { r.destroy with dispatchListener := false } else r

end RoutedBrokerResponse

/-! ## Dispatches -/

/-- The promise of `transport.request`. -/
inductive BrokerPromise where
  | pending
  | failed
  | responded (response : RoutedBrokerResponse)
deriving DecidableEq

structure BrokerDispatch where
  routeDomain : String
  path : String
  /-- 0 for none -/
  timeoutMs : ℕ
  /-- the listener of `requestWithTimeout` on the signal of the request -/
  abortListener : Bool
  timer : Bool
  timedOut : Bool
  discardLateResponse : Bool
  /-- its own signal is aborted -/
  aborted : Bool
  broker : BrokerPromise

namespace BrokerDispatch

variable (d : BrokerDispatch)

def response? : Option RoutedBrokerResponse :=
  match d.broker with
  | .responded r => some r
  | _ => none

def updateResponse (f : RoutedBrokerResponse → RoutedBrokerResponse) : BrokerDispatch :=
  match d.broker with
  | .responded r => { d with broker := .responded (f r) }
  | _ => d

def release : BrokerDispatch := { d with abortListener := false, timer := false }

/-- The error for a signal that is aborted. -/
def interruption : BrokerError :=
  if d.timedOut then .timeout d.timeoutMs d.routeDomain else .cancelled d.routeDomain

def abort : BrokerDispatch := { d with aborted := true }.updateResponse RoutedBrokerResponse.abort

/-- A listener or a timer of the dispatch or of its response is registered. -/
def registered : Bool :=
  d.abortListener || d.timer || d.response?.any fun r => r.requestListener || r.dispatchListener

end BrokerDispatch

end TransformHub.ApiRouter
