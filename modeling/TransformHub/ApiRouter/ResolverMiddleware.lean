import TransformHub.ApiRouter.RouterPaths

/-!
# The middleware of a resolver

`createResolverMiddleware` of `adapters/http.ts`, with the matching of the path, the redirect and
the nested lookup.
-/

namespace TransformHub.ApiRouter.ResolverMiddleware

open Js

/-! ## Data -/

abbrev Params := OrderedMap (List Char) (List Char)

/-- The `code` of a thrown value; of a number the integer part. -/
inductive ErrorCode where
  | absent
  | number (code : ℤ)
  | text (code : String)

structure Thrown where
  isError : Bool
  code : ErrorCode
  /-- `error.message` or `String(error)`, none where that throws -/
  message : Option String

structure Head where
  statusCode : ℕ
  headers : OrderedMap String String

structure ErrorBody where
  code : Option String
  message : String

inductive Ending where
  | ended (body : Option ErrorBody)
  | destroyed (error : Option Thrown)

/-- A request and its response, with the number of calls of `next`. -/
structure Exchange where
  url : Option String
  params : Option Params
  headersSent : Bool
  heads : List Head
  endings : List Ending
  nexts : ℕ

/-- Either the response is ended or destroyed, or `next` is called. -/
def Exchange.Answered (e : Exchange) : Prop := e.endings = [] ↔ e.nexts ≠ 0

/-- What a middleware is called with. -/
def Exchange.start (url : Option String) (params : Option Params) (headersSent : Bool) : Exchange :=
  ⟨url, params, headersSent, [], [], 0⟩

/-- A nested `lookup`: what it makes of the exchange, and what it throws. It answers where it does
not fail. -/
structure Lookup where
  run : Exchange → Exchange × Option Thrown
  answers : ∀ e, e.endings = [] → e.nexts = 0 → (run e).2 = none → (run e).1.Answered

structure ResolverRedirectTarget where
  routeDomain : String
  targetPath : String
  location : Option String
  statusCode : Option ℕ
  headers : List (String × String)

structure ResolverTarget where
  local? : Option Lookup
  redirect : Option ResolverRedirectTarget

/-- A resolver, for the other fields of a request; none where the validation throws. -/
structure Resolver (V : Type) where
  validateRouteRequest : Params → Option V
  handler : V → String → List Char → Except Thrown (Option ResolverTarget)

/-! ## Errors and redirects -/

def writeResolverError (e : Exchange) (statusCode : ℕ) (message : String)
    (error : Option Thrown) : Exchange :=
  if e.headersSent then
    { e with endings := e.endings ++ [.destroyed (error.filter Thrown.isError)] }
  else
    let code := match error.map Thrown.code with
      | some (.text code) => some code
      | _ => none
    { e with
      headersSent := true
      heads := e.heads ++ [⟨statusCode, .ofEntries [("content-type", "application/json")]⟩]
      endings := e.endings ++ [.ended (some ⟨code, message⟩)] }

def errorStatus : ErrorCode → ℕ
  | .absent => 500
  | .number code => if 400 ≤ code ∧ code < 600 then code.toNat else 500
  | .text code =>
    if code = "INVALID_TOPIC" then 400
    else if code = "TOPIC_NOT_FOUND" then 404
    else if code = "TOPIC_CONTENT_TYPE_MISMATCH" then 409
    else if code = "INVALID_CONTENT_TYPE" ∨ code = "UNSUPPORTED_MEDIA_TYPE" then 415
    else if code = "TOPIC_DISCONNECTED" then 503
    else if code = "TOPIC_DELETED" then 410
    else if code = "ECONNRESET" ∨ code = "EPIPE" then 503
    else 500

/-- The `catch` blocks; false where the text of the error throws. -/
def answerError (e : Exchange) (error : Thrown) : Exchange × Bool :=
  match error.message with
  | some message => (writeResolverError e (errorStatus error.code) message (some error), true)
  | none => (e, false)

def ResolverRedirectTarget.head (redirect : ResolverRedirectTarget) : Head :=
  let targetPath :=
    if redirect.targetPath.toList.head? = some '/' then redirect.targetPath
    else "/" ++ redirect.targetPath
  { statusCode := match redirect.statusCode with
      | none | some 0 => 308
      | some statusCode => statusCode
    headers := .ofEntries ([
      ("location",
        orElse redirect.location ("http://" ++ redirect.routeDomain ++ targetPath)),
      ("x-scramjet-route-decision", "redirect"),
      ("x-scramjet-route-domain", redirect.routeDomain),
      ("x-scramjet-route-target-path", targetPath)] ++ redirect.headers) }

/-- `writeHead` throws after the headers, and for a head that it does not accept. -/
def writeVerser2Redirect (accepts : Head → Bool) (e : Exchange)
    (redirect : ResolverRedirectTarget) : Exchange × Bool :=
  if e.headersSent || !accepts redirect.head then (e, false)
  else
    ({ e with
        headersSent := true
        heads := e.heads ++ [redirect.head]
        endings := e.endings ++ [.ended none] }, true)

/-! ## Paths -/

/-- The text before the first `?`. -/
def splitPath (path : String) : List (List Char) :=
  pathSegments (normalizePath (String.ofList (path.toList.takeWhile (· ≠ '?')))).toList

inductive PathMatch where
  | differs
  /-- `decodeURIComponent` throws -/
  | malformed
  | matched (params : Params) (remainingPath : List Char)

def matchSegments : List (List Char) → List (List Char) → Params → PathMatch
  | [], remaining, params => .matched params (if remaining = [] then ['/'] else rendered remaining)
  | _ :: _, [], _ => .differs
  | pattern :: patterns, segment :: segments, params =>
    if pattern.head? = some ':' then
      match decodeURIComponent segment with
      | none => .malformed
      | some value => matchSegments patterns segments (setParam params pattern.tail value)
    else if pattern ≠ segment then .differs
    else matchSegments patterns segments params

def matchResolverPath (pattern path : String) : PathMatch :=
  if (splitPath path).length < (splitPath pattern).length then .differs
  else matchSegments (splitPath pattern) (splitPath path) .empty

/-- `{ ...params, ...existingParams }`. -/
def spread (params existingParams : Params) : Params :=
  existingParams.entries.foldl (fun merged entry => merged.set entry.1 entry.2) params

/-! ## The middleware -/

/-- The request as the nested lookup gets it. -/
def Exchange.routed (e : Exchange) (remainingPath : List Char) (params : Params) : Exchange :=
  { e with
    url := some (String.ofList
      (remainingPath ++ (e.url.getD "").toList.dropWhile (· ≠ '?')))
    params := some (spread params (e.params.getD .empty)) }

/-- The `finally` block. -/
def Exchange.restored (e original : Exchange) : Exchange :=
  { e with url := original.url, params := original.params }

/-- False where the call rejects. -/
def dispatchResolvedTarget (accepts : Head → Bool) (target : Option ResolverTarget) (e : Exchange)
    (remainingPath : List Char) (params : Params) : Exchange × Bool :=
  match target with
  | none => (writeResolverError e 404 "Resolved API target was not found" none, true)
  | some target =>
    match target.redirect, target.local? with
    | some redirect, _ => writeVerser2Redirect accepts e redirect
    | none, none =>
      (writeResolverError e 501 "Resolved API target is not supported by the HTTP adapter" none,
        true)
    | none, some lookup =>
      match lookup.run (e.routed remainingPath params) with
      | (e', none) => (e'.restored e, true)
      | (e', some error) => ((answerError e' error).1.restored e, (answerError e' error).2)

variable {V : Type}

def createResolverMiddleware (accepts : Head → Bool) (resolver : Resolver V) (fullPath : String)
    (e : Exchange) : Exchange × Bool :=
  let path := orElse e.url fullPath
  match matchResolverPath fullPath path with
  | .differs => ({ e with nexts := e.nexts + 1 }, true)
  | .malformed => (e, false)
  | .matched params remainingPath =>
    match resolver.validateRouteRequest (spread params (e.params.getD .empty)) with
    | none => (e, false)
    | some request =>
      match resolver.handler request path remainingPath with
      | .error error => answerError e error
      | .ok target => dispatchResolvedTarget accepts target e remainingPath params

/-! ## When it answers -/

/-- The call resolves, the exchange is answered and the request is as it was. -/
def Answers (e : Exchange) (result : Exchange × Bool) : Prop :=
  result.2 = true ∧ result.1.Answered ∧ result.1.url = e.url ∧ result.1.params = e.params

/-- The head of a redirect can be written, and a lookup that fails has not called `next` and throws
what has a text. -/
def ResolverTarget.Handled (accepts : Head → Bool) (target : ResolverTarget) (e : Exchange)
    (remainingPath : List Char) (params : Params) : Prop :=
  match target.redirect, target.local? with
  | some redirect, _ => e.headersSent = false ∧ accepts redirect.head = true
  | none, none => True
  | none, some lookup => ∀ error, (lookup.run (e.routed remainingPath params)).2 = some error →
      (lookup.run (e.routed remainingPath params)).1.nexts = 0 ∧ error.message.isSome = true

/-- The segments of the parameters can be decoded, the validation does not throw, and the handler
throws what has a text or returns a target that can be handled. -/
def Handled (accepts : Head → Bool) (resolver : Resolver V) (fullPath : String) (e : Exchange) :
    Prop :=
  match matchResolverPath fullPath (orElse e.url fullPath) with
  | .differs => True
  | .malformed => False
  | .matched params remainingPath =>
    ∃ request, resolver.validateRouteRequest (spread params (e.params.getD .empty)) = some request ∧
      match resolver.handler request (orElse e.url fullPath) remainingPath with
      | .error error => error.message.isSome = true
      | .ok none => True
      | .ok (some target) => target.Handled accepts e remainingPath params

variable {accepts : Head → Bool} {e : Exchange}

theorem endings_writeResolverError (e : Exchange) (statusCode : ℕ) (message : String)
    (error : Option Thrown) : (writeResolverError e statusCode message error).endings ≠ [] := by
  unfold writeResolverError
  split <;> simp

@[simp] theorem nexts_writeResolverError (e : Exchange) (statusCode : ℕ) (message : String)
    (error : Option Thrown) : (writeResolverError e statusCode message error).nexts = e.nexts := by
  unfold writeResolverError
  split <;> rfl

theorem answers_writeResolverError (hnexts : e.nexts = 0) (statusCode : ℕ) (message : String)
    (error : Option Thrown) : Answers e (writeResolverError e statusCode message error, true) := by
  have hended := endings_writeResolverError e statusCode message error
  refine ⟨rfl, ?_, ?_⟩
  · simp [Exchange.Answered, hended, hnexts]
  · unfold writeResolverError
    split <;> exact ⟨rfl, rfl⟩

/-- A thrown value is answered where it has a text, also after its request was restored. -/
theorem answers_answerError_iff {e' : Exchange} (error : Thrown) :
    Answers e ((answerError e' error).1.restored e, (answerError e' error).2) ↔
      e'.nexts = 0 ∧ error.message.isSome = true := by
  unfold answerError
  cases error.message with
  | none => simp [Answers]
  | some message =>
    have hended := endings_writeResolverError e' (errorStatus error.code) message (some error)
    simp [Answers, Exchange.Answered, Exchange.restored, hended]

theorem restored_answerError (e : Exchange) (error : Thrown) :
    (answerError e error).1.restored e = (answerError e error).1 := by
  unfold answerError
  cases error.message with
  | none => rfl
  | some message =>
    dsimp only
    unfold writeResolverError
    split <;> rfl

theorem answers_writeVerser2Redirect_iff (hnexts : e.nexts = 0)
    (redirect : ResolverRedirectTarget) :
    Answers e (writeVerser2Redirect accepts e redirect) ↔
      e.headersSent = false ∧ accepts redirect.head = true := by
  unfold writeVerser2Redirect
  cases hsent : e.headersSent with
  | true => simp [Answers]
  | false =>
    cases haccepts : accepts redirect.head with
    | false => simp [Answers]
    | true => simp [Answers, Exchange.Answered, hnexts]

theorem answers_dispatchResolvedTarget_iff (hendings : e.endings = []) (hnexts : e.nexts = 0)
    (target : ResolverTarget) (remainingPath : List Char) (params : Params) :
    Answers e (dispatchResolvedTarget accepts (some target) e remainingPath params) ↔
      target.Handled accepts e remainingPath params := by
  unfold dispatchResolvedTarget ResolverTarget.Handled
  obtain ⟨local?, redirect⟩ := target
  cases redirect with
  | some redirect => exact answers_writeVerser2Redirect_iff hnexts redirect
  | none =>
    cases local? with
    | none => exact iff_true_intro (answers_writeResolverError hnexts ..)
    | some lookup =>
      have hanswers := lookup.answers (e.routed remainingPath params) hendings hnexts
      dsimp only
      generalize lookup.run (e.routed remainingPath params) = result at hanswers ⊢
      obtain ⟨e', thrown⟩ := result
      cases thrown with
      | none => exact iff_of_true ⟨rfl, hanswers rfl, rfl, rfl⟩ nofun
      | some error =>
        rw [answers_answerError_iff]
        exact ⟨fun h error' heq => by cases heq; exact h, fun h => h error rfl⟩

/-- For a request that nothing has answered yet. -/
theorem answers_iff_handled (accepts : Head → Bool) (resolver : Resolver V) (fullPath : String)
    (url : Option String) (params : Option Params) (headersSent : Bool) :
    Answers (.start url params headersSent)
        (createResolverMiddleware accepts resolver fullPath (.start url params headersSent)) ↔
      Handled accepts resolver fullPath (.start url params headersSent) := by
  generalize he : Exchange.start url params headersSent = e
  have hendings : e.endings = [] := by rw [← he]; rfl
  have hnexts : e.nexts = 0 := by rw [← he]; rfl
  unfold createResolverMiddleware Handled
  dsimp only
  cases matchResolverPath fullPath (orElse e.url fullPath) with
  | differs => simp [Answers, Exchange.Answered, hendings]
  | malformed => simp [Answers]
  | matched params remainingPath =>
    dsimp only
    cases resolver.validateRouteRequest (spread params (e.params.getD .empty)) with
    | none => simp [Answers]
    | some request =>
      have hrequest {P : V → Prop} : (∃ r, some request = some r ∧ P r) ↔ P request :=
        ⟨fun ⟨_, hr, h⟩ => Option.some.inj hr ▸ h, fun h => ⟨request, rfl, h⟩⟩
      rw [hrequest]
      dsimp only
      cases resolver.handler request (orElse e.url fullPath) remainingPath with
      | error error =>
        have hanswers : Answers e ((answerError e error).1.restored e, (answerError e error).2) ↔ _ :=
          answers_answerError_iff error
        rw [restored_answerError] at hanswers
        exact hanswers.trans (and_iff_right hnexts)
      | ok target =>
        cases target with
        | none => exact iff_true_intro (answers_writeResolverError hnexts ..)
        | some target => exact answers_dispatchResolvedTarget_iff hendings hnexts ..

/-- A segment that is no percent-encoding rejects the middleware. -/
theorem malformedSegment_not_answers :
    ¬ Answers (.start (some "/topics/%zz") none false)
      (createResolverMiddleware (fun _ => true)
        ⟨fun _ => some (), fun _ _ _ => .ok none⟩ "/topics/:name"
        (.start (some "/topics/%zz") none false)) := by
  rintro ⟨hresolves, -⟩
  revert hresolves
  decide

end TransformHub.ApiRouter.ResolverMiddleware
