import TransformHub.Manager.RouteClassifier
import TransformHub.Manager.RouteForwardingPolicy

/-!
# Requests to a hub

`handleRequestToSTH` of `manager.ts`, which forwards what comes under `/sth/:id` to the hub, or
answers with a redirect to it.
-/

namespace TransformHub.Manager.RouteClassifier

open Js

/-- The digits and what follows them are those of a version base. -/
def isVersionRest (rest : List Char) : Bool :=
  rest.takeWhile Char.isDigit != [] &&
    (rest.dropWhile Char.isDigit == [] || (rest.dropWhile Char.isDigit).head? == some '/')

/-- `/^\/api\/v\d+(?:\/|$)/.test(path)`. -/
def isVersioned (path : List Char) : Bool :=
  "/api/v".toList.isPrefixOf path && isVersionRest (path.drop "/api/v".toList.length)

def normalizeSthTargetPath (apiBase targetPath : List Char) : List Char :=
  let path := withSlash targetPath
  if isVersioned path then path else withoutLastSlash apiBase ++ path

/-- `text.replace(pattern, "")`. -/
def removeFirst (pattern : List Char) : List Char → List Char
  | [] => []
  | c :: cs =>
    if pattern.isPrefixOf (c :: cs) then (c :: cs).drop pattern.length
    else c :: removeFirst pattern cs

/-- What is read of a `SthController`. -/
structure SthController where
  isConnectionActive : Bool
  routeDomain : Option (List Char)

structure ParsedMessage where
  method : Option String
  url : Option (List Char)
  id : List Char
  cpm : Option String

inductive Answer where
  | status (code : ℕ)
  | unsupportedRouteDecision (code : ℕ) (decision : ManagerRouteDecision)
  /-- with the domain and the path for the client -/
  | directRouteMetadata (routeDomain targetPath : List Char)
  /-- sent to the hub through the broker -/
  | tunnel (domain path : List Char)
  | nativeFollowRedirect (location routeDomain targetPath : List Char)

/-- The path that goes to the hub, or to which the client is sent. -/
def Answer.targetPath : Answer → Option (List Char)
  | directRouteMetadata _ targetPath => some targetPath
  | tunnel _ path => some path
  | nativeFollowRedirect _ _ targetPath => some targetPath
  | _ => none

structure ManagerServer where
  apiBase : List Char
  getById : List Char → Option SthController
  /-- there is an `sthBrokerTransport` -/
  brokered : Bool

namespace ManagerServer

def createVerserRouteLocation (routeDomain targetPath fallback : List Char) : List Char :=
  if routeDomain = [] then fallback
  else "http://".toList ++ routeDomain ++ withSlash targetPath

def forwardRequestToSTH (m : ManagerServer) (sth : SthController)
    (targetPath fallbackLocation : List Char) : Answer :=
  let routeDomain := sth.routeDomain.getD []
  let normalizedTargetPath := normalizeSthTargetPath m.apiBase targetPath
  match decideRouteForwardingPolicy (String.ofList routeDomain) .managerDownward, m.brokered with
  | .tunnel _, true => .tunnel routeDomain normalizedTargetPath
  | _, _ =>
    .nativeFollowRedirect
      (createVerserRouteLocation routeDomain normalizedTargetPath
        (orElse (some fallbackLocation) normalizedTargetPath))
      routeDomain normalizedTargetPath

def handleClassifiedFollowRequestToSTH (m : ManagerServer) (sth : SthController)
    (decision : ManagerRouteDecision) (url : Option (List Char)) (cpm : Option String) : Answer :=
  match prepareManagerFollowForwarding decision url cpm with
  | .directRouteMetadata routeDomain targetPath =>
    .directRouteMetadata (orElse sth.routeDomain (orElse routeDomain []))
      (normalizeSthTargetPath m.apiBase (orElse targetPath (orElse url ['/'])))
  | .redirect location _ targetPath =>
    m.forwardRequestToSTH sth
      (normalizeSthTargetPath m.apiBase (orElse (some targetPath) (orElse url ['/']))) location

def unsupportedRouteDecision (decision : ManagerRouteDecision) : Answer :=
  .unsupportedRouteDecision (if decision.kind = .unsupportedBidirectional then 501 else 409)
    decision

/-- `handleRequestToSTH`; `none` where the classification throws. -/
def handleRequestToSTH (m : ManagerServer) (req : ParsedMessage) : Option Answer :=
  match m.getById req.id with
  | none => some (.status 404)
  | some sth =>
    if sth.isConnectionActive = false then some (.status 503)
    else
      let url := req.url.map (removeFirst (m.apiBase ++ "/sth/".toList ++ req.id))
      (classifyManagerRoute req.method req.url (some m.apiBase)).map fun decision =>
        if decision.kind = .follow then
          m.handleClassifiedFollowRequestToSTH sth decision url req.cpm
        else unsupportedRouteDecision decision

end ManagerServer

/-! ## Plain paths -/

/-- A segment of a path that is not empty and has no escapes. -/
structure PathSegment where
  chars : List Char
  nonempty : chars ≠ []
  plain : ∀ c ∈ chars, c ≠ '/' ∧ c ≠ '?' ∧ c ≠ '%'

theorem plain_of_all {chars : List Char}
    (h : chars.all (fun c => c != '/' && c != '?' && c != '%') = true) :
    ∀ c ∈ chars, c ≠ '/' ∧ c ≠ '?' ∧ c ≠ '%' := by
  intro c hc
  have hplain := List.all_eq_true.mp h c hc
  simp only [Bool.and_eq_true, bne_iff_ne] at hplain
  exact ⟨hplain.1.1, hplain.1.2, hplain.2⟩

def plainPath (segments : List PathSegment) : List Char :=
  joinSegments (segments.map PathSegment.chars)

def queryText (query : Option (List Char)) : List Char :=
  match query with
  | none => []
  | some query => '?' :: query

def apiSegment : PathSegment := ⟨"api".toList, by decide, plain_of_all (by decide)⟩

def versionSegment : PathSegment := ⟨"v1".toList, by decide, plain_of_all (by decide)⟩

def sthSegment : PathSegment := ⟨"sth".toList, by decide, plain_of_all (by decide)⟩

/-- A URL under `/api/v1/sth/:id`. -/
def requestUrl (id : PathSegment) (rest : List PathSegment) (query : Option (List Char)) :
    List Char :=
  plainPath (apiSegment :: versionSegment :: sthSegment :: id :: rest) ++ queryText query

variable {segments : List PathSegment} {id : PathSegment} {rest : List PathSegment}
  {query : Option (List Char)}

theorem joinSegments_cons (segment : List Char) (segments : List (List Char)) :
    joinSegments (segment :: segments) = '/' :: segment ++ segments.flatMap ('/' :: ·) := by
  unfold joinSegments
  induction segments generalizing segment with
  | nil => simp
  | cons segment' segments ih =>
    rw [List.intercalate_cons_of_ne_nil (by simp), List.append_assoc, List.singleton_append, ih]
    rfl

theorem notMem_plainPath {c : Char} (hc : c ≠ '/') (h : ∀ segment ∈ segments, c ∉ segment.chars) :
    c ∉ plainPath segments := by
  unfold plainPath
  cases segments with
  | nil => simpa [joinSegments] using hc
  | cons segment segments =>
    rw [List.map_cons, joinSegments_cons]
    intro hmem
    rw [List.cons_append, List.mem_cons, List.mem_append, List.mem_flatMap] at hmem
    rcases hmem with hmem | hmem | ⟨chars, hchars, hmem⟩
    · exact hc hmem
    · exact h segment List.mem_cons_self hmem
    · obtain ⟨segment', hsegment', rfl⟩ := List.mem_map.mp hchars
      rcases List.mem_cons.mp hmem with hmem | hmem
      · exact hc hmem
      · exact h segment' (List.mem_cons_of_mem _ hsegment') hmem

theorem questionMark_notMem_plainPath : '?' ∉ plainPath segments :=
  notMem_plainPath (by decide) fun segment _ hmem => (segment.plain _ hmem).2.1 rfl

/-! ## The segments of a plain URL -/

theorem takeWhile_plainPath :
    (plainPath segments ++ queryText query).takeWhile (· ≠ '?') = plainPath segments := by
  have hall : ∀ c ∈ plainPath segments, decide (c ≠ '?') = true := by
    intro c hc
    have hne : c ≠ '?' := fun hnot => questionMark_notMem_plainPath (hnot ▸ hc)
    simpa using hne
  rw [List.takeWhile_append_of_pos hall]
  cases query with
  | none | some query => simp [queryText]

theorem dropWhile_plainPath :
    (plainPath segments ++ queryText query).dropWhile (· ≠ '?') = queryText query := by
  have hall : ∀ c ∈ plainPath segments, decide (c ≠ '?') = true := by
    intro c hc
    have hne : c ≠ '?' := fun hnot => questionMark_notMem_plainPath (hnot ▸ hc)
    simpa using hne
  rw [List.dropWhile_append_of_pos hall]
  cases query with
  | none => rfl
  | some query => simp [queryText]

theorem plainPath_ne_nil : plainPath segments ++ queryText query ≠ [] := by
  unfold plainPath joinSegments
  simp

theorem normalizePath_plain :
    normalizePath (some (plainPath segments ++ queryText query)) = plainPath segments := by
  unfold normalizePath orElse
  dsimp only
  rw [if_neg plainPath_ne_nil, takeWhile_plainPath]
  unfold plainPath joinSegments withSlash
  simp

theorem stripApiBase_append (apiBase rest : List Char) :
    stripApiBase (apiBase ++ '/' :: rest) apiBase = '/' :: rest := by
  unfold stripApiBase
  rw [if_neg (by simp), if_pos]
  · exact List.drop_left
  · rw [List.isPrefixOf_iff_prefix]
    exact ⟨rest, by simp⟩

theorem stripApiBase_plain :
    stripApiBase (plainPath (apiSegment :: versionSegment :: segments)) defaultApiBase =
      plainPath segments := by
  cases segments with
  | nil => decide
  | cons segment segments =>
    have hpath : plainPath (apiSegment :: versionSegment :: segment :: segments) =
        defaultApiBase ++ plainPath (segment :: segments) := by
      unfold plainPath
      simp only [List.map_cons, joinSegments_cons, List.flatMap_cons]
      rfl
    rw [hpath]
    exact stripApiBase_append defaultApiBase _

theorem rawSegments_plainPath :
    rawSegments (plainPath segments) = segments.map PathSegment.chars := by
  cases segments with
  | nil => decide
  | cons segment segments =>
    have hslash : ∀ chars ∈ [] :: (segment :: segments).map PathSegment.chars, '/' ∉ chars := by
      intro chars hchars
      rcases List.mem_cons.mp hchars with rfl | hchars
      · exact List.not_mem_nil
      · obtain ⟨segment', -, rfl⟩ := List.mem_map.mp hchars
        exact fun hmem => (segment'.plain _ hmem).1 rfl
    have hsplit : (plainPath (segment :: segments)).splitOn '/' =
        [] :: (segment :: segments).map PathSegment.chars := by
      rw [← List.splitOn_intercalate '/' hslash (List.cons_ne_nil _ _)]
      simp [plainPath, joinSegments]
    unfold rawSegments
    rw [hsplit, List.filter_cons_of_neg (by simp), List.filter_eq_self]
    intro chars hchars
    obtain ⟨segment', -, rfl⟩ := List.mem_map.mp hchars
    simpa using segment'.nonempty

theorem mapM_decode_plain :
    (segments.map PathSegment.chars).mapM decodeURIComponent =
      some (segments.map PathSegment.chars) := by
  induction segments with
  | nil => rfl
  | cons segment segments ih =>
    have hplain : '%' ∉ segment.chars := fun hmem => (segment.plain _ hmem).2.2 rfl
    rw [List.map_cons, List.mapM_cons, decodeURIComponent_plain hplain, ih]
    rfl

theorem urlSegments_requestUrl :
    urlSegments (some (requestUrl id rest query)) (some defaultApiBase) =
      (sthSegment :: id :: rest).map PathSegment.chars := by
  have hbase : normalizeBase (orElse (some defaultApiBase) defaultApiBase) = defaultApiBase := by
    decide
  unfold urlSegments requestUrl
  rw [hbase, normalizePath_plain, stripApiBase_plain, rawSegments_plainPath]

theorem classifyManagerRoute_requestUrl (method : Option String) :
    classifyManagerRoute method (some (requestUrl id rest query)) (some defaultApiBase) =
      some (classifySthRoute (requestMethod method)
        ((sthSegment :: id :: rest).map PathSegment.chars)) := by
  unfold classifyManagerRoute
  rw [urlSegments_requestUrl, mapM_decode_plain]
  rfl

theorem removeFirst_append {pattern : List Char} (text : List Char) (h : pattern ≠ []) :
    removeFirst pattern (pattern ++ text) = text := by
  obtain ⟨c, cs, rfl⟩ := List.exists_cons_of_ne_nil h
  rw [List.cons_append, removeFirst, ← List.cons_append, if_pos]
  · exact List.drop_left
  · rw [List.isPrefixOf_iff_prefix]
    exact List.prefix_append _ _

theorem removeFirst_requestUrl :
    removeFirst (defaultApiBase ++ "/sth/".toList ++ id.chars) (requestUrl id rest query) =
      (rest.map PathSegment.chars).flatMap ('/' :: ·) ++ queryText query := by
  have hurl : requestUrl id rest query = defaultApiBase ++ "/sth/".toList ++ id.chars ++
      ((rest.map PathSegment.chars).flatMap ('/' :: ·) ++ queryText query) := by
    unfold requestUrl plainPath
    simp only [List.map_cons, joinSegments_cons, List.flatMap_cons, List.append_assoc]
    rfl
  rw [hurl]
  exact removeFirst_append _ (by simp)

/-! ## What is sent -/

theorem classifyInstanceRoute_target (method : String) (segments : List (List Char))
    (targetPath : List Char) (baseTarget : ManagerRouteTarget) :
    (classifyInstanceRoute method segments targetPath baseTarget).target.bind (·.targetPath) =
      some targetPath := by
  unfold classifyInstanceRoute
  dsimp only
  split_ifs <;> rfl

theorem classifyHostRoute_target (method : String) (segments : List (List Char))
    {target : ManagerRouteTarget} {path : List Char} (hpath : target.targetPath = some path)
    (hne : path ≠ []) :
    (classifyHostRoute method segments target).target.bind (·.targetPath) = some path := by
  have horElse : orElse target.targetPath (joinSegments segments) = path := by
    rw [hpath, orElse, if_neg hne]
  unfold classifyHostRoute
  dsimp only
  split_ifs
  all_goals first
    | exact hpath
    | rw [classifyInstanceRoute_target, horElse]

theorem classifySthRoute_target {method : String} {sthId : List Char} {rest : List (List Char)}
    (h : (classifySthRoute method ("sth".toList :: sthId :: rest)).kind = .follow) :
    (classifySthRoute method ("sth".toList :: sthId :: rest)).target.bind (·.targetPath) =
      some (joinSegments rest) := by
  have hsegment : ("sth".toList :: sthId :: rest)[1]? = some sthId := rfl
  unfold classifySthRoute at h ⊢
  rw [hsegment] at h ⊢
  dsimp only at h ⊢
  split_ifs at h ⊢
  · cases h
  · cases h
  · exact classifyHostRoute_target _ _ rfl (by simp [joinSegments])

def remainder (rest : List PathSegment) (query : Option (List Char)) : List Char :=
  plainPath rest ++ queryText query

/-- The path is below the API base, unless it has a version base itself. -/
def sentPath (rest : List PathSegment) (query : Option (List Char)) : List Char :=
  if isVersioned (remainder rest query) then remainder rest query
  else defaultApiBase ++ remainder rest query

theorem head?_remainder : (remainder rest query).head? = some '/' := rfl

theorem isVersioned_defaultApiBase {text : List Char} (h : text.head? = some '/') :
    isVersioned (defaultApiBase ++ text) = true := by
  cases text with
  | nil => cases h
  | cons c text =>
    cases h
    rfl

theorem normalizeSthTargetPath_remainder :
    normalizeSthTargetPath defaultApiBase (remainder rest query) = sentPath rest query := by
  have hslash : withSlash (remainder rest query) = remainder rest query := by
    unfold withSlash
    rw [if_pos head?_remainder]
  unfold normalizeSthTargetPath sentPath
  rw [hslash]
  rfl

theorem head?_sentPath : (sentPath rest query).head? = some '/' := by
  unfold sentPath
  split_ifs
  · exact head?_remainder
  · rfl

theorem isVersioned_sentPath : isVersioned (sentPath rest query) = true := by
  unfold sentPath
  split_ifs with hversioned
  · exact hversioned
  · exact isVersioned_defaultApiBase head?_remainder

theorem normalizeSthTargetPath_sentPath :
    normalizeSthTargetPath defaultApiBase (sentPath rest query) = sentPath rest query := by
  have hslash : withSlash (sentPath rest query) = sentPath rest query := by
    unfold withSlash
    rw [if_pos head?_sentPath]
  unfold normalizeSthTargetPath
  rw [hslash, if_pos isVersioned_sentPath]

theorem applyOriginalQuery_remainder :
    applyOriginalQuery (plainPath rest)
      (some ((rest.map PathSegment.chars).flatMap ('/' :: ·) ++ queryText query)) =
        remainder rest query := by
  have hquery : ((rest.map PathSegment.chars).flatMap ('/' :: ·) ++ queryText query).dropWhile
      (· ≠ '?') = queryText query := by
    cases rest with
    | nil =>
      cases query with
      | none => rfl
      | some query => simp [queryText]
    | cons segment rest =>
      have hpath : ((segment :: rest).map PathSegment.chars).flatMap ('/' :: ·) =
          plainPath (segment :: rest) := by
        unfold plainPath
        rw [List.map_cons, joinSegments_cons]
        rfl
      rw [hpath, dropWhile_plainPath]
  unfold applyOriginalQuery remainder
  dsimp only [Option.getD]
  by_cases hnil : (rest.map PathSegment.chars).flatMap ('/' :: ·) ++ queryText query = []
  · rw [if_pos (.inl hnil), (List.append_eq_nil_iff.mp hnil).2, List.append_nil]
  · rw [if_neg, hquery]
    rintro (h | h)
    · exact hnil h
    · exact questionMark_notMem_plainPath h

theorem remainder_ne_nil : remainder rest query ≠ [] := plainPath_ne_nil

theorem orElse_of_ne_nil {text fallback : List Char} (h : text ≠ []) :
    orElse (some text) fallback = text := if_neg h

theorem targetPath_forwardRequestToSTH (m : ManagerServer) (sth : SthController)
    (targetPath location : List Char) :
    (m.forwardRequestToSTH sth targetPath location).targetPath =
      some (normalizeSthTargetPath m.apiBase targetPath) := by
  unfold ManagerServer.forwardRequestToSTH
  dsimp only
  split <;> rfl

theorem targetPath_follow {m : ManagerServer} (hbase : m.apiBase = defaultApiBase)
    (sth : SthController) {decision : ManagerRouteDecision}
    (hpath : decision.target.bind (·.targetPath) = some (plainPath rest)) (cpm : Option String) :
    (m.handleClassifiedFollowRequestToSTH sth decision
      (some ((rest.map PathSegment.chars).flatMap ('/' :: ·) ++ queryText query)) cpm).targetPath =
        some (sentPath rest query) := by
  have hne : plainPath rest ≠ [] := List.cons_ne_nil _ _
  unfold ManagerServer.handleClassifiedFollowRequestToSTH prepareManagerFollowForwarding
  dsimp only
  rw [hpath, orElse_of_ne_nil hne, applyOriginalQuery_remainder]
  by_cases hcpm : cpm = some "true"
  · rw [if_pos hcpm]
    show some _ = some _
    rw [orElse_of_ne_nil remainder_ne_nil, hbase, normalizeSthTargetPath_remainder]
  · rw [if_neg hcpm]
    dsimp only
    rw [targetPath_forwardRequestToSTH, orElse_of_ne_nil remainder_ne_nil, hbase,
      normalizeSthTargetPath_remainder, normalizeSthTargetPath_sentPath]

theorem targetPath_unsupportedRouteDecision (decision : ManagerRouteDecision) :
    (ManagerServer.unsupportedRouteDecision decision).targetPath = none := rfl

/-- The hub of the id is known and connected. -/
def ManagerServer.isActive (m : ManagerServer) (id : List Char) : Bool :=
  (m.getById id).any (·.isConnectionActive)

theorem mapM_decode_of_forall {raw : List (List Char)}
    (hdecode : ∀ segment ∈ raw, decodeURIComponent segment ≠ none) :
    ∃ segments, raw.mapM decodeURIComponent = some segments := by
  induction raw with
  | nil => exact ⟨[], rfl⟩
  | cons segment raw ih =>
    obtain ⟨segments, hsegments⟩ := ih fun s hs => hdecode s (List.mem_cons_of_mem _ hs)
    obtain ⟨decoded, hdecoded⟩ :=
      Option.ne_none_iff_exists'.mp (hdecode segment List.mem_cons_self)
    refine ⟨decoded :: segments, ?_⟩
    rw [List.mapM_cons, hdecoded, hsegments]
    rfl

/-- A request under `/api/v1/sth/:id` that is followed is sent with the path and the query after the
id, below the API base; every other one is answered by the Manager itself. -/
theorem requestToSth_sentPath (getById : List Char → Option SthController) (brokered : Bool)
    (method : Option String) (id : PathSegment) (rest : List PathSegment)
    (query : Option (List Char)) (cpm : Option String) :
    (∃ decision answer,
      classifyManagerRoute method (some (requestUrl id rest query)) (some defaultApiBase) =
        some decision ∧
      ManagerServer.handleRequestToSTH ⟨defaultApiBase, getById, brokered⟩
        ⟨method, some (requestUrl id rest query), id.chars, cpm⟩ = some answer ∧
      answer.targetPath =
        if ManagerServer.isActive ⟨defaultApiBase, getById, brokered⟩ id.chars = true ∧
            decision.kind = .follow then
          some (sentPath rest query)
        else none) ∧
    ∀ (url apiBase : Option (List Char)),
      (∀ segment ∈ urlSegments url apiBase, decodeURIComponent segment ≠ none) →
        ∃ decision, classifyManagerRoute method url apiBase = some decision := by
  refine ⟨?_, ?_⟩
  · set m : ManagerServer := ⟨defaultApiBase, getById, brokered⟩
    set decision := classifySthRoute (requestMethod method)
      ((sthSegment :: id :: rest).map PathSegment.chars)
    have hclassified : classifyManagerRoute method (some (requestUrl id rest query))
        (some defaultApiBase) = some decision := classifyManagerRoute_requestUrl method
    refine ⟨decision, ?_⟩
    unfold ManagerServer.handleRequestToSTH ManagerServer.isActive
    dsimp only
    cases hget : m.getById id.chars with
    | none => exact ⟨.status 404, hclassified, rfl, by simp [Answer.targetPath]⟩
    | some sth =>
      dsimp only
      by_cases hactive : sth.isConnectionActive = true
      · rw [hactive, if_neg (by decide)]
        rw [show m.apiBase = defaultApiBase from rfl, hclassified, Option.map_some,
          Option.map_some, removeFirst_requestUrl]
        by_cases hfollow : decision.kind = .follow
        · have hpath : decision.target.bind (·.targetPath) = some (plainPath rest) :=
            classifySthRoute_target hfollow
          rw [if_pos hfollow]
          refine ⟨_, rfl, rfl, ?_⟩
          rw [targetPath_follow rfl sth hpath cpm, if_pos]
          exact ⟨by simpa using hactive, hfollow⟩
        · rw [if_neg hfollow]
          refine ⟨_, rfl, rfl, ?_⟩
          rw [targetPath_unsupportedRouteDecision, if_neg fun h => hfollow h.2]
      · rw [Bool.not_eq_true] at hactive
        rw [if_pos hactive]
        exact ⟨.status 503, hclassified, rfl, by simp [Answer.targetPath, hactive]⟩
  · intro url apiBase hdecode
    obtain ⟨segments, hsegments⟩ := mapM_decode_of_forall hdecode
    refine ⟨classifySegments (requestMethod method) segments, ?_⟩
    unfold classifyManagerRoute
    rw [hsegments]
    rfl

def oneHub : ManagerServer :=
  ⟨defaultApiBase, fun id => if id = ['h'] then some ⟨true, none⟩ else none, true⟩

def getRequest (url : String) : ParsedMessage := ⟨some "GET", some url.toList, ['h'], none⟩

/-- A request with escapes in its query only. -/
theorem requestToSth_sentPath_config :
    (∃ decision answer,
      classifyManagerRoute (some "GET") (some "/api/v1/sth/h/config?a=%".toList)
        (some defaultApiBase) = some decision ∧
      oneHub.handleRequestToSTH (getRequest "/api/v1/sth/h/config?a=%") = some answer ∧
      answer.targetPath = if oneHub.isActive ['h'] = true ∧ decision.kind = .follow then
        some "/api/v1/config?a=%".toList else none) ∧
    ∃ decision, classifyManagerRoute none (some "/api/v1/%20".toList) none = some decision := by
  have h := requestToSth_sentPath oneHub.getById true (some "GET")
    ⟨['h'], by decide, plain_of_all (by decide)⟩
    [⟨"config".toList, by decide, plain_of_all (by decide)⟩] (some "a=%".toList) none
  exact ⟨h.1, h.2 (some "/api/v1/%20".toList) none (by decide)⟩

/-- The base is put back before the path, escapes are decoded, empty segments are lost, and a
malformed escape makes the classification throw. -/
theorem requestToSth_rewritten :
    (oneHub.handleRequestToSTH (getRequest "/api/v1/sth/h/config")).bind (·.targetPath) =
      some "/api/v1/config".toList ∧
    (oneHub.handleRequestToSTH (getRequest "/api/v1/sth/h/topic/a%2Fb")).bind (·.targetPath) =
      some "/api/v1/topic/a/b".toList ∧
    (oneHub.handleRequestToSTH (getRequest "/api/v1/sth/h//topic/")).bind (·.targetPath) =
      some "/api/v1/topic".toList ∧
    oneHub.handleRequestToSTH (getRequest "/api/v1/sth/h/%") = none := by
  decide

end TransformHub.Manager.RouteClassifier
