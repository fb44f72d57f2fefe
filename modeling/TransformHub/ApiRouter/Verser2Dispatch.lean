import TransformHub.ApiRouter.Verser2Matching

/-!
# The dispatch of a registry

What `dispatch` of a `Verser2RouteRegistry` answers, whatever patterns overlap, and the registering
of a whole router.
-/

namespace TransformHub.ApiRouter

open Js

namespace Verser2RouteRegistry

/-! ## Registering a router -/

/-- The first loop of `registerRouter`, with the keys seen; an error is thrown. -/
def checkRoutes (registrations : List Verser2RouteRegistration) :
    List String → List Verser2RouteRegistration → Option String
  | _, [] => none
  | seen, route :: routes =>
    match validateVerser2Registration route with
    | .error e => some e
    | .ok k =>
      if seen.contains k || registrations.any fun candidate => key candidate == k then
        some ("Duplicate Verser2 route registration: " ++ k)
      else checkRoutes registrations (k :: seen) routes

/-- The second loop, with what is registered when it throws. -/
def registerAll : List Verser2RouteRegistration → List Verser2RouteRegistration →
    List Verser2RouteRegistration × Option String
  | registrations, [] => (registrations, none)
  | registrations, route :: routes =>
    match register registrations route with
    | .error e => (registrations, some e)
    | .ok registrations => registerAll registrations routes

/-- For a router that collects its routes and a number of resolvers. -/
def registerRouter (registrations : List Verser2RouteRegistration) (resolvers : ℕ)
    (routes : List Verser2RouteRegistration) : List Verser2RouteRegistration × Option String :=
  if resolvers ≠ 0 then
    (registrations, some "Verser2RouteRegistry does not support resolvers")
  else
    match checkRoutes registrations [] routes with
    | some e => (registrations, some e)
    | none => registerAll registrations routes

/-- The registries that calls of `register` and `registerRouter` build. -/
inductive Built : List Verser2RouteRegistration → Prop where
  | empty : Built []
  | register {rs rs' : List Verser2RouteRegistration} {r : Verser2RouteRegistration} :
      Built rs → register rs r = .ok rs' → Built rs'
  | registerRouter {rs : List Verser2RouteRegistration} (resolvers : ℕ)
      (routes : List Verser2RouteRegistration) : Built rs →
      Built (registerRouter rs resolvers routes).1

structure Registry where
  registrations : List Verser2RouteRegistration
  built : Built registrations

/-! ## Queries -/

/-- The bytes of percent-encoded text; what is no escape stands for itself. -/
def percentDecode : List Char → List UInt8
  | '%' :: high :: low :: cs =>
    match hexDigit high, hexDigit low with
    | some high, some low => UInt8.ofNat (16 * high + low) :: percentDecode cs
    | _, _ => String.utf8EncodeChar '%' ++ percentDecode (high :: low :: cs)
  | c :: cs => String.utf8EncodeChar c ++ percentDecode cs
  | [] => []

/-- A name or a value in a form encoding. -/
def decodeComponent (text : List Char) : List Char :=
  let d := StringDecoder.write none (percentDecode (text.map fun c => if c = '+' then ' ' else c))
  d.2 ++ StringDecoder.finish d.1

/-- `Object.fromEntries(new URLSearchParams(query).entries())`. -/
def parseQuery (query : List Char) : OrderedMap (List Char) (List Char) :=
  let query := if query.head? = some '?' then query.tail else query
  .ofEntries (((query.splitOn '&').filter (· ≠ [])).map fun pair =>
    (decodeComponent (pair.takeWhile (· ≠ '=')),
      decodeComponent (pair.dropWhile (· ≠ '=')).tail))

/-- `{ ...query, ...explicit }`. -/
def overrideQuery (query explicit : OrderedMap (List Char) (List Char)) :
    OrderedMap (List Char) (List Char) :=
  explicit.entries.foldl (fun query entry => query.set entry.1 entry.2) query

def afterFirst (path : List Char) : List Char := (path.dropWhile (· ≠ '?')).tail

/-- The query of a dispatched request; the split into two drops what follows a second `?`. -/
def dispatchQuery (path : List Char) (explicit : OrderedMap (List Char) (List Char)) :
    OrderedMap (List Char) (List Char) :=
  overrideQuery (parseQuery ((afterFirst path).takeWhile (· ≠ '?'))) explicit

/-! ## The property and the condition -/

def capturesOf (r : Verser2RouteRegistration) (path : List Char) :
    Option (List (List Char × List Char)) :=
  captures (pathSegments r.fullPath) (pathSegments (path.takeWhile (· ≠ '?')))

/-- A pattern with the structure of the path captures what cannot be decoded. -/
def CapturesInvalid (r : Verser2RouteRegistration) (path : List Char) : Prop :=
  ∃ es, capturesOf r path = some es ∧ ∃ e ∈ es, decodeURIComponent e.2 = none

/-- A pattern without the structure of the path does so before the first difference. -/
def Stumbles (r : Verser2RouteRegistration) (path : List Char) : Prop :=
  capturesOf r path = none ∧
    stumbles (pathSegments r.fullPath) (pathSegments (path.takeWhile (· ≠ '?'))) = true

/-- The first registration with the structure of the path and the method. -/
def selected (rs : List Verser2RouteRegistration) (method path : List Char) :
    Option Verser2RouteRegistration :=
  rs.find? fun r => (capturesOf r path).isSome &&
    decide (r.method.upper.toList = toUpperCase method)

structure Dispatches (rs : List Verser2RouteRegistration) (method path : List Char)
    (explicit : OrderedMap (List Char) (List Char)) (response : Verser2RouteResponse) : Prop where
  notFound : response = .notFound ↔ ∀ r ∈ rs, capturesOf r path = none
  invalid : response = .invalidPathEncoding → ∃ r ∈ rs, CapturesInvalid r path
  notAllowed : (∃ allow, response = .methodNotAllowed allow) ↔
    (∃ r ∈ rs, (capturesOf r path).isSome) ∧ (∀ r ∈ rs, ¬ CapturesInvalid r path) ∧
      ∀ r ∈ rs, (capturesOf r path).isSome → r.method.upper.toList ≠ toUpperCase method
  handled : ∀ r pathname params, response = .handled r pathname params →
    selected rs method path = some r ∧
    (∀ es, capturesOf r path = some es →
      ∀ e ∈ es, params.get? e.1 = decodeURIComponent e.2) ∧
    ∀ name, (dispatchQuery path explicit).get? name =
      (overrideQuery (parseQuery (afterFirst path)) explicit).get? name

/-- No two captures of one name differ, and none is taken for the prototype. -/
def Faithful (es : List (List Char × List Char)) : Prop :=
  ∀ e ∈ es, e.1 ≠ "__proto__".toList ∧
    ∀ e' ∈ es, e'.1 = e.1 → decodeURIComponent e'.2 = decodeURIComponent e.2

/-- No name that the request does not set itself gets another value from what follows a second
`?`. -/
def QueryKept (path : List Char) (explicit : OrderedMap (List Char) (List Char)) : Prop :=
  ∀ name, explicit.get? name = none →
    (parseQuery ((afterFirst path).takeWhile (· ≠ '?'))).get? name =
      (parseQuery (afterFirst path)).get? name

/-- No pattern stumbles where none with the structure of the path captures what cannot be decoded;
the parameters of the selected pattern and the query are kept. -/
structure Unambiguous (rs : List Verser2RouteRegistration) (method path : List Char)
    (explicit : OrderedMap (List Char) (List Char)) : Prop where
  stumbles : (∃ r ∈ rs, Stumbles r path) → ∃ r ∈ rs, CapturesInvalid r path
  kept : (∀ r ∈ rs, ¬ CapturesInvalid r path) → ∀ r es, selected rs method path = some r →
    capturesOf r path = some es → Faithful es ∧ QueryKept path explicit

/-! ## Parameters and queries -/

theorem decodeAll_faithful_iff {es : List (List Char × List Char)}
    {params : OrderedMap (List Char) (List Char)} (h : decodeAll es .empty = some params) :
    (∀ e ∈ es, params.get? e.1 = decodeURIComponent e.2) ↔ Faithful es := by
  constructor
  · refine fun hget e he => ⟨fun hproto => ?_, fun e' he' hname => ?_⟩
    · obtain ⟨hnone, -⟩ | ⟨hne, -⟩ := get?_decodeAll h e.1
      · exact decode_ne_none h e he ((hget e he).symm.trans hnone)
      · exact hne hproto
    · rw [← hget e he, ← hget e' he', hname]
  · intro hfaithful e he
    obtain ⟨hproto, hsame⟩ := hfaithful e he
    obtain ⟨-, hnames⟩ | ⟨-, e', he', hname, hget⟩ := get?_decodeAll h e.1
    · exact absurd (hnames e he rfl) hproto
    · rw [hget, hsame e' he' hname]

theorem queryKept_iff {path : List Char} {explicit : OrderedMap (List Char) (List Char)} :
    (∀ name, (dispatchQuery path explicit).get? name =
      (overrideQuery (parseQuery (afterFirst path)) explicit).get? name) ↔
      QueryKept path explicit := by
  refine forall_congr' fun name => ?_
  rw [dispatchQuery, overrideQuery, overrideQuery, OrderedMap.get?_foldl_set explicit.nodup,
    OrderedMap.get?_foldl_set explicit.nodup, OrderedMap.get?_ofEntries_entries]
  cases explicit.get? name <;> simp

/-! ## What `dispatch` does -/

section Dispatch

variable {rs rs' : List Verser2RouteRegistration} {method path : List Char}

/-- The answer, by what the patterns capture. -/
inductive Dispatched (rs : List Verser2RouteRegistration) (method path : List Char) :
    Verser2RouteResponse → Prop where
  | invalid {r : Verser2RouteRegistration} : r ∈ rs → Stumbles r path ∨ CapturesInvalid r path →
      Dispatched rs method path .invalidPathEncoding
  | notFound : (∀ r ∈ rs, ¬ Stumbles r path) → (∀ r ∈ rs, capturesOf r path = none) →
      Dispatched rs method path .notFound
  | handled {r : Verser2RouteRegistration} {es : List (List Char × List Char)}
      {params : OrderedMap (List Char) (List Char)} :
      (∀ r ∈ rs, ¬ Stumbles r path) → (∀ r ∈ rs, ¬ CapturesInvalid r path) →
      selected rs method path = some r → capturesOf r path = some es →
      decodeAll es .empty = some params →
      Dispatched rs method path (.handled r (path.takeWhile (· ≠ '?')) params)
  | notAllowed (allow : List String) :
      (∀ r ∈ rs, ¬ Stumbles r path) → (∀ r ∈ rs, ¬ CapturesInvalid r path) →
      (∃ r ∈ rs, (capturesOf r path).isSome) → selected rs method path = none →
      Dispatched rs method path (.methodNotAllowed allow)

theorem malformed_iff {r : Verser2RouteRegistration} (hoptional : hasOptional r.fullPath = false) :
    matchPath r.fullPath (path.takeWhile (· ≠ '?')) = some .malformedEncoding ↔
      Stumbles r path ∨ CapturesInvalid r path := by
  rw [matchPath_eq hoptional, Stumbles, CapturesInvalid, capturesOf]
  cases captures (pathSegments r.fullPath) (pathSegments (path.takeWhile (· ≠ '?'))) with
  | none => simp
  | some es =>
    simp only [Option.some.injEq, exists_eq_left', ← @decodeAll_eq_none_iff es .empty]
    cases decodeAll es .empty <;> simp

variable (hoptional : ∀ r ∈ rs, hasOptional r.fullPath = false)
include hoptional

theorem findSome?_selected (method : List Char)
    (hvalid : ∀ r ∈ rs, ¬ CapturesInvalid r path) :
    ((rs.filterMap fun r =>
        (matchPath r.fullPath (path.takeWhile (· ≠ '?'))).map fun result => (r, result)).findSome?
      fun candidate =>
        match candidate.2 with
        | .matched params =>
          if candidate.1.method.upper.toList = toUpperCase method then some (candidate.1, params)
          else none
        | .malformedEncoding => none) =
    (selected rs method path).bind fun r =>
      ((capturesOf r path).bind (decodeAll · .empty)).map fun params => (r, params) := by
  induction rs with
  | nil => rfl
  | cons r rs ih =>
    obtain ⟨hr, hoptional⟩ := List.forall_mem_cons.mp hoptional
    obtain ⟨hvalid, hothers⟩ := List.forall_mem_cons.mp hvalid
    have ih := ih hoptional hothers
    have hmatch := @matchPath_eq r.fullPath (path.takeWhile (· ≠ '?')) hr
    cases hes : capturesOf r path with
    | none =>
      rw [selected, List.find?_cons_of_neg (by rw [hes]; simp), ← selected, ← ih]
      rw [← capturesOf, hes] at hmatch
      simp only [List.filterMap_cons, hmatch]
      split_ifs <;> rfl
    | some es =>
      cases hdecode : decodeAll es .empty with
      | none => exact absurd ⟨es, hes, decodeAll_eq_none_iff.mp hdecode⟩ hvalid
      | some params =>
        rw [← capturesOf, hes] at hmatch
        simp only [hdecode] at hmatch
        rw [List.filterMap_cons_some (b := (r, .matched params)) (by rw [hmatch]; rfl),
          List.findSome?_cons, ih, selected, selected, List.find?_cons, hes]
        by_cases hmethod : r.method.upper.toList = toUpperCase method <;>
          simp [hmethod, hes, hdecode]

theorem dispatched : Dispatched rs method path (dispatch rs method path) := by
  unfold dispatch
  dsimp only
  by_cases hinvalid : ∃ r ∈ rs, Stumbles r path ∨ CapturesInvalid r path
  · obtain ⟨r, hr, hcause⟩ := hinvalid
    have hmem : (r, .malformedEncoding) ∈ rs.filterMap fun r =>
        (matchPath r.fullPath (path.takeWhile (· ≠ '?'))).map fun result => (r, result) :=
      List.mem_filterMap.mpr ⟨r, hr, by rw [(malformed_iff (hoptional r hr)).mpr hcause]; rfl⟩
    rw [if_neg (List.ne_nil_of_mem hmem), if_pos (List.any_eq_true.mpr ⟨_, hmem, by simp⟩)]
    exact .invalid hr hcause
  · have hstumbles : ∀ r ∈ rs, ¬ Stumbles r path := fun r hr h => hinvalid ⟨r, hr, .inl h⟩
    have hvalid : ∀ r ∈ rs, ¬ CapturesInvalid r path := fun r hr h => hinvalid ⟨r, hr, .inr h⟩
    have hnone : ∀ r ∈ rs, capturesOf r path = none ↔
        matchPath r.fullPath (path.takeWhile (· ≠ '?')) = none := fun r hr => by
      rw [matchPath_eq (hoptional r hr), ← capturesOf]
      cases hes : capturesOf r path with
      | some es => simp
      | none => exact iff_of_true rfl (if_neg fun h => hstumbles r hr ⟨hes, h⟩)
    split_ifs with hnil hany
    · rw [List.filterMap_eq_nil_iff] at hnil
      exact .notFound hstumbles fun r hr =>
        (hnone r hr).mpr (Option.map_eq_none_iff.mp (hnil r hr))
    · obtain ⟨⟨r, result⟩, hmem, hresult⟩ := List.any_eq_true.mp hany
      obtain ⟨r', hr', hmatch⟩ := List.mem_filterMap.mp hmem
      obtain ⟨result', hmatch, heq⟩ := Option.map_eq_some_iff.mp hmatch
      cases heq
      have hresult : result = .malformedEncoding := of_decide_eq_true hresult
      rw [hresult] at hmatch
      exact absurd ⟨r, hr', (malformed_iff (hoptional r hr')).mp hmatch⟩ hinvalid
    · have hfound := findSome?_selected hoptional method hvalid
      generalize List.findSome? _ _ = found at hfound ⊢
      subst hfound
      cases hselected : selected rs method path with
      | none =>
        refine .notAllowed _ hstumbles hvalid ?_ hselected
        obtain ⟨⟨r, result⟩, hmem⟩ := List.exists_mem_of_ne_nil _ hnil
        obtain ⟨r', hr', hmatch⟩ := List.mem_filterMap.mp hmem
        refine ⟨r', hr', Option.isSome_iff_ne_none.mpr fun h => ?_⟩
        rw [(hnone r' hr').mp h] at hmatch
        cases hmatch
      | some r =>
        have hfound := List.find?_some hselected
        obtain ⟨es, hes⟩ := Option.isSome_iff_exists.mp (Bool.and_eq_true_iff.mp hfound).1
        cases hdecode : decodeAll es .empty with
        | none =>
          exact absurd ⟨es, hes, decodeAll_eq_none_iff.mp hdecode⟩
            (hvalid r (List.mem_of_find?_eq_some hselected))
        | some params =>
          simp only [Option.bind_some, hes, hdecode, Option.map_some]
          exact .handled hstumbles hvalid hselected hes hdecode

omit hoptional

/-! ## What a registry holds -/

theorem registerAll_eq_none {seen : List String} {routes : List Verser2RouteRegistration}
    (h : checkRoutes rs seen routes = none) (hseen : ∀ r ∈ rs', r ∈ rs ∨ key r ∈ seen) :
    (registerAll rs' routes).2 = none := by
  induction routes generalizing seen rs' with
  | nil => rfl
  | cons route routes ih =>
    rw [checkRoutes] at h
    cases hvalid : validateVerser2Registration route with
    | error e => simp [hvalid] at h
    | ok k =>
      simp only [hvalid] at h
      split_ifs at h with hduplicate
      rw [Bool.or_eq_true, not_or] at hduplicate
      have hfree : ¬ (rs'.any fun candidate => key candidate == k) = true := by
        intro hany
        obtain ⟨r, hr, hkey⟩ := List.any_eq_true.mp hany
        obtain hold | hold := hseen r hr
        · exact hduplicate.2 (List.any_eq_true.mpr ⟨r, hold, hkey⟩)
        · exact hduplicate.1 (by rw [← eq_of_beq hkey]; simpa using hold)
      have hregister : register rs' route = .ok (rs' ++ [route]) := by
        simp [register, hvalid, hfree]
      rw [registerAll, hregister]
      refine ih h fun r hr => ?_
      obtain hold | hnew := List.mem_append.mp hr
      · exact (hseen r hold).imp_right (List.mem_cons_of_mem _)
      · rw [List.mem_singleton.mp hnew, (validated hvalid).1]
        exact .inr List.mem_cons_self

/-- A router is registered as a whole or not at all. -/
theorem registerRouter_atomic (resolvers : ℕ) (routes : List Verser2RouteRegistration) :
    (registerRouter rs resolvers routes).2 = none ∨
      (registerRouter rs resolvers routes).1 = rs := by
  unfold registerRouter
  split_ifs
  · exact .inr rfl
  · cases h : checkRoutes rs [] routes with
    | some e => exact .inr rfl
    | none => exact .inl (registerAll_eq_none h fun _ => .inl)

theorem hasOptional_of_register {r : Verser2RouteRegistration}
    (hrs : ∀ r ∈ rs, hasOptional r.fullPath = false) (h : register rs r = .ok rs') :
    ∀ r ∈ rs', hasOptional r.fullPath = false := by
  obtain ⟨rfl, hoptional⟩ := of_register h
  exact List.forall_mem_append.mpr ⟨hrs, List.forall_mem_singleton.mpr hoptional⟩

theorem hasOptional_of_registerAll {routes : List Verser2RouteRegistration}
    (hrs : ∀ r ∈ rs, hasOptional r.fullPath = false) :
    ∀ r ∈ (registerAll rs routes).1, hasOptional r.fullPath = false := by
  induction routes generalizing rs with
  | nil => exact hrs
  | cons route routes ih =>
    rw [registerAll]
    cases hregister : register rs route with
    | error e => exact hrs
    | ok rs' => exact ih (hasOptional_of_register hrs hregister)

theorem Built.hasOptional (h : Built rs) : ∀ r ∈ rs, hasOptional r.fullPath = false := by
  induction h with
  | empty => nofun
  | register _ hregister ih => exact hasOptional_of_register ih hregister
  | registerRouter resolvers routes _ ih =>
    unfold Verser2RouteRegistry.registerRouter
    split_ifs
    · exact ih
    · split
      · exact ih
      · exact hasOptional_of_registerAll ih

/-! ## The dispatch of a registry -/

theorem selected_eq_none_iff : selected rs method path = none ↔
    ∀ r ∈ rs, (capturesOf r path).isSome → r.method.upper.toList ≠ toUpperCase method := by
  simp [selected, List.find?_eq_none]

variable {explicit : OrderedMap (List Char) (List Char)} {response : Verser2RouteResponse}
  (h : Dispatched rs method path response)
include h

theorem Dispatched.unambiguous (hd : Dispatches rs method path explicit response) :
    Unambiguous rs method path explicit where
  stumbles := by
    rintro ⟨r, hr, hstumbles⟩
    cases h with
    | invalid => exact hd.invalid rfl
    | notFound hno | handled hno | notAllowed _ hno => exact absurd hstumbles (hno r hr)
  kept := by
    intro hvalid r es hselected hes
    cases h with
    | invalid =>
      obtain ⟨r', hr', hinvalid⟩ := hd.invalid rfl
      exact absurd hinvalid (hvalid r' hr')
    | notFound _ hnone =>
      rw [hnone r (List.mem_of_find?_eq_some hselected)] at hes
      cases hes
    | notAllowed _ _ _ _ hnone =>
      rw [hselected] at hnone
      cases hnone
    | handled _ _ hselected' hes' hdecode =>
      obtain ⟨-, hparams, hquery⟩ := hd.handled _ _ _ rfl
      cases hselected.symm.trans hselected'
      cases hes.symm.trans hes'
      exact ⟨(decodeAll_faithful_iff hdecode).mp (hparams es hes), queryKept_iff.mp hquery⟩

theorem Dispatched.dispatches (hc : Unambiguous rs method path explicit) :
    Dispatches rs method path explicit response := by
  have hsome {r} (hr : r ∈ rs) (h : capturesOf r path ≠ none) :
      ¬ ∀ r ∈ rs, capturesOf r path = none := fun hnone => h (hnone r hr)
  cases h with
  | @invalid r hr hcause =>
    obtain ⟨r', hr', hinvalid⟩ : ∃ r ∈ rs, CapturesInvalid r path :=
      hcause.elim (fun h => hc.stumbles ⟨r, hr, h⟩) fun h => ⟨r, hr, h⟩
    obtain ⟨es, hes, -⟩ := id hinvalid
    exact ⟨iff_of_false nofun (hsome hr' (by simp [hes])), fun _ => ⟨r', hr', hinvalid⟩,
      iff_of_false nofun fun hallowed => hallowed.2.1 r' hr' hinvalid, nofun⟩
  | notFound _ hnone =>
    refine ⟨iff_of_true rfl hnone, nofun, iff_of_false nofun fun hallowed => ?_, nofun⟩
    obtain ⟨r, hr, hsome⟩ := hallowed.1
    simp [hnone r hr] at hsome
  | @handled r es params _ hvalid hselected hes hdecode =>
    obtain ⟨hfaithful, hquery⟩ := hc.kept hvalid r es hselected hes
    refine ⟨iff_of_false nofun
        (hsome (List.mem_of_find?_eq_some hselected) (by simp [hes])), nofun,
      iff_of_false nofun fun hallowed => ?_, ?_⟩
    · rw [← selected_eq_none_iff, hselected] at hallowed
      cases hallowed.2.2
    · rintro r' pathname params' hresponse
      cases hresponse
      refine ⟨hselected, fun es' hes' => ?_, queryKept_iff.mpr hquery⟩
      cases hes.symm.trans hes'
      exact (decodeAll_faithful_iff hdecode).mpr hfaithful
  | notAllowed allow _ hvalid hcaptured hselected =>
    obtain ⟨r, hr, h⟩ := id hcaptured
    exact ⟨iff_of_false nofun (hsome hr (Option.isSome_iff_ne_none.mp h)), nofun,
      iff_of_true ⟨allow, rfl⟩ ⟨hcaptured, hvalid, selected_eq_none_iff.mp hselected⟩, nofun⟩

end Dispatch

/-- A registry answers as said exactly where nothing is ambiguous, and a router that cannot be
registered leaves it as it was. -/
theorem dispatches_iff (registry : Registry) (method path : List Char)
    (explicit : OrderedMap (List Char) (List Char)) (resolvers : ℕ)
    (routes : List Verser2RouteRegistration) :
    (Dispatches registry.registrations method path explicit
        (dispatch registry.registrations method path) ↔
      Unambiguous registry.registrations method path explicit) ∧
    ((registerRouter registry.registrations resolvers routes).2 = none ∨
      (registerRouter registry.registrations resolvers routes).1 = registry.registrations) :=
  have h := dispatched registry.built.hasOptional
  ⟨⟨h.unambiguous, h.dispatches⟩, registerRouter_atomic resolvers routes⟩

/-- `GET /a/:id/y` is the only pattern. -/
def ownStatus : Registry where
  registrations := [⟨.get, none, "/a/:id/y".toList⟩]
  built := .register .empty
    (show register [] ⟨.get, none, "/a/:id/y".toList⟩ = .ok _ from rfl)

/-- A path that the pattern does not have is no invalid encoding. -/
theorem not_dispatches_ownStatus :
    ¬ Dispatches ownStatus.registrations "GET".toList "/a/%zz/x".toList .empty
      (dispatch ownStatus.registrations "GET".toList "/a/%zz/x".toList) := by
  intro h
  obtain ⟨r, hr, es, hes, -⟩ := h.invalid rfl
  cases List.mem_singleton.mp hr
  cases (show none = some es from hes)

end Verser2RouteRegistry

end TransformHub.ApiRouter
