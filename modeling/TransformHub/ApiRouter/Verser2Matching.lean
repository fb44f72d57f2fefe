import Mathlib.Data.List.TakeWhile
import TransformHub.ApiRouter.PathTemplates

/-!
# Matching of a pattern

`match` of a `Verser2RouteRegistry`, by the segments that a pattern captures of a path. It gives up
at the first one that cannot be decoded, also where later segments differ.
-/

namespace TransformHub.ApiRouter

open Js

/-! ## Optional parameters -/

theorem hasOptional_of_contains {name template : List Char}
    (hne : name ≠ []) (hword : ∀ c ∈ name, isWordChar c = true)
    (h : ':' :: (name ++ ['?']) <:+: template) : hasOptional template = true := by
  obtain ⟨before, after, rfl⟩ := h
  induction before with
  | nil =>
    have hstop : isWordChar '?' = false := by decide
    have htake : (name ++ ('?' :: after)).takeWhile isWordChar = name := by
      rw [List.takeWhile_append_of_pos hword, List.takeWhile_cons_of_neg (by simp [hstop]),
        List.append_nil]
    have hdrop : (name ++ ('?' :: after)).dropWhile isWordChar = '?' :: after := by
      rw [List.dropWhile_append_of_pos hword, List.dropWhile_cons_of_neg (by simp [hstop])]
    simp [hasOptional, htake, hdrop, hne]
  | cons c before ih => rw [List.cons_append, List.cons_append, hasOptional, ih, Bool.or_true]

theorem parameter?_optional {g name : List Char} (h : parameter? g = some (name, true)) :
    g = ':' :: (name ++ ['?']) ∧ name ≠ [] ∧ ∀ c ∈ name, isWordChar c = true := by
  unfold parameter? at h
  split at h
  · rename_i rest
    split_ifs at h with htake hdrop hlast
    · cases h
    · cases h
      refine ⟨?_, htake, fun c hc => List.mem_takeWhile_imp hc⟩
      rw [← hlast, List.takeWhile_append_dropWhile]
  · cases h

theorem parameter?_required {pattern g name : List Char} (hoptional : hasOptional pattern = false)
    (hg : g ∈ pattern.splitOn '/') : parameter? g ≠ some (name, true) := by
  intro h
  obtain ⟨rfl, hne, hword⟩ := parameter?_optional h
  rw [hasOptional_of_contains hne hword (infix_of_mem_splitOn hg)] at hoptional
  cases hoptional

namespace Verser2RouteRegistry

section Register

variable {registry registry' : List Verser2RouteRegistration}
  {registration : Verser2RouteRegistration}

theorem validated {k : String} (h : validateVerser2Registration registration = .ok k) :
    k = key registration ∧ hasOptional registration.fullPath = false := by
  unfold validateVerser2Registration at h
  dsimp only at h
  split_ifs at h with _ hoptional
  cases h
  exact ⟨rfl, Bool.eq_false_iff.mpr hoptional⟩

theorem of_register (h : register registry registration = .ok registry') :
    registry' = registry ++ [registration] ∧ hasOptional registration.fullPath = false := by
  unfold register at h
  split at h
  · cases h
  · rename_i hvalid
    split_ifs at h
    cases h
    exact ⟨rfl, (validated hvalid).2⟩

end Register

/-! ## Captures -/

/-- The segments that the parameters and the wildcard of a pattern capture, where the path has its
structure. -/
def captures : List (List Char) → List (List Char) → Option (List (List Char × List Char))
  | [], segments => if segments = [] then some [] else none
  | part :: parts, segments =>
    if part = ['*'] then some [(['*'], ['/'].intercalate segments)]
    else
      match segments with
      | [] => none
      | segment :: segments =>
        match parameter? part with
        | some (name, _) => (captures parts segments).map ((name, segment) :: ·)
        | none => if segment = part then captures parts segments else none

/-- A parameter captures what cannot be decoded before the first difference. -/
def stumbles : List (List Char) → List (List Char) → Bool
  | part :: parts, segment :: segments =>
    if part = ['*'] then false
    else
      match parameter? part with
      | some _ => (decodeURIComponent segment).isNone || stumbles parts segments
      | none => segment == part && stumbles parts segments
  | _, _ => false

/-- The decoded captures are set one after another; none where one cannot be decoded. -/
def decodeAll : List (List Char × List Char) → OrderedMap (List Char) (List Char) →
    Option (OrderedMap (List Char) (List Char))
  | [], params => some params
  | (name, raw) :: entries, params =>
    (decodeURIComponent raw).bind fun value => decodeAll entries (setParam params name value)

section Match

variable {pathParts parts segments : List (List Char)} {entries : List (List Char × List Char)}
  {params decoded : OrderedMap (List Char) (List Char)} {index : ℕ}

theorem of_drop_eq_cons {α : Type*} {l rest : List α} {a : α} {n : ℕ} (h : l.drop n = a :: rest) :
    n < l.length ∧ l[n]? = some a ∧ l.drop (n + 1) = rest := by
  have hget : l[n]? = some a := by
    rw [← List.head?_drop, h]
    rfl
  refine ⟨(List.getElem?_eq_some_iff.mp hget).1, hget, ?_⟩
  rw [← List.drop_drop, h]
  rfl

theorem matchParts_eq (hoptional : ∀ part ∈ parts, ∀ name, parameter? part ≠ some (name, true))
    (hdrop : pathParts.drop index = segments) (hindex : index ≤ pathParts.length) :
    matchParts pathParts parts index params =
      match captures parts segments with
      | some entries => some ((decodeAll entries params).elim .malformedEncoding .matched)
      | none => if stumbles parts segments then some .malformedEncoding else none := by
  induction parts generalizing index segments params with
  | nil =>
    have hend : index = pathParts.length ↔ segments = [] := by
      rw [← hdrop, List.drop_eq_nil_iff]
      omega
    by_cases hsegments : segments = []
    · simp [matchParts, captures, decodeAll, hend.mpr hsegments, hsegments]
    · simp [matchParts, captures, stumbles, mt hend.mp hsegments, hsegments]
  | cons part parts ih =>
    obtain ⟨hpart, hparts⟩ := List.forall_mem_cons.mp hoptional
    rw [matchParts]
    by_cases hwildcard : part = ['*']
    · have hstar : ∀ value, setParam params ['*'] value = params.set ['*'] value := fun _ => rfl
      have hcaptures : captures (part :: parts) segments =
          some [(['*'], ['/'].intercalate segments)] := by
        cases segments <;> simp [captures, hwildcard]
      rw [if_pos hwildcard, hcaptures, hdrop]
      cases hdecode : decodeURIComponent (['/'].intercalate segments) <;>
        simp [decodeAll, hdecode, hstar]
    · rw [if_neg hwildcard]
      cases segments with
      | nil =>
        rw [List.getElem?_eq_none_iff.mpr (List.drop_eq_nil_iff.mp hdrop)]
        cases hparameter : parameter? part with
        | none => simp [stumbles, captures, hwildcard]
        | some parameter =>
          obtain ⟨name, optional⟩ := parameter
          cases optional with
          | true => exact absurd hparameter (hpart name)
          | false => simp [stumbles, captures, hwildcard]
      | cons segment segments =>
        obtain ⟨hlt, hget, hrest⟩ := of_drop_eq_cons hdrop
        have ih {params} := @ih _ params _ hparts hrest hlt
        rw [hget, stumbles, if_neg hwildcard, captures, if_neg hwildcard]
        cases parameter? part with
        | none => by_cases hsame : segment = part <;> simp [hsame, ih]
        | some parameter =>
          cases hdecode : decodeURIComponent segment <;> cases hcaptures : captures parts segments <;>
            simp [hdecode, ih, hcaptures, decodeAll]

theorem decodeAll_eq_none_iff :
    decodeAll entries params = none ↔ ∃ e ∈ entries, decodeURIComponent e.2 = none := by
  induction entries generalizing params with
  | nil => simp [decodeAll]
  | cons e entries ih =>
    rw [decodeAll]
    cases hdecode : decodeURIComponent e.2 <;> simp [hdecode, ih]

theorem decode_ne_none (h : decodeAll entries params = some decoded) :
    ∀ e ∈ entries, decodeURIComponent e.2 ≠ none := by
  intro e he hnone
  rw [decodeAll_eq_none_iff.mpr ⟨e, he, hnone⟩] at h
  cases h

/-- A parameter has the value of one of its captures. -/
theorem get?_decodeAll (h : decodeAll entries params = some decoded) (name : List Char) :
    (decoded.get? name = params.get? name ∧
      ∀ e ∈ entries, e.1 = name → name = "__proto__".toList) ∨
    name ≠ "__proto__".toList ∧
      ∃ e ∈ entries, e.1 = name ∧ decoded.get? name = decodeURIComponent e.2 := by
  induction entries generalizing params with
  | nil =>
    cases h
    exact .inl ⟨rfl, nofun⟩
  | cons e entries ih =>
    obtain ⟨value, hvalue, h⟩ := Option.bind_eq_some_iff.mp h
    obtain ⟨hget, hnames⟩ | ⟨hproto, e', he', hname, hget⟩ := ih h
    · rw [setParam] at hget
      by_cases hproto : name = "__proto__".toList
      · refine .inl ⟨?_, fun _ _ _ => hproto⟩
        split_ifs at hget with hname
        · exact hget
        · rw [hget, OrderedMap.get?_set_of_ne _ fun h => hname (h.trans hproto)]
      · by_cases hname : e.1 = name
        · rw [if_neg (hname ▸ hproto), hname, OrderedMap.get?_set_self, ← hvalue] at hget
          exact .inr ⟨hproto, e, List.mem_cons_self, hname, hget⟩
        · refine .inl ⟨?_, List.forall_mem_cons.mpr ⟨fun h => absurd h hname, hnames⟩⟩
          split_ifs at hget
          · exact hget
          · rw [hget, OrderedMap.get?_set_of_ne _ hname]
    · exact .inr ⟨hproto, e', List.mem_cons_of_mem _ he', hname, hget⟩

variable {pattern pathname : List Char}

theorem matchPath_eq (hoptional : hasOptional pattern = false) :
    matchPath pattern pathname =
      match captures (pathSegments pattern) (pathSegments pathname) with
      | some entries => some ((decodeAll entries .empty).elim .malformedEncoding .matched)
      | none => if stumbles (pathSegments pattern) (pathSegments pathname) then
          some .malformedEncoding else none :=
  matchParts_eq (fun _ hpart _ => parameter?_required hoptional (List.mem_of_mem_filter hpart))
    List.drop_zero (Nat.zero_le _)

theorem matched_iff (hoptional : hasOptional pattern = false) :
    matchPath pattern pathname = some (.matched decoded) ↔
      ∃ entries, captures (pathSegments pattern) (pathSegments pathname) = some entries ∧
        decodeAll entries .empty = some decoded := by
  rw [matchPath_eq hoptional]
  cases captures (pathSegments pattern) (pathSegments pathname) with
  | none => split_ifs <;> simp
  | some entries => cases hdecode : decodeAll entries .empty <;> simp [hdecode]

end Match

end Verser2RouteRegistry

end TransformHub.ApiRouter
