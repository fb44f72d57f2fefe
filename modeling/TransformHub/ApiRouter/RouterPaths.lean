import TransformHub.ApiRouter.PathTemplates

/-!
# Paths as segments

`normalizePath` and `joinPaths` of `manifest.ts` work on the segments of their paths.
-/

namespace TransformHub.ApiRouter

open Js

variable {word rest : List Char} {segments : List (List Char)}

/-! ## Segments -/

/-- The text of segments, each after a slash. -/
def rendered (segments : List (List Char)) : List Char := segments.flatMap fun g => '/' :: g

def renderPath (segments : List (List Char)) : String :=
  if segments = [] then "/" else String.ofList (rendered segments)

/-- Segments that a path can have. -/
def PlainSegments (segments : List (List Char)) : Prop := ∀ g ∈ segments, g ≠ [] ∧ '/' ∉ g

theorem pathSegments_append (left right : List Char) :
    pathSegments (left ++ '/' :: right) = pathSegments left ++ pathSegments right := by
  unfold pathSegments
  rw [List.splitOn_append_cons_self, List.filter_append]

theorem pathSegments_word (hword : '/' ∉ word) (hne : word ≠ []) : pathSegments word = [word] := by
  unfold pathSegments
  rw [List.splitOn_eq_singleton hword]
  simp [hne]

theorem pathSegments_nil : pathSegments [] = [] := rfl

theorem pathSegments_slash (text : List Char) : pathSegments ('/' :: text) = pathSegments text :=
  pathSegments_append [] text

theorem plain_pathSegments (path : List Char) : PlainSegments (pathSegments path) := by
  intro g hg
  obtain ⟨hg, hne⟩ := List.mem_filter.mp hg
  exact ⟨of_decide_eq_true hne, notMem_of_mem_splitOn hg⟩

theorem pathSegments_rendered (h : PlainSegments segments) :
    pathSegments (rendered segments) = segments := by
  induction segments with
  | nil => rfl
  | cons g segments ih =>
    obtain ⟨⟨hne, hslash⟩, hrest⟩ := List.forall_mem_cons.mp h
    have ih := ih hrest
    show pathSegments ('/' :: g ++ rendered segments) = g :: segments
    rw [List.cons_append, pathSegments_slash]
    cases segments with
    | nil => rw [show rendered [] = [] from rfl, List.append_nil, pathSegments_word hslash hne]
    | cons g' segments =>
      have hrendered : rendered (g' :: segments) = '/' :: (g' ++ rendered segments) := rfl
      rw [hrendered, pathSegments_slash] at ih
      rw [hrendered, pathSegments_append, pathSegments_word hslash hne, ih]
      rfl

theorem pathSegments_renderPath (h : PlainSegments segments) :
    pathSegments (renderPath segments).toList = segments := by
  unfold renderPath
  split
  · rename_i hnil
    rw [hnil]
    rfl
  · rw [String.toList_ofList]
    exact pathSegments_rendered h

/-! ## Squeezed slashes -/

theorem squeezeSlashes_cons {c : Char} (hc : c ≠ '/') (text : List Char) :
    squeezeSlashes (c :: text) = c :: squeezeSlashes text := by
  simp [squeezeSlashes, hc]

theorem squeezeSlashes_word (hword : '/' ∉ word) (text : List Char) :
    squeezeSlashes (word ++ text) = word ++ squeezeSlashes text := by
  induction word with
  | nil => rfl
  | cons c word ih =>
    rw [List.mem_cons, not_or] at hword
    rw [List.cons_append, squeezeSlashes_cons (Ne.symm hword.1), ih hword.2, List.cons_append]

theorem squeezeSlashes_slash_word (hword : '/' ∉ word) (hne : word ≠ []) (text : List Char) :
    squeezeSlashes ('/' :: (word ++ text)) = '/' :: (word ++ squeezeSlashes text) := by
  cases word with
  | nil => exact absurd rfl hne
  | cons c word =>
    have hc : c ≠ '/' := fun h => hword (h ▸ List.mem_cons_self)
    rw [← squeezeSlashes_word hword]
    simp [squeezeSlashes, hc]

/-- A slash may be left at the end. -/
def trailing (text : List Char) : List Char :=
  if text.getLast? = some '/' then ['/'] else []

theorem squeezeSlashes_slash (text : List Char) :
    squeezeSlashes ('/' :: text) = rendered (pathSegments text) ++ trailing ('/' :: text) := by
  induction hlength : text.length using Nat.strongRecOn generalizing text with
  | _ n ih =>
    by_cases hmem : '/' ∈ text
    · obtain ⟨word, rest, rfl, hword⟩ := List.eq_append_cons_of_mem hmem
      have hlt : rest.length < n := by
        rw [← hlength, List.length_append, List.length_cons]
        omega
      have ih := ih rest.length hlt rest rfl
      have htrailing : trailing ('/' :: (word ++ '/' :: rest)) = trailing ('/' :: rest) := by
        unfold trailing
        rw [← List.cons_append, List.getLast?_append_of_ne_nil _ (List.cons_ne_nil _ _)]
      rw [pathSegments_append, htrailing]
      by_cases hne : word = []
      · subst hne
        rw [List.nil_append, pathSegments_nil, List.nil_append, ← ih]
        rfl
      · rw [squeezeSlashes_slash_word hword hne, ih, pathSegments_word hword hne]
        simp [rendered]
    · by_cases hne : text = []
      · subst hne
        rfl
      · have hlast : ('/' :: text).getLast? ≠ some '/' := by
          intro hlast
          rw [List.getLast?_cons_of_ne_nil hne] at hlast
          exact hmem (List.mem_of_getLast? hlast)
        have hsqueezed := squeezeSlashes_slash_word hmem hne []
        rw [List.append_nil] at hsqueezed
        rw [hsqueezed, pathSegments_word hmem hne, trailing, if_neg hlast]
        simp [rendered, squeezeSlashes]

/-! ## Normalized and joined paths -/

theorem rendered_getLast? (h : PlainSegments segments) :
    (rendered segments).getLast? ≠ some '/' := by
  induction segments with
  | nil => exact nofun
  | cons g segments ih =>
    obtain ⟨⟨hne, hslash⟩, hrest⟩ := List.forall_mem_cons.mp h
    have hrendered : rendered (g :: segments) = ('/' :: g) ++ rendered segments := rfl
    cases segments with
    | nil =>
      rw [hrendered, show rendered [] = [] from rfl, List.append_nil,
        List.getLast?_cons_of_ne_nil hne]
      exact fun hlast => hslash (List.mem_of_getLast? hlast)
    | cons g' segments =>
      have hne' : rendered (g' :: segments) ≠ [] := List.cons_ne_nil _ _
      rw [hrendered, List.getLast?_append_of_ne_nil _ hne']
      exact ih hrest

theorem rendered_eq_nil_iff : rendered segments = [] ↔ segments = [] := by
  cases segments with
  | nil => exact iff_of_true rfl rfl
  | cons g segments => exact iff_of_false (List.cons_ne_nil _ _) (List.cons_ne_nil _ _)

theorem normalizePath_eq (path : String) :
    normalizePath path = renderPath (pathSegments path.toList) := by
  have hplain := plain_pathSegments path.toList
  have hnormalized : (if (squeezeSlashes ('/' :: path.toList)).getLast? = some '/'
      then (squeezeSlashes ('/' :: path.toList)).dropLast
      else squeezeSlashes ('/' :: path.toList)) = rendered (pathSegments path.toList) := by
    rw [squeezeSlashes_slash, trailing]
    by_cases hlast : ('/' :: path.toList).getLast? = some '/'
    · rw [if_pos hlast, List.getLast?_concat, if_pos rfl, List.dropLast_concat]
    · rw [if_neg hlast, List.append_nil, if_neg (rendered_getLast? hplain)]
  unfold normalizePath renderPath
  dsimp only
  rw [hnormalized]
  by_cases hnil : pathSegments path.toList = []
  · rw [if_pos (rendered_eq_nil_iff.mpr hnil), if_pos hnil]
  · rw [if_neg (fun h => hnil (rendered_eq_nil_iff.mp h)), if_neg hnil]

theorem pathSegments_normalizePath (path : String) :
    pathSegments (normalizePath path).toList = pathSegments path.toList := by
  rw [normalizePath_eq, pathSegments_renderPath (plain_pathSegments _)]

theorem joinPaths_eq (basePath path : String) :
    joinPaths basePath path =
      renderPath (pathSegments basePath.toList ++ pathSegments path.toList) := by
  have htext : (normalizePath basePath ++ "/" ++ normalizePath path).toList =
      (normalizePath basePath).toList ++ '/' :: (normalizePath path).toList := by
    simp
  unfold joinPaths
  rw [normalizePath_eq, htext, pathSegments_append, pathSegments_normalizePath,
    pathSegments_normalizePath]

theorem pathSegments_joinPaths (basePath path : String) :
    pathSegments (joinPaths basePath path).toList =
      pathSegments basePath.toList ++ pathSegments path.toList := by
  rw [joinPaths_eq]
  apply pathSegments_renderPath
  intro g hg
  rcases List.mem_append.mp hg with hg | hg <;> exact plain_pathSegments _ g hg

theorem normalizePath_normalizePath (path : String) :
    normalizePath (normalizePath path) = normalizePath path := by
  rw [normalizePath_eq, pathSegments_normalizePath, ← normalizePath_eq]

theorem joinPaths_assoc (first second third : String) :
    joinPaths (joinPaths first second) third = joinPaths first (joinPaths second third) := by
  rw [joinPaths_eq, joinPaths_eq first (joinPaths second third), pathSegments_joinPaths,
    pathSegments_joinPaths, List.append_assoc]

/-! ## Any number of paths -/

def joinAll (paths : List String) : String := normalizePath ("/".intercalate paths)

theorem joinAll_eq (paths : List String) :
    joinAll paths = renderPath (paths.flatMap fun path => pathSegments path.toList) := by
  unfold joinAll
  rw [normalizePath_eq, String.toList_intercalate]
  congr 1
  induction paths with
  | nil => rfl
  | cons path paths ih =>
    cases paths with
    | nil => simp
    | cons path' paths =>
      rw [List.map_cons, List.map_cons, List.flatMap_cons, ← ih,
        List.intercalate_cons_cons]
      show pathSegments (path.toList ++ ['/'] ++ _) = _
      rw [List.append_assoc, List.singleton_append, pathSegments_append]
      rfl

theorem joinPaths_joinAll (paths : List String) (path : String) :
    joinPaths (joinAll paths) path = joinAll (paths ++ [path]) := by
  have hplain : PlainSegments (paths.flatMap fun path => pathSegments path.toList) := by
    intro g hg
    obtain ⟨path, -, hg⟩ := List.mem_flatMap.mp hg
    exact plain_pathSegments _ g hg
  rw [joinPaths_eq, joinAll_eq, joinAll_eq, pathSegments_renderPath hplain, List.flatMap_append]
  simp

end TransformHub.ApiRouter
