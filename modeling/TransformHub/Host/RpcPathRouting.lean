import Mathlib.Data.List.Induction
import TransformHub.Host.RpcPath

/-!
# Requests to exposed paths

A request goes where it should (`RoutesRight`) exactly when no path that is longer than the right one
is `Missed` or `Mistaken` and what follows the right one can be cut off (`Regular`).
-/

namespace TransformHub.Host.Instances

variable {path exposePath target rest : RpcText}

/-! ## Segments -/

/-- The path, ended by a slash. -/
def closedPath (path : RpcText) : RpcText :=
  if path.getLast? = some '/' then path else path ++ ['/']

theorem rest_eq_nil_iff (text : RpcText) :
    (Lines.lines '/' text).2 = [] ↔ ('/' :: text).getLast? = some '/' := by
  have htext : (Lines.lines '/' text).1.flatMap (· ++ ['/']) ++ (Lines.lines '/' text).2 = text :=
    Lines.flatMap_lines text
  constructor
  · intro hrest
    rw [hrest, List.append_nil] at htext
    cases hlines : (Lines.lines '/' text).1 using List.reverseRecOn with
    | nil =>
      rw [hlines] at htext
      rw [← htext]
      rfl
    | append_singleton ls l =>
      rw [hlines] at htext
      have hends : '/' :: text = ('/' :: ls.flatMap (· ++ ['/']) ++ l) ++ ['/'] := by
        rw [← htext]
        simp
      rw [hends]
      exact List.getLast?_concat
  · intro hlast
    by_contra hrest
    have hmem : '/' ∈ (Lines.lines '/' text).2 := by
      rw [← htext, ← List.cons_append, List.getLast?_append_of_ne_nil _ hrest] at hlast
      exact List.mem_of_getLast? hlast
    exact Lines.rest_notMem text hmem

theorem segments_cons (text : RpcText) :
    segments ('/' :: text) = (Lines.lines '/' (closedPath ('/' :: text)).tail).1 ∧
      (Lines.lines '/' (closedPath ('/' :: text)).tail).2 = [] := by
  have hlast := rest_eq_nil_iff text
  unfold closedPath segments
  dsimp only [List.tail_cons]
  by_cases hrest : (Lines.lines '/' text).2 = []
  · rw [if_pos hrest, if_pos (hlast.mp hrest)]
    exact ⟨rfl, hrest⟩
  · rw [if_neg hrest, if_neg (hlast.not.mp hrest)]
    show _ = (Lines.lines '/' (text ++ ['/'])).1 ∧ (Lines.lines '/' (text ++ ['/'])).2 = []
    rw [Lines.lines_append, Lines.lines_singleton_of_notMem (Lines.rest_notMem text)]
    exact ⟨rfl, rfl⟩

theorem exists_of_head_slash (h : path.head? = some '/') : ∃ text, path = '/' :: text := by
  cases path with
  | nil => cases h
  | cons c text => exact ⟨text, by rw [Option.some.inj h]⟩

theorem head_closedPath (h : path.head? = some '/') : (closedPath path).head? = some '/' := by
  obtain ⟨text, rfl⟩ := exists_of_head_slash h
  unfold closedPath
  split <;> rfl

theorem isPrefix_closedPath (path : RpcText) : path <+: closedPath path := by
  unfold closedPath
  split
  · exact List.prefix_rfl
  · exact List.prefix_append _ _

theorem segments_isPrefix_iff (hexpose : exposePath.head? = some '/')
    (hpath : path.head? = some '/') :
    segments exposePath <+: segments path ↔ closedPath exposePath <+: closedPath path := by
  obtain ⟨x, rfl⟩ := exists_of_head_slash hexpose
  obtain ⟨y, rfl⟩ := exists_of_head_slash hpath
  rw [(segments_cons x).1, (segments_cons y).1, Lines.lines_isPrefix_iff (segments_cons x).2]
  obtain ⟨x', hx⟩ := exists_of_head_slash (head_closedPath hexpose)
  obtain ⟨y', hy⟩ := exists_of_head_slash (head_closedPath hpath)
  rw [hx, hy, List.tail_cons, List.tail_cons, List.cons_prefix_cons]
  exact (and_iff_right rfl).symm

theorem segments_append (hexpose : exposePath.head? = some '/') (text : RpcText) :
    segments (exposePath ++ '/' :: text) =
      segments exposePath ++ (if exposePath.getLast? = some '/' then [[]] else []) ++
        segments ('/' :: text) := by
  obtain ⟨x, rfl⟩ := exists_of_head_slash hexpose
  have hsplit : Lines.lines '/' (x ++ '/' :: text) =
      ((Lines.lines '/' (x ++ ['/'])).1 ++ (Lines.lines '/' text).1, (Lines.lines '/' text).2) := by
    have hclosed : (Lines.lines '/' (x ++ ['/'])).2 = [] :=
      (rest_eq_nil_iff _).mpr (List.getLast?_concat (l := '/' :: x))
    rw [show x ++ '/' :: text = (x ++ ['/']) ++ text by simp, Lines.lines_append, hclosed]
    rfl
  have hexposed : (Lines.lines '/' (x ++ ['/'])).1 =
      segments ('/' :: x) ++ (if ('/' :: x).getLast? = some '/' then [[]] else []) := by
    have hlast := rest_eq_nil_iff x
    rw [Lines.lines_append, Lines.lines_singleton_of_notMem (Lines.rest_notMem x)]
    unfold segments
    dsimp only [List.tail_cons]
    by_cases hrest : (Lines.lines '/' x).2 = []
    · rw [if_pos hrest, if_pos (hlast.mp hrest), hrest]
    · rw [if_neg hrest, if_neg (hlast.not.mp hrest), List.append_nil]
  rw [← hexposed]
  unfold segments
  dsimp only [List.cons_append, List.tail_cons]
  rw [hsplit]
  dsimp only
  split
  · rfl
  · exact List.append_assoc ..

/-! ## Targets -/

theorem head_normalizedRpcPath (rpcPath : RpcText) :
    (normalizedRpcPath rpcPath).head? = some '/' := by
  unfold normalizedRpcPath
  split
  · assumption
  · rfl

theorem normalizedRpcPath_of_head (h : target.head? = some '/') :
    normalizedRpcPath target = target := if_pos h

theorem pathOf_append_suffixOf (target : RpcText) : pathOf target ++ suffixOf target = target :=
  List.takeWhile_append_dropWhile

theorem isPath_pathOf (h : target.head? = some '/') : IsPath (pathOf target) := by
  obtain ⟨text, rfl⟩ := exists_of_head_slash h
  refine ⟨rfl, fun c hc => ?_⟩
  simpa using List.mem_takeWhile_imp hc

theorem pathOf_append (hpath : IsPath path) (text : RpcText) :
    pathOf (path ++ text) = path ++ pathOf text :=
  List.takeWhile_append_of_pos fun c hc => by rw [hpath.2 c hc]; rfl

theorem suffixOf_append (hpath : IsPath path) (text : RpcText) :
    suffixOf (path ++ text) = suffixOf text :=
  List.dropWhile_append_of_pos fun c hc => by rw [hpath.2 c hc]; rfl

/-- The path of the target is the exposed one, or goes on from it with a slash. -/
def Continues (exposePath target : RpcText) : Prop :=
  pathOf target = exposePath ∨ exposePath ++ ['/'] <+: pathOf target

theorem continues_append_iff (hexpose : IsPath exposePath) (text : RpcText) :
    Continues exposePath (exposePath ++ text) ↔ isBoundary text.head? = true := by
  unfold Continues
  rw [pathOf_append hexpose, List.append_right_eq_self, List.prefix_append_right_inj]
  cases text with
  | nil => simp [pathOf, isBoundary]
  | cons c text =>
    by_cases hslash : c = '/'
    · subst hslash
      simp [pathOf, isBoundary, isDelimiter]
    · cases hdelimiter : isDelimiter c with
      | true =>
        have hboundary : isBoundary (some c) = true := by
          unfold isDelimiter at hdelimiter
          unfold isBoundary
          simpa [or_assoc] using Or.inr hdelimiter
        simp [pathOf, hdelimiter, hboundary]
      | false =>
        have hboundary : isBoundary (some c) = false := by
          unfold isDelimiter at hdelimiter
          unfold isBoundary
          simpa [hslash] using hdelimiter
        simp [pathOf, hdelimiter, hboundary, Ne.symm hslash]

theorem matches_iff (h : target.head? = some '/') :
    matchesRpcExposePath target (some exposePath) = true ↔
      exposePath = ['/'] ∨ exposePath ≠ [] ∧
        ∃ text, target = exposePath ++ text ∧ isBoundary text.head? = true := by
  cases exposePath with
  | nil => simp [matchesRpcExposePath]
  | cons c cs =>
    unfold matchesRpcExposePath
    dsimp only
    rw [normalizedRpcPath_of_head h]
    by_cases hroot : c :: cs = ['/']
    · rw [if_pos hroot]
      simp [hroot, h]
    · rw [if_neg hroot]
      constructor
      · intro hmatches
        split at hmatches
        · rename_i hprefix
          obtain ⟨text, rfl⟩ := List.isPrefixOf_iff_prefix.mp hprefix
          refine .inr ⟨List.cons_ne_nil _ _, text, rfl, ?_⟩
          rwa [List.getElem?_append_right (Nat.le_refl _), Nat.sub_self,
            ← List.head?_eq_getElem?] at hmatches
        · cases hmatches
      · rintro (hroot' | ⟨-, text, rfl, hboundary⟩)
        · exact absurd hroot' hroot
        · rw [if_pos (List.isPrefixOf_iff_prefix.mpr (List.prefix_append _ _)),
            List.getElem?_append_right (Nat.le_refl _), Nat.sub_self, ← List.head?_eq_getElem?]
          exact hboundary

theorem matches_of_isPath (hexpose : IsPath exposePath) (h : target.head? = some '/') :
    matchesRpcExposePath target (some exposePath) = true ↔
      exposePath = ['/'] ∨ Continues exposePath target := by
  rw [matches_iff h]
  apply or_congr_right
  constructor
  · rintro ⟨-, text, rfl, hboundary⟩
    exact (continues_append_iff hexpose text).mpr hboundary
  · intro hcontinues
    have hne : exposePath ≠ [] := by
      rintro rfl
      cases hexpose.1
    refine ⟨hne, ?_⟩
    have hprefix : exposePath <+: target := by
      rcases hcontinues with heq | hslash
      · rw [← heq]
        exact List.takeWhile_prefix _
      · exact (List.prefix_append _ _).trans (hslash.trans (List.takeWhile_prefix _))
    obtain ⟨text, rfl⟩ := hprefix
    exact ⟨text, rfl, (continues_append_iff hexpose text).mp hcontinues⟩

/-! ## Which exposed paths are right -/

theorem segmentPrefix_iff (h : target.head? = some '/') : SegmentPrefix exposePath target ↔
    IsPath exposePath ∧ closedPath exposePath <+: closedPath (pathOf target) := by
  apply and_congr_right
  intro hexpose
  exact segments_isPrefix_iff hexpose.1 (isPath_pathOf h).1

theorem Continues.segmentPrefix (hexpose : IsPath exposePath) (h : target.head? = some '/')
    (hcontinues : Continues exposePath target) : SegmentPrefix exposePath target := by
  rw [segmentPrefix_iff h]
  refine ⟨hexpose, ?_⟩
  rcases hcontinues with heq | hslash
  · exact ⟨[], by rw [List.append_nil, heq]⟩
  · have hclosed : closedPath exposePath <+: exposePath ++ ['/'] := by
      unfold closedPath
      split
      · exact List.prefix_append _ _
      · exact List.prefix_rfl
    exact hclosed.trans (hslash.trans (isPrefix_closedPath _))

theorem IsPath.of_all (h : path.head? = some '/')
    (hall : path.all (fun c => !isDelimiter c) = true) : IsPath path := by
  refine ⟨h, fun c hc => ?_⟩
  have hnot := List.all_eq_true.mp hall c hc
  simpa using hnot

theorem isPath_root : IsPath ['/'] := .of_all rfl rfl

theorem segmentPrefix_root (target : RpcText) : SegmentPrefix ['/'] target :=
  ⟨isPath_root, List.nil_prefix⟩

theorem SegmentPrefix.continues (h : SegmentPrefix exposePath target)
    (htarget : target.head? = some '/') (hlast : exposePath.getLast? ≠ some '/') :
    Continues exposePath target := by
  have hclosed := ((segmentPrefix_iff htarget).mp h).2
  rw [show closedPath exposePath = exposePath ++ ['/'] from if_neg hlast] at hclosed
  unfold closedPath at hclosed
  split at hclosed
  · exact .inr hclosed
  · rcases List.prefix_concat_iff.mp hclosed with heq | hslash
    · exact .inl (List.append_cancel_right heq).symm
    · exact .inr hslash

/-- The exposed path matches, and should. -/
def Served (exposePath target : RpcText) : Prop :=
  IsPath exposePath ∧ (exposePath = ['/'] ∨ Continues exposePath target)

/-- The exposed path ends with a slash, and the path of the target begins with its segments, but does
not have that slash or has no further one after it. -/
def Missed (exposePath target : RpcText) : Prop :=
  IsPath exposePath ∧ exposePath.getLast? = some '/' ∧ exposePath ≠ ['/'] ∧
    ¬ Continues exposePath target ∧ exposePath <+: closedPath (pathOf target)

/-- What is exposed has a query or a fragment, and the target begins with it. -/
def Mistaken (exposePath target : RpcText) : Prop :=
  ¬ IsPath exposePath ∧ exposePath ≠ [] ∧
    ∃ text, target = exposePath ++ text ∧ isBoundary text.head? = true

theorem served_iff (h : target.head? = some '/') : Served exposePath target ↔
    SegmentPrefix exposePath target ∧ matchesRpcExposePath target (some exposePath) = true := by
  constructor
  · rintro ⟨hexpose, hserved⟩
    refine ⟨?_, (matches_of_isPath hexpose h).mpr hserved⟩
    rcases hserved with rfl | hcontinues
    · exact segmentPrefix_root target
    · exact hcontinues.segmentPrefix hexpose h
  · rintro ⟨hsegments, hmatches⟩
    exact ⟨hsegments.1, (matches_of_isPath hsegments.1 h).mp hmatches⟩

theorem missed_iff (h : target.head? = some '/') : Missed exposePath target ↔
    SegmentPrefix exposePath target ∧ ¬ matchesRpcExposePath target (some exposePath) = true := by
  constructor
  · rintro ⟨hexpose, hlast, hroot, hcontinues, hclosed⟩
    rw [matches_of_isPath hexpose h, segmentPrefix_iff h,
      show closedPath exposePath = exposePath from if_pos hlast]
    exact ⟨⟨hexpose, hclosed⟩, not_or.mpr ⟨hroot, hcontinues⟩⟩
  · rintro ⟨hsegments, hmatches⟩
    rw [matches_of_isPath hsegments.1 h, not_or] at hmatches
    have hlast : exposePath.getLast? = some '/' := by
      by_contra hlast
      exact hmatches.2 (hsegments.continues h hlast)
    have hclosed := ((segmentPrefix_iff h).mp hsegments).2
    rw [show closedPath exposePath = exposePath from if_pos hlast] at hclosed
    exact ⟨hsegments.1, hlast, hmatches.1, hmatches.2, hclosed⟩

theorem mistaken_iff (h : target.head? = some '/') : Mistaken exposePath target ↔
    ¬ SegmentPrefix exposePath target ∧
      matchesRpcExposePath target (some exposePath) = true := by
  constructor
  · rintro ⟨hexpose, hmatches⟩
    exact ⟨fun hsegments => hexpose hsegments.1, (matches_iff h).mpr (.inr hmatches)⟩
  · rintro ⟨hsegments, hmatches⟩
    have hexpose : ¬ IsPath exposePath := by
      intro hexpose
      exact hsegments ((served_iff h).mp ⟨hexpose, (matches_of_isPath hexpose h).mp hmatches⟩).1
    rcases (matches_iff h).mp hmatches with rfl | hmatches
    · exact absurd isPath_root hexpose
    · exact ⟨hexpose, hmatches⟩

/-! ## The choice -/

theorem SegmentPrefix.eq_of_length {exposePath' : RpcText} (h : SegmentPrefix exposePath target)
    (h' : SegmentPrefix exposePath' target) (htarget : target.head? = some '/')
    (hlength : exposePath.length = exposePath'.length) : exposePath = exposePath' := by
  have hclosed : exposePath <+: closedPath (pathOf target) :=
    (isPrefix_closedPath _).trans ((segmentPrefix_iff htarget).mp h).2
  have hclosed' : exposePath' <+: closedPath (pathOf target) :=
    (isPrefix_closedPath _).trans ((segmentPrefix_iff htarget).mp h').2
  exact (List.prefix_of_prefix_length_le hclosed hclosed' (Nat.le_of_eq hlength)).eq_of_length hlength

theorem isPrefix_of_matches (htarget : target.head? = some '/')
    (h : matchesRpcExposePath target (some exposePath) = true) : exposePath <+: target := by
  rcases (matches_iff htarget).mp h with rfl | ⟨-, text, rfl, -⟩
  · obtain ⟨text, rfl⟩ := exists_of_head_slash htarget
    exact ⟨text, rfl⟩
  · exact List.prefix_append _ _

theorem eq_of_matches {exposePath' : RpcText} (htarget : target.head? = some '/')
    (h : matchesRpcExposePath target (some exposePath) = true)
    (h' : matchesRpcExposePath target (some exposePath') = true)
    (hlength : exposePath.length = exposePath'.length) : exposePath = exposePath' :=
  (List.prefix_of_prefix_length_le (isPrefix_of_matches htarget h) (isPrefix_of_matches htarget h')
    (Nat.le_of_eq hlength)).eq_of_length hlength

theorem matches_normalizedRpcPath (rpcPath : RpcText) (exposePath : Option RpcText) :
    matchesRpcExposePath (normalizedRpcPath rpcPath) exposePath =
      matchesRpcExposePath rpcPath exposePath := by
  unfold matchesRpcExposePath
  rw [normalizedRpcPath_of_head (head_normalizedRpcPath rpcPath)]

theorem head?_mergeSort_spec {α : Type} (key : α → ℕ) {l : List α} {a : α}
    (h : (l.mergeSort fun x y => decide (key y ≤ key x)).head? = some a) :
    a ∈ l ∧ ∀ b ∈ l, key b ≤ key a := by
  have hsorted : (l.mergeSort fun x y => decide (key y ≤ key x)).Pairwise
      fun x y => decide (key y ≤ key x) = true := by
    apply List.pairwise_mergeSort
    · intro x y z hxy hyz
      simp only [decide_eq_true_eq] at hxy hyz ⊢
      exact Nat.le_trans hyz hxy
    · intro x y
      simpa using Nat.le_total (key y) (key x)
  have hmem : ∀ b, b ∈ l.mergeSort (fun x y => decide (key y ≤ key x)) ↔ b ∈ l :=
    fun b => List.mem_mergeSort
  cases hcons : l.mergeSort (fun x y => decide (key y ≤ key x)) with
  | nil =>
    rw [hcons] at h
    cases h
  | cons first others =>
    rw [hcons] at h hsorted hmem
    cases h
    refine ⟨(hmem a).mp List.mem_cons_self, fun b hb => ?_⟩
    rcases List.mem_cons.mp ((hmem b).mpr hb) with rfl | hb
    · exact Nat.le_refl _
    · exact of_decide_eq_true ((List.pairwise_cons.mp hsorted).1 b hb)

theorem entryByExposePath_eq_none_iff (s : InstancesRegistry) (rpcPath : RpcText) :
    s.entryByExposePath rpcPath = none ↔ ∀ e ∈ s.exposePathMap.entries,
      ¬ matchesRpcExposePath rpcPath (some e.1.toList) = true := by
  unfold InstancesRegistry.entryByExposePath
  rw [List.head?_eq_none_iff, ← List.length_eq_zero_iff, List.length_mergeSort,
    List.length_eq_zero_iff, List.filter_eq_nil_iff]

theorem entryByExposePath_eq_some_iff (s : InstancesRegistry) (rpcPath : RpcText)
    (e : String × List String) : s.entryByExposePath rpcPath = some e ↔
      e ∈ s.exposePathMap.entries ∧ matchesRpcExposePath rpcPath (some e.1.toList) = true ∧
        ∀ e' ∈ s.exposePathMap.entries, matchesRpcExposePath rpcPath (some e'.1.toList) = true →
          e'.1.toList.length ≤ e.1.toList.length := by
  have hchosen : ∀ e, s.entryByExposePath rpcPath = some e → e ∈ s.exposePathMap.entries ∧
      matchesRpcExposePath rpcPath (some e.1.toList) = true ∧
        ∀ e' ∈ s.exposePathMap.entries, matchesRpcExposePath rpcPath (some e'.1.toList) = true →
          e'.1.toList.length ≤ e.1.toList.length := by
    intro e he
    unfold InstancesRegistry.entryByExposePath at he
    obtain ⟨hmem, hfirst⟩ := head?_mergeSort_spec
      (fun e : String × List String => e.1.toList.length) he
    obtain ⟨hentry, hmatches⟩ := List.mem_filter.mp hmem
    exact ⟨hentry, hmatches, fun e' he' hmatches' =>
      hfirst e' (List.mem_filter.mpr ⟨he', hmatches'⟩)⟩
  refine ⟨hchosen e, ?_⟩
  rintro ⟨hentry, hmatches, hlongest⟩
  cases hfound : s.entryByExposePath rpcPath with
  | none => exact absurd hmatches ((entryByExposePath_eq_none_iff s rpcPath).mp hfound e hentry)
  | some e' =>
    obtain ⟨hentry', hmatches', hlongest'⟩ := hchosen e' hfound
    have hlength := Nat.le_antisymm (hlongest' e hentry hmatches) (hlongest e' hentry' hmatches')
    rw [← matches_normalizedRpcPath] at hmatches hmatches'
    have hpath := eq_of_matches (head_normalizedRpcPath rpcPath) hmatches hmatches' hlength
    have hset : e.2 = e'.2 := by
      have hget := OrderedMap.mem_entries_iff.mp hentry
      rw [String.toList_inj.mp hpath, OrderedMap.mem_entries_iff.mp hentry'] at hget
      exact (Option.some.inj hget).symm
    rw [Prod.ext (String.toList_inj.mp hpath) hset]

/-! ## What is left of the target -/

/-- What the exposed path can be cut off: no fragment follows it, and it has no slash at its end
that the target goes on after. -/
def Cuts (exposePath target : RpcText) : Prop :=
  exposePath = ['/'] ∨
    if pathOf target = exposePath then (suffixOf target).head? ≠ some '#'
    else exposePath.getLast? ≠ some '/'

theorem stripRpcExposePath_root (h : target.head? = some '/') :
    stripRpcExposePath target (some ['/']) = target := by
  have hne : target ≠ [] := by
    rintro rfl
    cases h
  unfold stripRpcExposePath
  dsimp only
  rw [if_pos rfl, normalizedRpcPath_of_head h]
  exact if_neg hne

section

variable (hexpose : IsPath exposePath) (hroot : exposePath ≠ ['/'])
include hexpose hroot

theorem stripRpcExposePath_append {text : RpcText} (hboundary : isBoundary text.head? = true) :
    stripRpcExposePath (exposePath ++ text) (some exposePath) =
      if (orRoot text).head? = some '?' then '/' :: orRoot text else orRoot text := by
  have hhead : (exposePath ++ text).head? = some '/' := by
    obtain ⟨x, rfl⟩ := exists_of_head_slash hexpose.1
    rfl
  have hmatches : matchesRpcExposePath (exposePath ++ text) (some exposePath) = true :=
    (matches_of_isPath hexpose hhead).mpr (.inr ((continues_append_iff hexpose text).mpr hboundary))
  unfold stripRpcExposePath
  dsimp only
  rw [normalizedRpcPath_of_head hhead, if_neg (fun h => hroot (Option.some.inj h)), hmatches,
    if_pos rfl, Option.getD_some, List.drop_left]

theorem denotes_suffix_iff {text : RpcText} (htext : pathOf text = []) :
    Denotes (stripRpcExposePath (exposePath ++ text) (some exposePath)) exposePath
      (exposePath ++ text) ↔ text.head? ≠ some '#' := by
  have hpath : pathOf (exposePath ++ text) = exposePath := by
    rw [pathOf_append hexpose, htext, List.append_nil]
  have hboundary : isBoundary text.head? = true :=
    (continues_append_iff hexpose text).mp (.inl hpath)
  have hquery : queryOf (exposePath ++ text) = queryOf text := by
    unfold queryOf
    rw [suffixOf_append hexpose]
  have hsegments : segments exposePath ++ segments ['/'] = segments exposePath :=
    List.append_nil _
  rw [stripRpcExposePath_append hexpose hroot hboundary]
  constructor
  · rintro ⟨hslash, -, -⟩ hfragment
    cases text with
    | nil => cases hfragment
    | cons c text =>
      cases Option.some.inj hfragment
      exact absurd hslash (by simp [orRoot])
  · intro hfragment
    cases text with
    | nil =>
      refine ⟨rfl, ?_, hquery.symm⟩
      rw [hpath]
      exact hsegments
    | cons c text =>
      have hc : c = '?' := by
        have hdelimiter : isDelimiter c = true := by
          by_contra hnot
          rw [Bool.not_eq_true] at hnot
          simp [pathOf, hnot] at htext
        have hne : c ≠ '#' := fun h => hfragment (congrArg some h)
        simpa [isDelimiter, hne] using hdelimiter
      subst hc
      refine ⟨rfl, ?_, ?_⟩
      · rw [hpath]
        exact hsegments
      · rw [hquery]
        rfl

theorem denotes_slash_iff (text : RpcText) :
    Denotes (stripRpcExposePath (exposePath ++ '/' :: text) (some exposePath)) exposePath
      (exposePath ++ '/' :: text) ↔ exposePath.getLast? ≠ some '/' := by
  rw [stripRpcExposePath_append hexpose hroot rfl]
  have hstripped : (if (orRoot ('/' :: text)).head? = some '?' then '/' :: orRoot ('/' :: text)
      else orRoot ('/' :: text)) = '/' :: text := rfl
  have hpath : pathOf ('/' :: text) = '/' :: pathOf text := rfl
  have hsegments : segments (pathOf (exposePath ++ '/' :: text)) = segments exposePath ++
      (if exposePath.getLast? = some '/' then [[]] else []) ++ segments ('/' :: pathOf text) := by
    rw [pathOf_append hexpose, hpath, segments_append hexpose.1]
  rw [hstripped]
  constructor
  · intro hdenotes hlast
    have heq := hdenotes.path
    rw [hsegments, if_pos hlast, hpath] at heq
    have hlength := congrArg List.length heq
    simp only [List.length_append, List.length_cons, List.length_nil] at hlength
    omega
  · intro hlast
    refine ⟨rfl, ?_, ?_⟩
    · rw [hsegments, if_neg hlast, hpath, List.append_nil]
    · unfold queryOf
      rw [suffixOf_append hexpose]

end

theorem denotes_strip_iff (h : target.head? = some '/') (hserved : Served exposePath target) :
    Denotes (stripRpcExposePath target (some exposePath)) exposePath target ↔
      Cuts exposePath target := by
  obtain ⟨hexpose, hserved⟩ := hserved
  unfold Cuts
  by_cases hroot : exposePath = ['/']
  · subst hroot
    rw [stripRpcExposePath_root h]
    exact iff_of_true ⟨h, rfl, rfl⟩ (.inl rfl)
  · rw [or_iff_right hroot]
    have hcontinues := hserved.resolve_left hroot
    by_cases hpath : pathOf target = exposePath
    · rw [if_pos hpath]
      have htarget : target = exposePath ++ suffixOf target := by
        rw [← hpath]
        exact (pathOf_append_suffixOf target).symm
      have hsuffix : pathOf (suffixOf target) = [] := by
        have hagain := congrArg pathOf htarget
        rw [pathOf_append hexpose, hpath] at hagain
        exact List.append_right_eq_self.mp hagain.symm
      have hiff := denotes_suffix_iff hexpose hroot hsuffix
      rwa [← htarget] at hiff
    · rw [if_neg hpath]
      obtain ⟨more, hmore⟩ := hcontinues.resolve_left hpath
      have htarget : target = exposePath ++ '/' :: (more ++ suffixOf target) := by
        conv_lhs => rw [← pathOf_append_suffixOf target, ← hmore]
        simp
      have hiff := denotes_slash_iff hexpose hroot (more ++ suffixOf target)
      rwa [← htarget] at hiff

/-! ## The routing law -/

section Law

variable (s : InstancesRegistry) (rpcPath : RpcText)

/-- The entry is the longest one whose segments begin the path of the request. -/
def Longest (e : String × List String) : Prop :=
  SegmentPrefix e.1.toList (normalizedRpcPath rpcPath) ∧
    ∀ e' ∈ s.exposePathMap.entries, SegmentPrefix e'.1.toList (normalizedRpcPath rpcPath) →
      e'.1.toList.length ≤ e.1.toList.length

/-- The request goes to the instances of the longest exposed path whose segments begin its own path,
and what is left of it when that is stripped denotes it there. -/
structure RoutesRight : Prop where
  found : ∀ e ∈ s.exposePathMap.entries, Longest s rpcPath e →
    s.entryByExposePath rpcPath = some e ∧ s.getByExposePath rpcPath = e.2.filterMap s.get?
  none : (∀ e ∈ s.exposePathMap.entries,
    ¬ SegmentPrefix e.1.toList (normalizedRpcPath rpcPath)) →
    s.entryByExposePath rpcPath = none ∧ s.getByExposePath rpcPath = []
  target : ∀ e ∈ s.exposePathMap.entries, Longest s rpcPath e →
    Denotes (stripRpcExposePath (normalizedRpcPath rpcPath) (some e.1.toList)) e.1.toList
      (normalizedRpcPath rpcPath)

/-- Every missed or mistaken path is shorter than one that is served, and the longest of these can
be cut off. -/
structure Regular : Prop where
  served : ∀ e ∈ s.exposePathMap.entries,
    Missed e.1.toList (normalizedRpcPath rpcPath) ∨
      Mistaken e.1.toList (normalizedRpcPath rpcPath) →
    ∃ e' ∈ s.exposePathMap.entries, Served e'.1.toList (normalizedRpcPath rpcPath) ∧
      e.1.toList.length < e'.1.toList.length
  cuts : ∀ e ∈ s.exposePathMap.entries, Served e.1.toList (normalizedRpcPath rpcPath) →
    (∀ e' ∈ s.exposePathMap.entries, Served e'.1.toList (normalizedRpcPath rpcPath) →
      e'.1.toList.length ≤ e.1.toList.length) →
    Cuts e.1.toList (normalizedRpcPath rpcPath)

end Law

variable {s : InstancesRegistry} {rpcPath : RpcText} {e e' : String × List String}

theorem exists_longest {P : RpcText → Prop} {es : List (String × List String)}
    (h : ∃ e ∈ es, P e.1.toList) : ∃ e ∈ es, P e.1.toList ∧
      ∀ e' ∈ es, P e'.1.toList → e'.1.toList.length ≤ e.1.toList.length := by
  induction es with
  | nil =>
    obtain ⟨e, he, -⟩ := h
    cases he
  | cons first es ih =>
    by_cases hrest : ∃ e ∈ es, P e.1.toList
    · obtain ⟨e, he, hP, hlongest⟩ := ih hrest
      by_cases hfirst : P first.1.toList ∧ e.1.toList.length ≤ first.1.toList.length
      · refine ⟨first, List.mem_cons_self, hfirst.1, fun e' he' hP' => ?_⟩
        rcases List.mem_cons.mp he' with rfl | he'
        · exact Nat.le_refl _
        · exact Nat.le_trans (hlongest e' he' hP') hfirst.2
      · refine ⟨e, List.mem_cons_of_mem _ he, hP, fun e' he' hP' => ?_⟩
        rcases List.mem_cons.mp he' with rfl | he'
        · exact Nat.le_of_not_le fun hle => hfirst ⟨hP', hle⟩
        · exact hlongest e' he' hP'
    · obtain ⟨e, he, hP⟩ := h
      rcases List.mem_cons.mp he with rfl | he
      · refine ⟨e, List.mem_cons_self, hP, fun e' he' hP' => ?_⟩
        rcases List.mem_cons.mp he' with rfl | he'
        · exact Nat.le_refl _
        · exact absurd ⟨e', he', hP'⟩ hrest
      · exact absurd ⟨e, he, hP⟩ hrest

theorem getByExposePath_of_entry (h : s.entryByExposePath rpcPath = some e) :
    s.getByExposePath rpcPath = e.2.filterMap s.get? := by
  unfold InstancesRegistry.getByExposePath
  rw [h]

theorem getByExposePath_of_none (h : s.entryByExposePath rpcPath = none) :
    s.getByExposePath rpcPath = [] := by
  unfold InstancesRegistry.getByExposePath
  rw [h]

theorem served_iff_matches : Served e.1.toList (normalizedRpcPath rpcPath) ↔
    SegmentPrefix e.1.toList (normalizedRpcPath rpcPath) ∧
      matchesRpcExposePath rpcPath (some e.1.toList) = true := by
  rw [served_iff (head_normalizedRpcPath rpcPath), matches_normalizedRpcPath]

theorem RoutesRight.served_of_longest (R : RoutesRight s rpcPath)
    (he : e ∈ s.exposePathMap.entries) (hlongest : Longest s rpcPath e) :
    Served e.1.toList (normalizedRpcPath rpcPath) ∧
      ∀ e' ∈ s.exposePathMap.entries, matchesRpcExposePath rpcPath (some e'.1.toList) = true →
        e'.1.toList.length ≤ e.1.toList.length := by
  obtain ⟨-, hmatches, hfirst⟩ :=
    (entryByExposePath_eq_some_iff s rpcPath e).mp (R.found e he hlongest).1
  exact ⟨served_iff_matches.mpr ⟨hlongest.1, hmatches⟩, hfirst⟩

theorem RoutesRight.regular (R : RoutesRight s rpcPath) : Regular s rpcPath := by
  have hhead := head_normalizedRpcPath rpcPath
  constructor
  · intro e he hwrong
    by_cases hany : ∃ e ∈ s.exposePathMap.entries,
        SegmentPrefix e.1.toList (normalizedRpcPath rpcPath)
    · obtain ⟨top, htop, hsegments, hlongest⟩ :=
        exists_longest (P := fun path => SegmentPrefix path (normalizedRpcPath rpcPath)) hany
      obtain ⟨hserved, hfirst⟩ := R.served_of_longest htop ⟨hsegments, hlongest⟩
      have hmatches := ((served_iff hhead).mp hserved).2
      refine ⟨top, htop, hserved, ?_⟩
      rcases hwrong with hmissed | hmistaken
      · obtain ⟨hsegments', hnot⟩ := (missed_iff hhead).mp hmissed
        apply Nat.lt_of_le_of_ne (hlongest e he hsegments')
        intro hlength
        rw [hsegments'.eq_of_length hsegments hhead hlength] at hnot
        exact hnot hmatches
      · obtain ⟨hnot, hmatches'⟩ := (mistaken_iff hhead).mp hmistaken
        apply Nat.lt_of_le_of_ne
        · exact hfirst e he (by rwa [← matches_normalizedRpcPath])
        · intro hlength
          rw [eq_of_matches hhead hmatches' hmatches hlength] at hnot
          exact hnot hsegments
    · -- nothing matches where there is nothing to be found
      have hnone := (entryByExposePath_eq_none_iff s rpcPath).mp
        (R.none fun e he hsegments => hany ⟨e, he, hsegments⟩).1 e he
      rcases hwrong with hmissed | hmistaken
      · exact absurd ⟨e, he, ((missed_iff hhead).mp hmissed).1⟩ hany
      · have hmatches := ((mistaken_iff hhead).mp hmistaken).2
        rw [matches_normalizedRpcPath] at hmatches
        exact absurd hmatches hnone
  · intro e he hserved hfirst
    obtain ⟨top, htop, hsegments, hlongest⟩ :=
      exists_longest (P := fun path => SegmentPrefix path (normalizedRpcPath rpcPath))
        ⟨e, he, (served_iff_matches.mp hserved).1⟩
    obtain ⟨hserved', -⟩ := R.served_of_longest htop ⟨hsegments, hlongest⟩
    have hlength := Nat.le_antisymm (hlongest e he (served_iff_matches.mp hserved).1)
      (hfirst top htop hserved')
    have hpath := (served_iff_matches.mp hserved).1.eq_of_length hsegments hhead hlength
    rw [hpath]
    exact (denotes_strip_iff hhead hserved').mp (R.target top htop ⟨hsegments, hlongest⟩)

theorem Regular.matches_of_longest (R : Regular s rpcPath) (he : e ∈ s.exposePathMap.entries)
    (hlongest : Longest s rpcPath e) :
    matchesRpcExposePath rpcPath (some e.1.toList) = true := by
  by_contra hnot
  rw [← matches_normalizedRpcPath] at hnot
  obtain ⟨e', he', hserved, hlt⟩ := R.served e he
    (.inl ((missed_iff (head_normalizedRpcPath rpcPath)).mpr ⟨hlongest.1, hnot⟩))
  exact absurd (hlongest.2 e' he' (served_iff_matches.mp hserved).1) (Nat.not_le.mpr hlt)

theorem Regular.routesRight (R : Regular s rpcPath) : RoutesRight s rpcPath := by
  have hhead := head_normalizedRpcPath rpcPath
  -- whatever matches is no longer than something that should be found
  have hright : ∀ e ∈ s.exposePathMap.entries,
      matchesRpcExposePath rpcPath (some e.1.toList) = true →
      ∃ e' ∈ s.exposePathMap.entries, SegmentPrefix e'.1.toList (normalizedRpcPath rpcPath) ∧
        e.1.toList.length ≤ e'.1.toList.length := by
    intro e he hmatches
    by_cases hsegments : SegmentPrefix e.1.toList (normalizedRpcPath rpcPath)
    · exact ⟨e, he, hsegments, Nat.le_refl _⟩
    · rw [← matches_normalizedRpcPath] at hmatches
      obtain ⟨e', he', hserved, hlt⟩ :=
        R.served e he (.inr ((mistaken_iff hhead).mpr ⟨hsegments, hmatches⟩))
      exact ⟨e', he', (served_iff_matches.mp hserved).1, Nat.le_of_lt hlt⟩
  refine ⟨fun e he hlongest => ?_, fun hnone => ?_, fun e he hlongest => ?_⟩
  · have hentry : s.entryByExposePath rpcPath = some e := by
      rw [entryByExposePath_eq_some_iff]
      refine ⟨he, R.matches_of_longest he hlongest, fun e' he' hmatches => ?_⟩
      obtain ⟨top, htop, hsegments, hle⟩ := hright e' he' hmatches
      exact Nat.le_trans hle (hlongest.2 top htop hsegments)
    exact ⟨hentry, getByExposePath_of_entry hentry⟩
  · have hentry : s.entryByExposePath rpcPath = none := by
      rw [entryByExposePath_eq_none_iff]
      intro e he hmatches
      obtain ⟨top, htop, hsegments, -⟩ := hright e he hmatches
      exact hnone top htop hsegments
    exact ⟨hentry, getByExposePath_of_none hentry⟩
  · have hserved : Served e.1.toList (normalizedRpcPath rpcPath) :=
      served_iff_matches.mpr ⟨hlongest.1, R.matches_of_longest he hlongest⟩
    rw [denotes_strip_iff hhead hserved]
    apply R.cuts e he hserved
    intro e' he' hserved'
    exact hlongest.2 e' he' (served_iff_matches.mp hserved').1

/-- The law holds of a request exactly if the exposed paths are regular for it. -/
theorem routesRight_iff_regular (s : InstancesRegistry) (rpcPath : RpcText) :
    RoutesRight s rpcPath ↔ Regular s rpcPath :=
  ⟨RoutesRight.regular, Regular.routesRight⟩

/-- A fragment follows the exposed path. -/
theorem fragment_not_routesRight :
    ¬ RoutesRight (InstancesRegistry.new.registerRpc "/users" "i") "/users#hash".toList := by
  intro R
  have hmem : ("/users", ["i"]) ∈
      (InstancesRegistry.new.registerRpc "/users" "i").exposePathMap.entries := by decide
  have hsegments : SegmentPrefix "/users".toList (normalizedRpcPath "/users#hash".toList) :=
    ⟨.of_all rfl (by decide), by decide⟩
  have hlongest : Longest (InstancesRegistry.new.registerRpc "/users" "i") "/users#hash".toList
      ("/users", ["i"]) := by
    refine ⟨hsegments, fun e he _ => ?_⟩
    have hentries : (InstancesRegistry.new.registerRpc "/users" "i").exposePathMap.entries =
        [("/users", ["i"])] := by decide
    rw [hentries, List.mem_singleton] at he
    rw [he]
  exact absurd (R.target _ hmem hlongest).slash (by decide)

end TransformHub.Host.Instances
