import TransformHub.Js.Text

/-!
# Replacement in texts

`replace` with a text as the pattern: the first place where the pattern occurs is replaced. The
replacement may refer to the match and to what is around it with `$`.
-/

namespace TransformHub.Js

/-- What stands before and after the first occurrence of the pattern. -/
def breakAt (p : List Char) : List Char → Option (List Char × List Char)
  | [] => if p = [] then some ([], []) else none
  | c :: cs =>
    if p.isPrefixOf (c :: cs) then some ([], (c :: cs).drop p.length)
    else (breakAt p cs).map fun e => (c :: e.1, e.2)

/-- The replacement with its references resolved; there are no groups to refer to. -/
def substitute (p before after : List Char) : List Char → List Char
  | '$' :: '$' :: cs => '$' :: substitute p before after cs
  | '$' :: '&' :: cs => p ++ substitute p before after cs
  | '$' :: '`' :: cs => before ++ substitute p before after cs
  | '$' :: '\'' :: cs => after ++ substitute p before after cs
  | c :: cs => c :: substitute p before after cs
  | [] => []

def replace (s p r : List Char) : List Char :=
  match breakAt p s with
  | none => s
  | some (before, after) => before ++ substitute p before after r ++ after

variable {s p r b a t g : List Char}

theorem breakAt_nil (p : List Char) : breakAt p [] = if p = [] then some ([], []) else none := rfl

theorem breakAt_cons (p : List Char) (c : Char) (cs : List Char) :
    breakAt p (c :: cs) =
      if p.isPrefixOf (c :: cs) then some ([], (c :: cs).drop p.length)
      else (breakAt p cs).map fun e => (c :: e.1, e.2) := rfl

theorem substitute_plain (h : '$' ∉ r) : substitute p b a r = r := by
  induction r with
  | nil => rfl
  | cons c r ih =>
    have hc : c ≠ '$' := fun heq => h (heq ▸ List.mem_cons_self)
    rw [substitute]
    · rw [ih fun hmem => h (List.mem_cons_of_mem _ hmem)]
    all_goals
      intro _ heq
      exact absurd heq hc

theorem breakAt_eq_some (h : breakAt p s = some (b, a)) : s = b ++ p ++ a := by
  induction s generalizing b with
  | nil =>
    rw [breakAt_nil] at h
    split_ifs at h with hp
    cases h
    simp [hp]
  | cons c s ih =>
    rw [breakAt_cons] at h
    split_ifs at h with hp
    · cases h
      exact (List.prefix_iff_eq_append.mp (List.isPrefixOf_iff_prefix.mp hp)).symm
    · obtain ⟨⟨b', a'⟩, hbreak, heq⟩ := Option.map_eq_some_iff.mp h
      cases heq
      rw [ih hbreak]
      rfl

theorem breakAt_eq_none_iff : breakAt p s = none ↔ ¬ p <:+: s := by
  induction s with
  | nil => simp [breakAt_nil]
  | cons c s ih =>
    rw [breakAt_cons, List.infix_cons_iff, not_or, ← List.isPrefixOf_iff_prefix]
    split_ifs with hp
    · simp [hp]
    · rw [Option.map_eq_none_iff, ih]
      exact (and_iff_right hp).symm

theorem replace_of_not_infix (h : ¬ p <:+: s) : replace s p r = s := by
  rw [replace, breakAt_eq_none_iff.mpr h]

theorem replace_eq_self_iff (hplain : '$' ∉ r) (hne : r ≠ p) : replace s p r = s ↔ ¬ p <:+: s := by
  refine ⟨fun h hinfix => ?_, replace_of_not_infix⟩
  unfold replace at h
  split at h
  · exact absurd hinfix (breakAt_eq_none_iff.mp ‹_›)
  · rename_i before after hbreak
    rw [substitute_plain hplain] at h
    have heq := h.trans (breakAt_eq_some hbreak)
    exact hne (List.append_cancel_left (List.append_cancel_right heq))

theorem replace_self (hplain : '$' ∉ r) (hne : p ≠ []) : replace p p r = r := by
  have hbreak : breakAt p p = some ([], []) := by
    obtain ⟨c, cs, rfl⟩ := List.exists_cons_of_ne_nil hne
    rw [breakAt_cons, if_pos (List.isPrefixOf_iff_prefix.mpr List.prefix_rfl), List.drop_length]
  rw [replace, hbreak]
  simp [substitute_plain hplain]

variable {x : Char}

theorem notMem_replace (hplain : '$' ∉ r) (hs : x ∉ s) (hr : x ∉ r) : x ∉ replace s p r := by
  unfold replace
  split
  · exact hs
  · rename_i before after hbreak
    rw [breakAt_eq_some hbreak] at hs
    rw [substitute_plain hplain]
    simp only [List.mem_append, not_or] at hs ⊢
    exact ⟨⟨hs.1.1, hr⟩, hs.2⟩

/-! ## Segments -/

theorem breakAt_append (h : breakAt p s = some (b, a)) (t : List Char) :
    breakAt p (s ++ t) = some (b, a ++ t) := by
  induction s generalizing b with
  | nil =>
    rw [breakAt_nil] at h
    split_ifs at h with hp
    cases h
    subst hp
    cases t <;> simp [breakAt_nil, breakAt_cons]
  | cons c s ih =>
    rw [List.cons_append, breakAt_cons]
    rw [breakAt_cons] at h
    by_cases hp : p.isPrefixOf (c :: s)
    · rw [if_pos hp] at h
      cases h
      have hprefix := List.isPrefixOf_iff_prefix.mp hp
      have happend : p <+: c :: (s ++ t) := hprefix.trans (List.prefix_append (c :: s) t)
      rw [if_pos (List.isPrefixOf_iff_prefix.mpr happend), ← List.cons_append,
        List.drop_append_of_le_length hprefix.length_le]
    · rw [if_neg hp] at h
      obtain ⟨⟨b', a'⟩, hbreak, heq⟩ := Option.map_eq_some_iff.mp h
      cases heq
      have hlength : p.length ≤ (c :: s).length := by
        rw [breakAt_eq_some hbreak]
        simp only [List.length_cons, List.length_append]
        omega
      -- the pattern is short enough to have been seen in the first part
      have hnot : ¬ p.isPrefixOf (c :: (s ++ t)) := by
        rw [List.isPrefixOf_iff_prefix] at hp ⊢
        intro h
        exact hp (List.prefix_of_prefix_length_le h (List.prefix_append (c :: s) t) hlength)
      rw [if_neg hnot, ih hbreak]
      rfl

theorem breakAt_part (hx : x ∉ p) (hnot : ¬ p <:+: g) (t : List Char) :
    breakAt p (g ++ x :: t) = (breakAt p t).map fun e => (g ++ x :: e.1, e.2) := by
  have hstop : ∀ cs : List Char, ¬ p <:+: cs → ¬ p.isPrefixOf (cs ++ x :: t) := by
    intro cs hcs hp
    have hprefix := List.isPrefixOf_iff_prefix.mp hp
    rcases List.prefix_or_prefix_of_prefix hprefix (List.prefix_append cs (x :: t)) with h | ⟨u, hu⟩
    · exact hcs h.isInfix
    · cases u with
      | nil =>
        rw [List.append_nil] at hu
        exact hcs (hu ▸ List.infix_rfl)
      | cons d u =>
        rw [← hu, List.prefix_append_right_inj] at hprefix
        obtain ⟨rest, hrest⟩ := hprefix
        obtain rfl : d = x := (List.cons.inj hrest).1
        exact hx (hu ▸ List.mem_append_right _ List.mem_cons_self)
  induction g with
  | nil =>
    have hne := hstop [] hnot
    rw [List.nil_append] at hne ⊢
    rw [breakAt_cons, if_neg hne]
    rfl
  | cons c g ih =>
    rw [List.cons_append, breakAt_cons, ← List.cons_append, if_neg (hstop (c :: g) hnot),
      ih fun h => hnot (h.trans (List.suffix_cons c g).isInfix), Option.map_map]
    rfl

/-- The first part in which the pattern occurs is replaced. -/
def replaceIn (p r : List Char) : List (List Char) → List (List Char)
  | [] => []
  | g :: gs => if (breakAt p g).isSome then replace g p r :: gs else g :: replaceIn p r gs

variable {gs : List (List Char)}

theorem intercalate_cons (g : List Char) (h : gs ≠ []) :
    [x].intercalate (g :: gs) = g ++ x :: [x].intercalate gs := by
  obtain ⟨g', gs, rfl⟩ := List.exists_cons_of_ne_nil h
  simp [List.intercalate]

theorem replaceIn_ne_nil (h : gs ≠ []) : replaceIn p r gs ≠ [] := by
  obtain ⟨g, gs, rfl⟩ := List.exists_cons_of_ne_nil h
  unfold replaceIn
  split_ifs <;> exact List.cons_ne_nil _ _

theorem notMem_replaceIn (hplain : '$' ∉ r) (hgs : ∀ g ∈ gs, x ∉ g) (hr : x ∉ r) :
    ∀ g ∈ replaceIn p r gs, x ∉ g := by
  induction gs with
  | nil => exact hgs
  | cons g gs ih =>
    obtain ⟨hg, hrest⟩ := List.forall_mem_cons.mp hgs
    unfold replaceIn
    split_ifs
    · exact List.forall_mem_cons.mpr ⟨notMem_replace hplain hg hr, hrest⟩
    · exact List.forall_mem_cons.mpr ⟨hg, ih hrest⟩

theorem replaceIn_skip (h : ∀ g ∈ gs, ¬ p <:+: g) (rest : List (List Char)) :
    replaceIn p r (gs ++ rest) = gs ++ replaceIn p r rest := by
  induction gs with
  | nil => rfl
  | cons g gs ih =>
    obtain ⟨hg, hrest⟩ := List.forall_mem_cons.mp h
    rw [List.cons_append, replaceIn, breakAt_eq_none_iff.mpr hg, ih hrest]
    rfl

theorem replaceIn_self (hplain : '$' ∉ r) (hne : p ≠ []) (gs : List (List Char)) :
    replaceIn p r (p :: gs) = r :: gs := by
  have hsome : (breakAt p p).isSome = true :=
    Option.isSome_iff_ne_none.mpr fun hnone => breakAt_eq_none_iff.mp hnone List.infix_rfl
  rw [replaceIn, if_pos hsome, replace_self hplain hne]

theorem replaceIn_early (h : ∃ g ∈ gs, p <:+: g) (rest : List (List Char)) :
    ∃ gs', gs'.length = gs.length ∧ replaceIn p r (gs ++ rest) = gs' ++ rest := by
  induction gs with
  | nil =>
    obtain ⟨g, hg, -⟩ := h
    cases hg
  | cons g gs ih =>
    rw [List.cons_append, replaceIn]
    by_cases hg : p <:+: g
    · have hsome : (breakAt p g).isSome = true :=
        Option.isSome_iff_ne_none.mpr fun hnone => breakAt_eq_none_iff.mp hnone hg
      rw [if_pos hsome]
      exact ⟨replace g p r :: gs, rfl, rfl⟩
    · rw [breakAt_eq_none_iff.mpr hg]
      obtain ⟨g', hmem, hinfix⟩ := h
      have hlater : ∃ g ∈ gs, p <:+: g := by
        rcases List.mem_cons.mp hmem with rfl | hmem
        · exact absurd hinfix hg
        · exact ⟨g', hmem, hinfix⟩
      obtain ⟨gs', hlength, heq⟩ := ih hlater
      refine ⟨g :: gs', congrArg Nat.succ hlength, ?_⟩
      rw [heq]
      rfl

theorem replace_intercalate (hx : x ∉ p) (hplain : '$' ∉ r) (h : gs ≠ []) :
    replace ([x].intercalate gs) p r = [x].intercalate (replaceIn p r gs) := by
  induction gs with
  | nil => exact absurd rfl h
  | cons g gs ih =>
    by_cases hgs : gs = []
    · subst hgs
      unfold replaceIn
      split_ifs with hsome
      · simp [List.intercalate]
      · have hnone := Option.not_isSome_iff_eq_none.mp hsome
        simp [replace, List.intercalate, replaceIn, hnone]
    · rw [intercalate_cons g hgs]
      unfold replaceIn
      cases hbreak : breakAt p g with
      | some e =>
        rw [if_pos Option.isSome_some, intercalate_cons _ hgs, replace, breakAt_append hbreak,
          replace, hbreak]
        dsimp only
        rw [substitute_plain hplain, substitute_plain hplain]
        simp
      | none =>
        have hrest := ih hgs
        rw [if_neg (by simp), intercalate_cons _ (replaceIn_ne_nil hgs), ← hrest, replace,
          breakAt_part hx (breakAt_eq_none_iff.mp hbreak), replace]
        cases breakAt p ([x].intercalate gs) with
        | none => rfl
        | some e =>
          dsimp only [Option.map_some]
          rw [substitute_plain hplain, substitute_plain hplain]
          simp

theorem notMem_of_mem_splitOn (h : g ∈ s.splitOn x) : x ∉ g := by
  induction s generalizing g with
  | nil =>
    rw [List.splitOn_nil, List.mem_singleton] at h
    rw [h]
    exact List.not_mem_nil
  | cons c s ih =>
    rw [List.splitOn_cons_eq_if_modifyHead] at h
    split_ifs at h with hc
    · rcases List.mem_cons.mp h with rfl | h
      · exact List.not_mem_nil
      · exact ih h
    · cases hparts : s.splitOn x with
      | nil => exact absurd hparts (List.splitOn_ne_nil x s)
      | cons head parts =>
        rw [hparts, List.modifyHead_cons] at h
        have hc' : x ≠ c := by
          rintro rfl
          exact hc (beq_self_eq_true x)
        rcases List.mem_cons.mp h with rfl | h
        · rw [List.mem_cons, not_or]
          exact ⟨hc', ih (hparts ▸ List.mem_cons_self)⟩
        · exact ih (hparts ▸ List.mem_cons_of_mem _ h)

theorem intercalate_inj {gs gs' : List (List Char)} (h : gs ≠ []) (h' : gs' ≠ [])
    (hx : ∀ g ∈ gs, x ∉ g) (hx' : ∀ g ∈ gs', x ∉ g) :
    [x].intercalate gs = [x].intercalate gs' ↔ gs = gs' := by
  refine ⟨fun heq => ?_, fun heq => heq ▸ rfl⟩
  rw [← List.splitOn_intercalate x hx h, heq, List.splitOn_intercalate x hx' h']

theorem infix_intercalate (h : g ∈ gs) : g <:+: [x].intercalate gs := by
  induction gs with
  | nil => cases h
  | cons head gs ih =>
    by_cases hgs : gs = []
    · subst hgs
      rw [List.mem_singleton.mp h]
      simp [List.intercalate]
    · rw [intercalate_cons head hgs]
      rcases List.mem_cons.mp h with rfl | h
      · exact (List.prefix_append g _).isInfix
      · exact ((ih h).trans (List.suffix_cons x _).isInfix).trans (List.suffix_append _ _).isInfix

theorem infix_of_mem_splitOn (h : g ∈ s.splitOn x) : g <:+: s := by
  have hinfix : g <:+: [x].intercalate (s.splitOn x) := infix_intercalate h
  rwa [List.intercalate_splitOn] at hinfix

theorem mem_of_mem_intercalate {x c : Char} (h : c ∈ [x].intercalate gs) (hne : c ≠ x) :
    ∃ g ∈ gs, c ∈ g := by
  induction gs with
  | nil => simp [List.intercalate] at h
  | cons head gs ih =>
    by_cases hgs : gs = []
    · subst hgs
      exact ⟨head, List.mem_cons_self, by simpa [List.intercalate] using h⟩
    · rw [intercalate_cons head hgs] at h
      rcases List.mem_append.mp h with h | h
      · exact ⟨head, List.mem_cons_self, h⟩
      · obtain ⟨g, hg, hc⟩ := ih ((List.mem_cons.mp h).resolve_left hne)
        exact ⟨g, List.mem_cons_of_mem _ hg, hc⟩

end TransformHub.Js
