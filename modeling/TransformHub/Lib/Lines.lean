import Mathlib.Data.List.Basic

/-!
# Splitting a stream into lines

A stream of symbols that comes in pieces is cut at a separator.
-/

namespace TransformHub

universe u

variable {α : Type u} [DecidableEq α]

namespace Lines

variable (sep : α)

/-- The complete lines of a list, and what is left after the last separator. -/
def lines : List α → List (List α) × List α
  | [] => ([], [])
  | c :: cs =>
    if c = sep then ([] :: (lines cs).1, (lines cs).2)
    else
      match lines cs with
      | ([], rest) => ([], c :: rest)
      | (l :: ls, rest) => ((c :: l) :: ls, rest)

/-- The first complete line, and what follows it. -/
def nextLine : List α → Option (List α × List α)
  | [] => none
  | c :: cs =>
    if c = sep then some ([], cs)
    else (nextLine cs).map fun r => (c :: r.1, r.2)

variable {sep}

theorem lines_cons (c : α) (cs : List α) :
    lines sep (c :: cs) =
      if c = sep then ([] :: (lines sep cs).1, (lines sep cs).2)
      else
        match lines sep cs with
        | ([], rest) => ([], c :: rest)
        | (l :: ls, rest) => ((c :: l) :: ls, rest) := rfl

theorem lines_of_notMem {text : List α} (h : sep ∉ text) : lines sep text = ([], text) := by
  induction text with
  | nil => rfl
  | cons c cs ih =>
    rw [List.mem_cons, not_or] at h
    rw [lines_cons, if_neg (Ne.symm h.1), ih h.2]

theorem lines_line {line rest : List α} (h : sep ∉ line) :
    lines sep (line ++ sep :: rest) = (line :: (lines sep rest).1, (lines sep rest).2) := by
  induction line with
  | nil => exact if_pos rfl
  | cons c cs ih =>
    rw [List.mem_cons, not_or] at h
    rw [List.cons_append, lines_cons, if_neg (Ne.symm h.1), ih h.2]

theorem nextLine_eq_none {text : List α} : nextLine sep text = none ↔ sep ∉ text := by
  induction text with
  | nil => simp [nextLine]
  | cons c cs ih =>
    rw [nextLine, List.mem_cons, not_or]
    split_ifs with hc
    · simp [hc]
    · rw [Option.map_eq_none_iff, ih]
      exact ⟨fun hcs => ⟨Ne.symm hc, hcs⟩, And.right⟩

theorem nextLine_eq_some {text line rest : List α} (h : nextLine sep text = some (line, rest)) :
    text = line ++ sep :: rest ∧ sep ∉ line := by
  induction text generalizing line with
  | nil => cases h
  | cons c cs ih =>
    rw [nextLine] at h
    split_ifs at h with hc
    · cases h
      exact ⟨by rw [hc, List.nil_append], List.not_mem_nil⟩
    · obtain ⟨⟨l, r⟩, hr, heq⟩ := Option.map_eq_some_iff.mp h
      cases heq
      obtain ⟨hcs, hnot⟩ := ih hr
      refine ⟨by rw [hcs, List.cons_append], ?_⟩
      rw [List.mem_cons, not_or]
      exact ⟨Ne.symm hc, hnot⟩

theorem rest_notMem (text : List α) : sep ∉ (lines sep text).2 := by
  induction text with
  | nil => exact List.not_mem_nil
  | cons c cs ih =>
    rw [lines_cons]
    split_ifs with hc
    · exact ih
    · split
      next rest heq =>
        rw [heq] at ih
        rw [List.mem_cons, not_or]
        exact ⟨Ne.symm hc, ih⟩
      next l ls rest heq =>
        rw [heq] at ih
        exact ih

theorem lines_append (a b : List α) :
    lines sep (a ++ b) =
      ((lines sep a).1 ++ (lines sep ((lines sep a).2 ++ b)).1,
        (lines sep ((lines sep a).2 ++ b)).2) := by
  induction a with
  | nil => rfl
  | cons c cs ih =>
    by_cases hc : c = sep
    · simp only [List.cons_append, lines_cons, if_pos hc, ih]
    · rw [List.cons_append, lines_cons, if_neg hc, ih]
      cases hcs : lines sep cs with
      | mk ls rest =>
        cases ls with
        | nil => simp only [lines_cons, if_neg hc, hcs, List.nil_append, List.cons_append]
        | cons l ls => simp only [lines_cons, if_neg hc, hcs, List.cons_append]

theorem lines_isPrefix {a b : List α} (h : a <+: b) : (lines sep a).1 <+: (lines sep b).1 := by
  obtain ⟨c, rfl⟩ := h
  rw [lines_append]
  exact List.prefix_append _ _

theorem lines_singleton_of_notMem {text : List α} (h : sep ∉ text) :
    lines sep (text ++ [sep]) = ([text], []) := lines_line h

theorem mem_lines_append {a b line : List α}
    (h : line ∈ (lines sep ((lines sep a).2 ++ b)).1) : line ∈ (lines sep (a ++ b)).1 := by
  rw [lines_append]
  exact List.mem_append_right _ h

theorem flatMap_lines (text : List α) :
    (lines sep text).1.flatMap (· ++ [sep]) ++ (lines sep text).2 = text := by
  induction text with
  | nil => rfl
  | cons c cs ih =>
    rw [lines_cons]
    split_ifs with hc
    · rw [List.flatMap_cons, List.nil_append, List.append_assoc, ih, hc]
      rfl
    · split
      next rest heq =>
        rw [heq] at ih
        exact congrArg (c :: ·) ih
      next l ls rest heq =>
        rw [heq] at ih
        exact congrArg (c :: ·) ih

theorem lines_isPrefix_iff {a : List α} (ha : (lines sep a).2 = []) (b : List α) :
    (lines sep a).1 <+: (lines sep b).1 ↔ a <+: b := by
  constructor
  · rintro ⟨ls, hls⟩
    have htext : (lines sep b).1.flatMap (· ++ [sep]) ++ (lines sep b).2 = b := flatMap_lines b
    rw [← hls, List.flatMap_append, List.append_assoc] at htext
    have hclosed : (lines sep a).1.flatMap (· ++ [sep]) ++ (lines sep a).2 = a := flatMap_lines a
    rw [ha, List.append_nil] at hclosed
    rw [hclosed] at htext
    exact ⟨_, htext⟩
  · exact lines_isPrefix

variable (sep) in
/-- The piece begins a line of the text, or what is left of it. -/
def Begins (text piece : List α) : Prop :=
  (∃ line ∈ (lines sep text).1, piece <+: line) ∨ piece <+: (lines sep text).2

theorem Begins.of_isPrefix {text piece piece' : List α} (h : Begins sep text piece)
    (hpiece : piece' <+: piece) : Begins sep text piece' := by
  rcases h with ⟨line, hline, hprefix⟩ | hprefix
  · exact .inl ⟨line, hline, hpiece.trans hprefix⟩
  · exact .inr (hpiece.trans hprefix)

theorem begins_nil (text : List α) : Begins sep text [] := .inr List.nil_prefix

theorem begins_rest (text : List α) : Begins sep text (lines sep text).2 := .inr List.prefix_rfl

theorem begins_of_notMem {piece : List α} (h : sep ∉ piece) (text : List α) :
    Begins sep (piece ++ text) piece := by
  by_cases hmem : sep ∈ text
  · obtain ⟨before, after, rfl, hbefore⟩ := List.eq_append_cons_of_mem hmem
    have hline : sep ∉ piece ++ before := by
      rw [List.mem_append]
      exact not_or.mpr ⟨h, hbefore⟩
    apply Or.inl
    rw [← List.append_assoc, lines_line hline]
    exact ⟨piece ++ before, List.mem_cons_self, List.prefix_append _ _⟩
  · have hnot : sep ∉ piece ++ text := by
      rw [List.mem_append]
      exact not_or.mpr ⟨h, hmem⟩
    apply Or.inr
    rw [lines_of_notMem hnot]
    exact List.prefix_append _ _

theorem Begins.append {a piece : List α} (h : Begins sep a piece) (b : List α) :
    Begins sep (a ++ b) piece := by
  rcases h with ⟨line, hline, hprefix⟩ | hprefix
  · apply Or.inl
    rw [lines_append]
    exact ⟨line, List.mem_append_left _ hline, hprefix⟩
  · rcases begins_of_notMem (rest_notMem a) b with ⟨line, hline, hrest⟩ | hrest
    · exact .inl ⟨line, mem_lines_append hline, hprefix.trans hrest⟩
    · apply Or.inr
      rw [lines_append]
      exact hprefix.trans hrest

end Lines

end TransformHub
