import Mathlib.Data.List.Basic

/-!
# Writes of a cell

What a list of steps writes into one cell: each step writes a value or leaves the cell alone, and
what counts in the end is the last value written.
-/

namespace TransformHub

variable {α : Type*}

def lastWrite (ws : List (Option α)) : Option α := ws.foldl (fun last w => w.or last) none

theorem foldl_or (ws : List (Option α)) (last : Option α) :
    ws.foldl (fun last w => w.or last) last = (lastWrite ws).or last := by
  induction ws generalizing last with
  | nil => rfl
  | cons w ws ih =>
    rw [lastWrite, List.foldl_cons, List.foldl_cons, ih, ih, Option.or_none, Option.or_assoc]

@[simp] theorem lastWrite_nil : lastWrite ([] : List (Option α)) = none := rfl

theorem lastWrite_append (ws ws' : List (Option α)) :
    lastWrite (ws ++ ws') = (lastWrite ws').or (lastWrite ws) := by
  rw [lastWrite, List.foldl_append, foldl_or, ← lastWrite]

@[simp] theorem lastWrite_singleton (w : Option α) : lastWrite [w] = w := by
  rw [lastWrite, List.foldl_cons, List.foldl_nil, Option.or_none]

theorem lastWrite_cons (w : Option α) (ws : List (Option α)) :
    lastWrite (w :: ws) = (lastWrite ws).or w := by
  rw [← List.singleton_append, lastWrite_append, lastWrite_singleton]

theorem lastWrite_eq_none_iff {ws : List (Option α)} :
    lastWrite ws = none ↔ ∀ w ∈ ws, w = none := by
  induction ws with
  | nil => simp
  | cons w ws ih => rw [lastWrite_cons, Option.or_eq_none_iff, ih, List.forall_mem_cons, and_comm]

theorem lastWrite_eq_or {ws : List (Option α)} {w : Option α} (h : ∀ w' ∈ ws, w' = none ∨ w' = w) :
    lastWrite ws = none ∨ lastWrite ws = w := by
  induction ws with
  | nil => exact .inl rfl
  | cons w' ws ih =>
    rw [lastWrite_cons]
    obtain ⟨hw, hws⟩ := List.forall_mem_cons.mp h
    rcases ih hws with hnone | hsome
    · rwa [hnone, Option.none_or]
    · rw [hsome]
      rcases hw with rfl | rfl
      · rw [Option.or_none]
        exact .inr rfl
      · rw [Option.or_self]
        exact .inr rfl

theorem lastWrite_move {ws ws' : List (Option α)} {w : Option α}
    (h : w = none ∨ ∀ w' ∈ ws, w' = none ∨ w' = w) :
    lastWrite (ws ++ w :: ws') = (lastWrite (ws ++ ws')).or w := by
  rw [lastWrite_append, lastWrite_append, lastWrite_cons]
  rcases h with rfl | h
  · rw [Option.or_none, Option.or_none]
  · rcases lastWrite_eq_or h with hws | hws
    · rw [hws, Option.or_none, Option.or_none]
    · rw [hws]

end TransformHub
