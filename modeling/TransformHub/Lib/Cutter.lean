import Mathlib.Data.Nat.Notation

/-!
# Buffers that are read part by part

A reader keeps a buffer, appends to it what arrives, and takes parts off its front as long as there
is a whole one. A `Cutter` says what a part is.
-/

namespace TransformHub

universe u v w

/-- A way to take the first part off a buffer: the part is not empty, separators included, and
nothing that comes later changes it. -/
structure Cutter (α : Type u) where
  next : List α → Option (List α × List α)
  shorter {a part rest : List α} : next a = some (part, rest) → rest.length < a.length
  stable {a part rest : List α} (b : List α) :
    next a = some (part, rest) → next (a ++ b) = some (part, rest ++ b)

namespace Cutter

variable {α : Type u} {β : Type v} {ε : Type w} (c : Cutter α)

/-- The parts of a buffer, and what is left of it. -/
def cut (a : List α) : List (List α) × List α :=
  match _h : c.next a with
  | none => ([], a)
  | some (part, rest) => (part :: (cut rest).1, (cut rest).2)
termination_by a.length
decreasing_by all_goals exact c.shorter _h

/-- Parts that are handled one after the other, up to the first that fails. -/
def handle {π : Type u} (f : π → Except ε (List β)) : List π → List β × Option ε
  | [] => ([], none)
  | part :: parts =>
    match f part with
    | .error e => ([], some e)
    | .ok items => (items ++ (handle f parts).1, (handle f parts).2)

/-- What was read: the items, the error that ended it, and the buffer that is left. -/
structure Drained (α : Type u) (β : Type v) (ε : Type w) where
  items : List β
  raised : Option ε
  buffer : List α

/-- The loop over a buffer: every pass takes a part off it. -/
def drain (f : List α → Except ε (List β)) : ℕ → List α → Drained α β ε
  | 0, buffer => ⟨[], none, buffer⟩
  | n + 1, buffer =>
    match c.next buffer with
    | none => ⟨[], none, buffer⟩
    | some (part, buffer) =>
      match f part with
      | .error e => ⟨[], some e, buffer⟩
      | .ok items =>
        let rest := drain f n buffer
        { rest with items := items ++ rest.items }

variable {c}

theorem cut_of_none {a : List α} (h : c.next a = none) : c.cut a = ([], a) := by
  rw [cut]
  split
  · rfl
  · rename_i hsome
    rw [h] at hsome
    cases hsome

theorem cut_of_some {a part rest : List α} (h : c.next a = some (part, rest)) :
    c.cut a = (part :: (c.cut rest).1, (c.cut rest).2) := by
  rw [cut]
  split
  · rename_i hnone
    rw [h] at hnone
    cases hnone
  · rename_i hsome
    rw [h] at hsome
    cases hsome
    rfl

theorem cut_induction {P : List α → Prop} (hnone : ∀ a, c.next a = none → P a)
    (hsome : ∀ a part rest, c.next a = some (part, rest) → P rest → P a) (a : List α) : P a := by
  induction hn : a.length using Nat.strongRecOn generalizing a with
  | ind n ih =>
    cases h : c.next a with
    | none => exact hnone a h
    | some r =>
      subst hn
      exact hsome a r.1 r.2 h (ih _ (c.shorter h) r.2 rfl)

theorem next_rest (a : List α) : c.next (c.cut a).2 = none := by
  induction a using cut_induction (c := c) with
  | hnone a h => rwa [cut_of_none h]
  | hsome a part rest h ih => rwa [cut_of_some h]

theorem cut_append (a b : List α) :
    c.cut (a ++ b) = ((c.cut a).1 ++ (c.cut ((c.cut a).2 ++ b)).1,
      (c.cut ((c.cut a).2 ++ b)).2) := by
  induction a using cut_induction (c := c) with
  | hnone a h => rw [cut_of_none h]; rfl
  | hsome a part rest h ih => rw [cut_of_some h, cut_of_some (c.stable b h), ih]; rfl

section Handle

variable {π : Type u} {f : π → Except ε (List β)}

theorem handle_append (parts more : List π) :
    handle f (parts ++ more) =
      match (handle f parts).2 with
      | some e => ((handle f parts).1, some e)
      | none => ((handle f parts).1 ++ (handle f more).1, (handle f more).2) := by
  induction parts with
  | nil => rfl
  | cons part parts ih =>
    rw [List.cons_append, handle, handle, ih]
    cases f part with
    | error e => rfl
    | ok items =>
      simp only
      cases (handle f parts).2 with
      | some e => rfl
      | none => rw [List.append_assoc]

theorem handle_raised_eq_none {parts : List π} :
    (handle f parts).2 = none ↔ ∀ part ∈ parts, ∃ items, f part = .ok items := by
  induction parts with
  | nil => simp [handle]
  | cons part parts ih =>
    rw [handle, List.forall_mem_cons]
    cases f part with
    | error e => simp
    | ok items => simp [ih]

theorem handle_eq_flatMap {g : π → List β} {parts : List π}
    (h : ∀ part ∈ parts, f part = .ok (g part)) : handle f parts = (parts.flatMap g, none) := by
  induction parts with
  | nil => rfl
  | cons part parts ih =>
    rw [List.forall_mem_cons] at h
    rw [handle, h.1, ih h.2, List.flatMap_cons]

end Handle

theorem drain_eq {f : List α → Except ε (List β)} {n : ℕ} {buffer : List α}
    (hn : buffer.length < n) :
    ((c.drain f n buffer).items, (c.drain f n buffer).raised) = handle f (c.cut buffer).1 ∧
      ((c.drain f n buffer).raised = none → (c.drain f n buffer).buffer = (c.cut buffer).2) := by
  induction n generalizing buffer with
  | zero => exact absurd hn (Nat.not_lt_zero _)
  | succ n ih =>
    rw [drain]
    cases h : c.next buffer with
    | none => rw [cut_of_none h]; exact ⟨rfl, fun _ => rfl⟩
    | some r =>
      obtain ⟨part, rest⟩ := r
      have hrest := ih (Nat.lt_of_lt_of_le (c.shorter h) (Nat.le_of_lt_succ hn))
      rw [cut_of_some h, handle]
      simp only
      cases f part with
      | error e => exact ⟨rfl, nofun⟩
      | ok items =>
        refine ⟨?_, hrest.2⟩
        rw [← hrest.1]

end Cutter

end TransformHub
