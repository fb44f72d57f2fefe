import Mathlib.Logic.Function.Basic
import Mathlib.Data.Nat.Notation

/-!
# Waiters

Promises that several sources compete to settle.
-/

namespace TransformHub

structure Waiter (ε : Type) where
  /-- what it was made with -/
  timeoutMs : Option ℕ
  signal : Bool
  finished : Bool
  interval : Bool
  timeout : Bool
  listener : Bool
  /-- how the promise has been settled, each time that it has -/
  settlements : List (Except ε Unit)

/-- The waiters that have been made, by number, and the set of those with an entry. -/
structure Waiters (ε : Type) where
  waiter : ℕ → Waiter ε
  entries : List ℕ
  next : ℕ

namespace Waiters

variable {ε : Type}

def empty : Waiters ε := ⟨fun _ => ⟨none, false, false, false, false, false, []⟩, [], 0⟩

/-- A waiter settles its promise, once. -/
def finish (w : Waiters ε) (id : ℕ) (outcome : Except ε Unit) : Waiters ε :=
  let waiter := w.waiter id
  if waiter.finished then w
  else
    { w with
      waiter := Function.update w.waiter id
        { waiter with
          finished := true, interval := false, timeout := false, listener := false,
          settlements := waiter.settlements ++ [outcome] }
      entries := w.entries.filter (· ≠ id) }

def add (w : Waiters ε) (timeoutMs : Option ℕ) (signal : Bool) : Waiters ε where
  waiter := Function.update w.waiter w.next
    ⟨timeoutMs, signal, false, true, timeoutMs.isSome, signal, []⟩
  entries := w.entries ++ [w.next]
  next := w.next + 1

def settle (w : Waiters ε) (timeoutMs : Option ℕ) (signal : Bool) (outcome : Except ε Unit) :
    Waiters ε :=
  { w with
    waiter := Function.update w.waiter w.next
      ⟨timeoutMs, signal, true, false, false, false, [outcome]⟩
    next := w.next + 1 }

variable {w w' w'' : Waiters ε} {id j : ℕ} {outcome : Except ε Unit}

/-- Everything of the waiter is running. -/
structure Pending (w : Waiters ε) (id : ℕ) : Prop where
  finished : (w.waiter id).finished = false
  interval : (w.waiter id).interval = true
  timeout : (w.waiter id).timeout = (w.waiter id).timeoutMs.isSome
  listener : (w.waiter id).listener = (w.waiter id).signal
  settlements : (w.waiter id).settlements = []
  entry : id ∈ w.entries

/-- The promise has been settled once, and nothing is left of the waiter. -/
structure Settled (w : Waiters ε) (id : ℕ) (outcome : Except ε Unit) : Prop where
  finished : (w.waiter id).finished = true
  interval : (w.waiter id).interval = false
  timeout : (w.waiter id).timeout = false
  listener : (w.waiter id).listener = false
  settlements : (w.waiter id).settlements = [outcome]
  entry : id ∉ w.entries

structure Sound (w : Waiters ε) : Prop where
  waiters : ∀ id, id < w.next → w.Pending id ∨ ∃ outcome, w.Settled id outcome
  entries : ∀ id ∈ w.entries, id < w.next

/-- Some pending waiters may have been settled, and new ones made. -/
structure Goes (w w' : Waiters ε) : Prop where
  settled : ∀ id outcome, id < w.next → w.Settled id outcome → w'.Settled id outcome
  pending : ∀ id, id < w.next → w.Pending id → w'.Pending id ∨ ∃ outcome, w'.Settled id outcome
  fresh : ∀ id, w.next ≤ id → id < w'.next → w'.Pending id ∨ ∃ outcome, w'.Settled id outcome
  entries : ∀ id ∈ w'.entries, id ∈ w.entries ∨ w.next ≤ id ∧ id < w'.next
  next : w.next ≤ w'.next

theorem Pending.congr (h : w.Pending id) (hwaiter : w'.waiter id = w.waiter id)
    (hentry : id ∈ w'.entries ↔ id ∈ w.entries) : w'.Pending id := by
  obtain ⟨h₁, h₂, h₃, h₄, h₅, h₆⟩ := h
  exact ⟨by rwa [hwaiter], by rwa [hwaiter], by rwa [hwaiter], by rwa [hwaiter], by rwa [hwaiter],
    hentry.mpr h₆⟩

theorem Settled.congr (h : w.Settled id outcome) (hwaiter : w'.waiter id = w.waiter id)
    (hentry : id ∈ w'.entries ↔ id ∈ w.entries) : w'.Settled id outcome := by
  obtain ⟨h₁, h₂, h₃, h₄, h₅, h₆⟩ := h
  exact ⟨by rwa [hwaiter], by rwa [hwaiter], by rwa [hwaiter], by rwa [hwaiter], by rwa [hwaiter],
    fun h => h₆ (hentry.mp h)⟩

theorem Goes.refl (w : Waiters ε) : Goes w w :=
  ⟨fun _ _ _ h => h, fun _ _ h => .inl h, fun _ hle hlt => absurd hlt (Nat.not_lt.mpr hle),
    fun _ h => .inl h, Nat.le_refl _⟩

theorem Goes.trans (h : Goes w w') (h' : Goes w' w'') : Goes w w'' := by
  have hlater : ∀ id, id < w'.next → (w'.Pending id ∨ ∃ outcome, w'.Settled id outcome) →
      w''.Pending id ∨ ∃ outcome, w''.Settled id outcome := by
    rintro id hid (hp | ⟨outcome, hs⟩)
    · exact h'.pending id hid hp
    · exact .inr ⟨outcome, h'.settled id outcome hid hs⟩
  refine ⟨fun id outcome hid hs => ?_, fun id hid hp => ?_, fun id hle hlt => ?_, fun id hid => ?_,
    Nat.le_trans h.next h'.next⟩
  · exact h'.settled id outcome (Nat.lt_of_lt_of_le hid h.next) (h.settled id outcome hid hs)
  · exact hlater id (Nat.lt_of_lt_of_le hid h.next) (h.pending id hid hp)
  · by_cases hid : id < w'.next
    · exact hlater id hid (h.fresh id hle hid)
    · exact h'.fresh id (Nat.not_lt.mp hid) hlt
  · rcases h'.entries id hid with hid | ⟨hle, hlt⟩
    · rcases h.entries id hid with hid | ⟨hle, hlt⟩
      · exact .inl hid
      · exact .inr ⟨hle, Nat.lt_of_lt_of_le hlt h'.next⟩
    · exact .inr ⟨Nat.le_trans h.next hle, hlt⟩

theorem Sound.goes (S : w.Sound) (h : Goes w w') : w'.Sound := by
  refine ⟨fun id hid => ?_, fun id hid => ?_⟩
  · by_cases hold : id < w.next
    · rcases S.waiters id hold with hp | ⟨outcome, hs⟩
      · exact h.pending id hold hp
      · exact .inr ⟨outcome, h.settled id outcome hold hs⟩
    · exact h.fresh id (Nat.not_lt.mp hold) hid
  · rcases h.entries id hid with hid | ⟨-, hlt⟩
    · exact Nat.lt_of_lt_of_le (S.entries id hid) h.next
    · exact hlt

theorem sound_empty : (empty : Waiters ε).Sound :=
  ⟨fun _ hid => absurd hid (Nat.not_lt_zero _), nofun⟩

/-! ## `finish` -/

theorem finish_of_finished (h : (w.waiter id).finished = true) (outcome : Except ε Unit) :
    w.finish id outcome = w := by
  unfold finish
  simp [h]

theorem finish_of_not_finished (h : (w.waiter id).finished = false) (outcome : Except ε Unit) :
    w.finish id outcome =
      { w with
        waiter := Function.update w.waiter id
          { w.waiter id with
            finished := true, interval := false, timeout := false, listener := false,
            settlements := (w.waiter id).settlements ++ [outcome] }
        entries := w.entries.filter (· ≠ id) } := by
  unfold finish
  simp [h]

@[simp] theorem next_finish (w : Waiters ε) (id : ℕ) (outcome : Except ε Unit) :
    (w.finish id outcome).next = w.next := by
  unfold finish
  dsimp only
  split <;> rfl

theorem Pending.finish (h : w.Pending id) (outcome : Except ε Unit) :
    (w.finish id outcome).Settled id outcome := by
  rw [finish_of_not_finished h.finished]
  constructor <;> simp [h.settlements]

theorem finish_other (hj : j ≠ id) (outcome : Except ε Unit) :
    (w.finish id outcome).waiter j = w.waiter j ∧
      (j ∈ (w.finish id outcome).entries ↔ j ∈ w.entries) := by
  cases hfinished : (w.waiter id).finished with
  | true =>
    rw [finish_of_finished hfinished]
    exact ⟨rfl, Iff.rfl⟩
  | false =>
    rw [finish_of_not_finished hfinished]
    exact ⟨Function.update_of_ne hj .., by simp [hj]⟩

theorem goes_finish (w : Waiters ε) (id : ℕ) (outcome : Except ε Unit) :
    Goes w (w.finish id outcome) := by
  cases hfinished : (w.waiter id).finished with
  | true =>
    rw [finish_of_finished hfinished]
    exact .refl w
  | false =>
    refine ⟨fun j o _ hs => ?_, fun j _ hp => ?_, fun j hle hlt => ?_, fun j hj => ?_, ?_⟩
    · by_cases hj : j = id
      · subst hj
        rw [hs.finished] at hfinished
        cases hfinished
      · exact hs.congr (finish_other hj outcome).1 (finish_other hj outcome).2
    · by_cases hj : j = id
      · subst hj
        exact .inr ⟨outcome, hp.finish outcome⟩
      · exact .inl (hp.congr (finish_other hj outcome).1 (finish_other hj outcome).2)
    · rw [next_finish] at hlt
      exact absurd hlt (Nat.not_lt.mpr hle)
    · rw [finish_of_not_finished hfinished] at hj
      exact .inl (List.mem_filter.mp hj).1
    · exact Nat.le_of_eq (next_finish w id outcome).symm

/-! ## New waiters -/

theorem pending_add (w : Waiters ε) (timeoutMs : Option ℕ) (signal : Bool) :
    (w.add timeoutMs signal).Pending w.next := by
  constructor <;> simp [add]

theorem waiter_add_of_lt (hid : id < w.next) (timeoutMs : Option ℕ) (signal : Bool) :
    (w.add timeoutMs signal).waiter id = w.waiter id ∧
      (id ∈ (w.add timeoutMs signal).entries ↔ id ∈ w.entries) := by
  have hne : id ≠ w.next := Nat.ne_of_lt hid
  exact ⟨Function.update_of_ne hne .., by simp [add, hne]⟩

theorem goes_add (w : Waiters ε) (timeoutMs : Option ℕ) (signal : Bool) :
    Goes w (w.add timeoutMs signal) := by
  refine ⟨fun id o hid hs => ?_, fun id hid hp => .inl ?_, fun id hle hlt => .inl ?_,
    fun id hid => ?_, Nat.le_succ _⟩
  · exact hs.congr (waiter_add_of_lt hid ..).1 (waiter_add_of_lt hid ..).2
  · exact hp.congr (waiter_add_of_lt hid ..).1 (waiter_add_of_lt hid ..).2
  · obtain rfl : id = w.next := Nat.le_antisymm (Nat.lt_succ_iff.mp hlt) hle
    exact pending_add w timeoutMs signal
  · have hid : id ∈ w.entries ++ [w.next] := hid
    rcases List.mem_append.mp hid with hid | hid
    · exact .inl hid
    · rw [List.mem_singleton.mp hid]
      exact .inr ⟨Nat.le_refl _, Nat.lt_succ_self _⟩

theorem Sound.settled_settle (S : w.Sound) (timeoutMs : Option ℕ) (signal : Bool)
    (outcome : Except ε Unit) : (w.settle timeoutMs signal outcome).Settled w.next outcome := by
  have hentry : w.next ∉ w.entries := fun h => Nat.lt_irrefl _ (S.entries _ h)
  constructor <;> simp [settle, hentry]

theorem Sound.goes_settle (S : w.Sound) (timeoutMs : Option ℕ) (signal : Bool)
    (outcome : Except ε Unit) : Goes w (w.settle timeoutMs signal outcome) := by
  have hsame : ∀ id, id < w.next → (w.settle timeoutMs signal outcome).waiter id = w.waiter id :=
    fun id hid => Function.update_of_ne (Nat.ne_of_lt hid) ..
  refine ⟨fun id o hid hs => hs.congr (hsame id hid) Iff.rfl,
    fun id hid hp => .inl (hp.congr (hsame id hid) Iff.rfl), fun id hle hlt => .inr ?_,
    fun id hid => .inl hid, Nat.le_succ _⟩
  obtain rfl : id = w.next := Nat.le_antisymm (Nat.lt_succ_iff.mp hlt) hle
  exact ⟨outcome, S.settled_settle timeoutMs signal outcome⟩

end Waiters

end TransformHub
