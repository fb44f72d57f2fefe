import TransformHub.Lib.OrderedMap

/-!
# Inverse indices

A partial function, and a map that has for some of its values the list of what it takes there.
-/

namespace TransformHub

open OrderedMap

variable {κ ι : Type*} [DecidableEq κ] [DecidableEq ι]

/-- Every list of the map holds, once each, what the function takes to the key. -/
def Indexes (m : OrderedMap κ (List ι)) (f : ι → Option κ) : Prop :=
  ∀ k is, m.get? k = some is → is.Nodup ∧ ∀ i, i ∈ is ↔ f i = some k

/-- The index has a list for the value at a point. -/
def listed (m : OrderedMap κ (List ι)) (f : ι → Option κ) (i : ι) : Bool := (f i).any m.has

variable {m : OrderedMap κ (List ι)} {f : ι → Option κ} {k : κ} {i : ι} {is : List ι}

omit [DecidableEq ι] in
theorem indexes_empty (f : ι → Option κ) : Indexes (.empty : OrderedMap κ (List ι)) f := by
  intro k is hk
  rw [get?_empty] at hk
  cases hk

omit [DecidableEq ι] in
theorem listed_iff : listed m f i = true ↔ ∃ k is, f i = some k ∧ m.get? k = some is := by
  unfold listed
  cases hf : f i with
  | none => simp
  | some k => simp [has_iff]

namespace Indexes

omit [DecidableEq ι] in
theorem reset_iff (h : Indexes m f) : Indexes (m.set k []) f ↔ ∀ i, f i ≠ some k := by
  constructor
  · intro hset i hi
    have hmem := ((hset k [] (get?_set_self m k [])).2 i).mpr hi
    cases hmem
  · intro hnone k' is' hk'
    rw [get?_set] at hk'
    split_ifs at hk' with hkk
    · cases hk'
      subst hkk
      exact ⟨List.nodup_nil, fun i => by simp [hnone i]⟩
    · exact h k' is' hk'

omit [DecidableEq ι] in
theorem delete (h : Indexes m f) (k : κ) : Indexes (m.delete k) f := by
  intro k' is' hk'
  rw [get?_delete] at hk'
  split_ifs at hk'
  exact h k' is' hk'

theorem forget_iff (h : Indexes m f) :
    Indexes m (Function.update f i none) ↔ listed m f i = false := by
  rw [← Bool.not_eq_true, listed_iff]
  constructor
  · rintro hnew ⟨k, is, hf, hk⟩
    have hmem := ((hnew k is hk).2 i).mp (((h k is hk).2 i).mpr hf)
    rw [Function.update_self] at hmem
    cases hmem
  · intro hnot k is hk
    refine ⟨(h k is hk).1, fun j => ?_⟩
    rw [(h k is hk).2 j]
    by_cases hj : j = i
    · subst hj
      rw [Function.update_self]
      exact ⟨fun hf => absurd ⟨k, is, hf, hk⟩ hnot, fun hf => nomatch hf⟩
    · rw [Function.update_of_ne hj]

theorem push (h : Indexes m f) (hk : m.get? k = some is) (hi : f i = none) :
    Indexes (m.set k (is ++ [i])) (Function.update f i (some k)) := by
  intro k' is' hk'
  rw [get?_set] at hk'
  split_ifs at hk' with hkk
  · subst hkk
    cases hk'
    have hnot : i ∉ is := fun hmem => by cases hi ▸ ((h k is hk).2 i).mp hmem
    refine ⟨List.nodup_append.mpr ⟨(h k is hk).1, List.nodup_singleton i, ?_⟩, fun j => ?_⟩
    · rintro j hj j' hj' rfl
      exact hnot (List.mem_singleton.mp hj' ▸ hj)
    · by_cases hj : j = i
      · subst hj
        simp
      · rw [List.mem_append, (h k is hk).2 j, Function.update_of_ne hj]
        simp [hj]
  · refine ⟨(h k' is' hk').1, fun j => ?_⟩
    rw [(h k' is' hk').2 j]
    by_cases hj : j = i
    · subst hj
      rw [hi, Function.update_self]
      simp [hkk]
    · rw [Function.update_of_ne hj]

theorem enter (h : Indexes m f) (hk : m.get? k = none) (hi : f i = none) :
    Indexes m (Function.update f i (some k)) := by
  intro k' is' hk'
  refine ⟨(h k' is' hk').1, fun j => ?_⟩
  rw [(h k' is' hk').2 j]
  by_cases hj : j = i
  · subst hj
    have hne : k ≠ k' := by
      rintro rfl
      rw [hk] at hk'
      cases hk'
    rw [hi, Function.update_self]
    simp [hne]
  · rw [Function.update_of_ne hj]

omit [DecidableEq ι] in
theorem not_push (h : Indexes m f) (hk : m.get? k = some is) :
    ¬ Indexes (m.set k (is ++ [i])) f := by
  intro hnew
  obtain ⟨hnodup, hmem⟩ := hnew k _ (get?_set_self m k _)
  have hf := (hmem i).mp (List.mem_append_right _ (List.mem_singleton_self i))
  have hi : i ∈ is := ((h k is hk).2 i).mpr hf
  exact (List.nodup_append.mp hnodup).2.2 i hi i (List.mem_singleton_self i) rfl

theorem filter (h : Indexes m f) (hk : m.get? k = some is) (hi : f i = none ∨ f i = some k) :
    Indexes (m.set k (is.filter (· ≠ i))) (Function.update f i none) := by
  intro k' is' hk'
  rw [get?_set] at hk'
  split_ifs at hk' with hkk
  · subst hkk
    cases hk'
    refine ⟨(h k is hk).1.filter _, fun j => ?_⟩
    rw [List.mem_filter, (h k is hk).2 j]
    by_cases hj : j = i
    · subst hj
      simp
    · simp [hj]
  · refine ⟨(h k' is' hk').1, fun j => ?_⟩
    rw [(h k' is' hk').2 j]
    by_cases hj : j = i
    · subst hj
      rw [Function.update_self]
      rcases hi with hi | hi <;> simp [hi, hkk]
    · rw [Function.update_of_ne hj]

end Indexes

end TransformHub
