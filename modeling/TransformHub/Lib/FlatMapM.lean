import Mathlib.Data.List.Basic

/-!
# A map of a list that may fail

`flatMapM` goes through a list with a function that may fail, up to the first failure, and appends
what it gets.
-/

namespace TransformHub

variable {ε α β : Type*}

/-- `flatMap` with a function that may fail. -/
def flatMapM (f : α → Except ε (List β)) : List α → Except ε (List β)
  | [] => .ok []
  | x :: xs =>
    match f x with
    | .error e => .error e
    | .ok ys =>
      match flatMapM f xs with
      | .error e => .error e
      | .ok zs => .ok (ys ++ zs)

variable {f g : α → Except ε (List β)} {x : α} {xs : List α} {ys zs : List β} {e : ε}

theorem flatMapM_cons :
    flatMapM f (x :: xs) =
      match f x with
      | .error e => .error e
      | .ok ys =>
        match flatMapM f xs with
        | .error e => .error e
        | .ok zs => .ok (ys ++ zs) := rfl

theorem flatMapM_cons_eq_ok :
    flatMapM f (x :: xs) = .ok ys ↔
      ∃ us vs, f x = .ok us ∧ flatMapM f xs = .ok vs ∧ ys = us ++ vs := by
  rw [flatMapM_cons]
  cases f x with
  | error e =>
    constructor
    · exact nofun
    · rintro ⟨us, vs, h, -⟩
      cases h
  | ok us =>
    cases flatMapM f xs with
    | error e =>
      constructor
      · exact nofun
      · rintro ⟨us, vs, -, h, -⟩
        cases h
    | ok vs =>
      constructor
      · intro h
        cases h
        exact ⟨us, vs, rfl, rfl, rfl⟩
      · rintro ⟨us', vs', hus, hvs, rfl⟩
        cases hus
        cases hvs
        rfl

theorem ok_of_flatMapM_ok (h : flatMapM f xs = .ok ys) (hx : x ∈ xs) :
    ∃ zs, f x = .ok zs ∧ ∀ z ∈ zs, z ∈ ys := by
  induction xs generalizing ys with
  | nil => cases hx
  | cons x' xs ih =>
    obtain ⟨us, vs, hus, hvs, rfl⟩ := flatMapM_cons_eq_ok.mp h
    rcases List.mem_cons.mp hx with rfl | hx
    · exact ⟨us, hus, fun z hz => List.mem_append_left _ hz⟩
    · obtain ⟨zs, hzs, hsub⟩ := ih hvs hx
      exact ⟨zs, hzs, fun z hz => List.mem_append_right _ (hsub z hz)⟩

theorem exists_of_mem_flatMapM {y : β} (h : flatMapM f xs = .ok ys) (hy : y ∈ ys) :
    ∃ x ∈ xs, ∃ zs, f x = .ok zs ∧ y ∈ zs := by
  induction xs generalizing ys with
  | nil =>
    cases h
    cases hy
  | cons x xs ih =>
    obtain ⟨us, vs, hus, hvs, rfl⟩ := flatMapM_cons_eq_ok.mp h
    rcases List.mem_append.mp hy with hy | hy
    · exact ⟨x, List.mem_cons_self, us, hus, hy⟩
    · obtain ⟨x', hx', zs, hzs, hmem⟩ := ih hvs hy
      exact ⟨x', List.mem_cons_of_mem _ hx', zs, hzs, hmem⟩

theorem flatMapM_ne_error (h : ∀ x ∈ xs, f x ≠ .error e) : flatMapM f xs ≠ .error e := by
  induction xs with
  | nil =>
    intro hnot
    cases hnot
  | cons x xs ih =>
    have hx := h x List.mem_cons_self
    have hxs := ih fun x' hx' => h x' (List.mem_cons_of_mem _ hx')
    rw [flatMapM_cons]
    cases hf : f x with
    | error e' =>
      rw [hf] at hx
      exact fun hnot => hx (by cases hnot; rfl)
    | ok us =>
      cases hrest : flatMapM f xs with
      | error e' =>
        rw [hrest] at hxs
        exact fun hnot => hxs (by cases hnot; rfl)
      | ok vs =>
        exact nofun

theorem flatMapM_congr (hagree : ∀ x ∈ xs, f x ≠ .error e → g x = f x)
    (h : flatMapM f xs ≠ .error e) : flatMapM g xs = flatMapM f xs := by
  induction xs with
  | nil => rfl
  | cons x xs ih =>
    rw [flatMapM_cons] at h ⊢
    have hx : f x ≠ .error e := by
      intro hnot
      rw [hnot] at h
      exact h rfl
    rw [hagree x List.mem_cons_self hx, flatMapM_cons]
    cases hf : f x with
    | error e' => rfl
    | ok us =>
      rw [hf] at h
      have hxs : flatMapM f xs ≠ .error e := by
        intro hnot
        rw [hnot] at h
        exact h rfl
      dsimp only
      rw [ih (fun x' hx' => hagree x' (List.mem_cons_of_mem _ hx')) hxs]

theorem exists_forall_of_mono {P : α → ℕ → Prop} (hmono : ∀ x m n, m ≤ n → P x m → P x n)
    (h : ∀ x ∈ xs, ∃ n, P x n) : ∃ n, ∀ x ∈ xs, P x n := by
  induction xs with
  | nil => exact ⟨0, nofun⟩
  | cons x xs ih =>
    obtain ⟨m, hm⟩ := h x List.mem_cons_self
    obtain ⟨n, hn⟩ := ih fun x' hx' => h x' (List.mem_cons_of_mem _ hx')
    refine ⟨max m n, fun x' hx' => ?_⟩
    rcases List.mem_cons.mp hx' with rfl | hx'
    · exact hmono _ m _ (Nat.le_max_left m n) hm
    · exact hmono _ n _ (Nat.le_max_right m n) (hn x' hx')

end TransformHub
