/-!
# Labelled transition systems

A system is a set of initial states and a labelled step relation.
-/

namespace TransformHub

universe u v

structure System (σ : Type u) (α : Type v) where
  init : σ → Prop
  step : σ → α → σ → Prop

namespace System

variable {σ : Type u} {α : Type v}

/-- The states reached by runs whose steps meet `ok`. -/
inductive Reachable (S : System σ α) (ok : σ → α → Prop) : σ → Prop where
  | init {s : σ} : S.init s → Reachable S ok s
  | step {s s' : σ} {a : α} : Reachable S ok s → ok s a → S.step s a s' → Reachable S ok s'

def anyStep : σ → α → Prop := fun _ _ => True

/-- The system of a step function. -/
def ofFun (start : σ) (next : σ → α → σ) : System σ α where
  init := fun s => s = start
  step := fun s a s' => s' = next s a

variable {S : System σ α} {ok : σ → α → Prop}

variable {s : σ}

theorem Reachable.invariant {I : σ → Prop} (hinit : ∀ s, S.init s → I s)
    (hstep : ∀ s a s', S.Reachable ok s → I s → ok s a → S.step s a s' → I s')
    (h : S.Reachable ok s) : I s := by
  induction h with
  | init h => exact hinit _ h
  | step hr hok hs ih => exact hstep _ _ _ hr ih hok hs

variable {next : σ → α → σ}

theorem Reachable.invariant_ofFun {start : σ} {I : σ → Prop} (hinit : I start)
    (hstep : ∀ s a, I s → ok s a → I (next s a)) (h : (ofFun start next).Reachable ok s) : I s := by
  refine h.invariant (fun s hs => ?_) (fun s a s' _ hi hok hs => ?_)
  · cases hs
    exact hinit
  · cases hs
    exact hstep s a hi hok

theorem Reachable.foldl (hnext : ∀ s a, S.step s a (next s a)) (h : S.Reachable anyStep s)
    (as : List α) : S.Reachable anyStep (as.foldl next s) := by
  induction as generalizing s with
  | nil => exact h
  | cons a as ih => exact ih (.step h trivial (hnext s a))

theorem reachable_foldl {start : σ} (as : List α) :
    (ofFun start next).Reachable anyStep (as.foldl next start) :=
  Reachable.foldl (fun _ _ => rfl) (.init rfl) as

/-- The steps of a run of a step function all pass a test. -/
def checks (next : σ → α → σ) (test : σ → α → Bool) : σ → List α → Bool
  | _, [] => true
  | s, a :: as => test s a && checks next test (next s a) as

/-- A run whose steps pass a test stays within the steps that meet `ok`, also when the test says so
only where `I` holds. -/
theorem Reachable.of_checks_while {start : σ} {test : σ → α → Bool} {I : σ → Prop}
    (hnext : ∀ s a, I s → test s a = true → I (next s a))
    (htest : ∀ s a, I s → test s a = true → ok s a) (h : (ofFun start next).Reachable ok s)
    (hs : I s) (as : List α) (has : checks next test s as = true) :
    (ofFun start next).Reachable ok (as.foldl next s) := by
  induction as generalizing s with
  | nil => exact h
  | cons a as ih =>
    rw [checks, Bool.and_eq_true] at has
    exact ih (.step h (htest s a hs has.1) rfl) (hnext s a hs has.1) has.2

theorem Reachable.of_checks {start : σ} {test : σ → α → Bool}
    (htest : ∀ s a, test s a = true → ok s a) (h : (ofFun start next).Reachable ok s) {as : List α}
    (has : checks next test s as = true) :
    (ofFun start next).Reachable ok (as.foldl next s) :=
  h.of_checks_while (I := fun _ => True) (fun _ _ _ _ => trivial) (fun s a _ => htest s a) trivial
    as has

/-! ## Runs of a step function -/

section Runs

variable (next : σ → α → σ)

def Always (P : σ → Prop) : σ → List α → Prop
  | s, [] => P s
  | s, a :: as => P s ∧ Always P (next s a) as

def Meets (ok : σ → α → Prop) : σ → List α → Prop
  | _, [] => True
  | s, a :: as => ok s a ∧ Meets ok (next s a) as

variable {next} {I P : σ → Prop} {A : α → Prop}

theorem always_last {as : List α} (h : Always next P s as) : P (as.foldl next s) := by
  induction as generalizing s with
  | nil => exact h
  | cons a as ih => exact ih h.2

theorem always_head {as : List α} (h : Always next P s as) : P s := by
  cases as with
  | nil => exact h
  | cons a as => exact h.1

theorem always_append {as bs : List α} (h : Always next P s (as ++ bs)) :
    Always next P (as.foldl next s) bs := by
  induction as generalizing s with
  | nil => exact h
  | cons a as ih => exact ih h.2

/-- Where a step keeps a property exactly if it meets a condition, so does a run. The invariant may
rest on both, and the labels may be of one kind. -/
theorem always_iff_meets (hkeeps : ∀ s a, A a → I s → P s → (P (next s a) ↔ ok s a))
    (hinv : ∀ s a, A a → I s → P s → ok s a → I (next s a)) (hI : I s) (hP : P s) (as : List α)
    (has : ∀ a ∈ as, A a) : Always next P s as ↔ Meets next ok s as := by
  induction as generalizing s with
  | nil => exact ⟨fun _ => trivial, fun _ => hP⟩
  | cons a as ih =>
    obtain ⟨ha, has⟩ := List.forall_mem_cons.mp has
    constructor
    · rintro ⟨_, hrest⟩
      have hP' : P (next s a) := by
        cases as with
        | nil => exact hrest
        | cons b as => exact hrest.1
      have hok := (hkeeps s a ha hI hP).mp hP'
      exact ⟨hok, (ih (hinv s a ha hI hP hok) hP' has).mp hrest⟩
    · rintro ⟨hok, hrest⟩
      have hP' := (hkeeps s a ha hI hP).mpr hok
      exact ⟨hP, (ih (hinv s a ha hI hP hok) hP' has).mpr hrest⟩

theorem meets_congr {ok ok' : σ → α → Prop} (hiff : ∀ s a, I s → (ok s a ↔ ok' s a))
    (hinv : ∀ s a, I s → ok' s a → I (next s a)) (hI : I s) (as : List α) :
    Meets next ok s as ↔ Meets next ok' s as := by
  induction as generalizing s with
  | nil => exact Iff.rfl
  | cons a as ih =>
    constructor
    · rintro ⟨hok, hrest⟩
      have hok' := (hiff s a hI).mp hok
      exact ⟨hok', (ih (hinv s a hI hok')).mp hrest⟩
    · rintro ⟨hok', hrest⟩
      exact ⟨(hiff s a hI).mpr hok', (ih (hinv s a hI hok')).mpr hrest⟩

theorem always_of_meets (hkeeps : ∀ s a, I s → P s → ok s a → I (next s a) ∧ P (next s a))
    (hI : I s) (hP : P s) (as : List α) (h : Meets next ok s as) : Always next P s as := by
  induction as generalizing s with
  | nil => exact hP
  | cons a as ih =>
    obtain ⟨hI', hP'⟩ := hkeeps s a hI hP h.1
    exact ⟨hP, ih hI' hP' h.2⟩

theorem meets_of_invariant {Q : σ → α → Prop} (hstep : ∀ s a, I s → ok s a → I (next s a))
    (hQ : ∀ s a, I s → ok s a → Q s a) (hI : I s) (as : List α) (h : Meets next ok s as) :
    Meets next Q s as := by
  induction as generalizing s with
  | nil => trivial
  | cons a as ih => exact ⟨hQ s a hI h.1, ih (hstep s a hI h.1) h.2⟩

theorem meets_and {ok : σ → α → Prop} {as : List α} (h : Meets next ok s as) (has : ∀ a ∈ as, A a) :
    Meets next (fun s a => A a ∧ ok s a) s as := by
  induction as generalizing s with
  | nil => trivial
  | cons a as ih =>
    obtain ⟨ha, has⟩ := List.forall_mem_cons.mp has
    exact ⟨⟨ha, h.1⟩, ih h.2 has⟩

theorem meets_append {ok : σ → α → Prop} {as bs : List α} :
    Meets next ok s (as ++ bs) ↔ Meets next ok s as ∧ Meets next ok (as.foldl next s) bs := by
  induction as generalizing s with
  | nil => exact ⟨fun h => ⟨trivial, h⟩, And.right⟩
  | cons a as ih =>
    show ok s a ∧ Meets next ok (next s a) (as ++ bs) ↔ _
    rw [ih]
    exact and_assoc.symm

theorem meets_anyStep (s : σ) (as : List α) : Meets next anyStep s as := by
  induction as generalizing s with
  | nil => trivial
  | cons a as ih => exact ⟨trivial, ih (next s a)⟩

end Runs

end System

end TransformHub
