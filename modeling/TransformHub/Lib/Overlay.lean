import TransformHub.Lib.LastWrite

/-!
# Layers of nested records

A nested record is seen through its paths: at a path stands nothing, a record, or a value that is no
record.
-/

namespace TransformHub

/-- What stands at a path. -/
inductive Node (α : Type*) where
  | absent
  | inner
  | value (a : α)
deriving DecidableEq

abbrev View (κ α : Type*) := List κ → Node α

namespace View

variable {κ α : Type*}

def empty : View κ α
  | [] => .inner
  | _ :: _ => .absent

def child (T : View κ α) (k : κ) : View κ α := fun p => T (k :: p)

/-- On the way to the path stands a value, or at the path itself stands something. -/
def decides : View κ α → List κ → Bool
  | T, [] => match T [] with
      | .absent => false
      | _ => true
  | T, k :: p => match T [] with
      | .absent => false
      | .inner => decides (T.child k) p
      | .value _ => true

/-- What the record says about a path, if it decides it. -/
def answer (T : View κ α) (p : List κ) : Option (Node α) := if T.decides p then some (T p) else none

/-- `S` laid over `T`. -/
def atop (S T : View κ α) : View κ α := fun p => (S.answer p).getD (T p)

/-- Records laid over each other, the first at the bottom. -/
def layers (Ts : List (View κ α)) : View κ α := fun p =>
  (lastWrite (Ts.map fun T => T.answer p)).getD (empty p)

theorem layers_concat (Ts : List (View κ α)) (S : View κ α) :
    layers (Ts ++ [S]) = S.atop (layers Ts) := by
  funext p
  show (lastWrite ((Ts ++ [S]).map fun T => T.answer p)).getD (empty p) = _
  rw [List.map_append, lastWrite_append, List.map_singleton, lastWrite_singleton]
  cases hanswer : S.answer p with
  | none => simp [atop, layers, hanswer]
  | some x => simp [atop, hanswer]

variable {T : View κ α}

theorem answer_of_decides {p : List κ} (h : T.decides p = true) :
    T.answer p = some (T p) := if_pos h

theorem atop_of_decides {S T : View κ α} {p : List κ} (h : S.decides p = true) :
    S.atop T p = S p := by
  rw [atop, answer_of_decides h]
  rfl

section

variable {S : View κ α} (T)
include T

theorem atop_of_absent (h : S [] = .absent) : S.atop T = T := by
  funext p
  have hnot : S.decides p = false := by cases p <;> simp [decides, h]
  simp [atop, answer, hnot]

theorem atop_of_value {a : α} (h : S [] = .value a) : S.atop T = S := by
  funext p
  apply atop_of_decides
  cases p <;> simp [decides, h]

theorem atop_nil_of_inner (h : S [] = .inner) : S.atop T [] = .inner := by
  rw [atop_of_decides (by simp [decides, h]), h]

theorem atop_child (h : S [] = .inner) (k : κ) :
    (S.atop T).child k = (S.child k).atop (T.child k) := by
  funext p
  have hdecides : S.decides (k :: p) = (S.child k).decides p := by simp [decides, h]
  simp only [child, atop, answer, hdecides]

end

theorem eq_of_child {S T : View κ α} (hroot : S [] = T []) (h : ∀ k, S.child k = T.child k) :
    S = T := by
  funext p
  cases p with
  | nil => exact hroot
  | cons k p => exact congrFun (h k) p

/-! ## Putting something at a path -/

/-- The record that is there, or else one without members. -/
def asRecord (T : View κ α) : View κ α :=
  match T [] with
  | .inner => T
  | _ => empty

section Set

variable [DecidableEq κ]

/-- The record with `V` at the path; what is no record on the way there is replaced by one. -/
def set : View κ α → List κ → View κ α → View κ α
  | _, [], V => V
  | T, k :: q, V => fun p =>
    match p with
    | [] => .inner
    | j :: p => if j = k then set (T.asRecord.child k) q V p else T.asRecord.child j p

theorem set_child_self (T : View κ α) (k : κ) (q : List κ) (V : View κ α) :
    (T.set (k :: q) V).child k = (T.asRecord.child k).set q V := by
  funext p
  exact if_pos rfl

theorem set_child_of_ne (T : View κ α) {j k : κ} (h : j ≠ k) (q : List κ) (V : View κ α) :
    (T.set (k :: q) V).child j = T.asRecord.child j := by
  funext p
  exact if_neg h

theorem set_congr {T T' : View κ α} (h : T.asRecord = T'.asRecord) (k : κ) (q : List κ)
    (V : View κ α) : T.set (k :: q) V = T'.set (k :: q) V := by
  funext p
  simp only [set, h]

end Set

theorem asRecord_of_inner (h : T [] = .inner) : T.asRecord = T := by
  simp [asRecord, h]

theorem asRecord_of_ne (h : T [] ≠ .inner) : T.asRecord = empty := by
  unfold asRecord
  split
  · exact absurd ‹_› h
  · rfl

theorem set_ne_value [DecidableEq κ] {V : View κ α} {x : α} (hV : ∀ r, V r ≠ .value x) {q : List κ}
    (hT : ∀ r, T r ≠ .value x) (r : List κ) : T.set q V r ≠ .value x := by
  have hasRecord : ∀ {T : View κ α}, (∀ r, T r ≠ .value x) → ∀ r, T.asRecord r ≠ .value x := by
    intro T hT r
    by_cases hroot : T [] = .inner
    · rw [asRecord_of_inner hroot]
      exact hT r
    · rw [asRecord_of_ne hroot]
      cases r <;> simp [empty]
  induction q generalizing T r with
  | nil => exact hV r
  | cons k q ih =>
    cases r with
    | nil => simp [set]
    | cons j r =>
      by_cases hj : j = k
      · subst hj
        show (T.set (j :: q) V).child j r ≠ _
        rw [set_child_self]
        exact ih (fun r => hasRecord hT (j :: r)) r
      · show (T.set (k :: q) V).child j r ≠ _
        rw [set_child_of_ne T hj]
        exact hasRecord hT (j :: r)

/-! ## Depth -/

/-- Nothing stands at a path of length `n` or more. -/
def Bounded (n : ℕ) (T : View κ α) : Prop := ∀ p, n ≤ p.length → T p = .absent

theorem Bounded.mono {n m : ℕ} (h : T.Bounded n) (hnm : n ≤ m) : T.Bounded m :=
  fun p hp => h p (Nat.le_trans hnm hp)

theorem Bounded.child {n : ℕ} (h : T.Bounded (n + 1)) (k : κ) : (T.child k).Bounded n :=
  fun p hp => h (k :: p) (by rw [List.length_cons]; omega)

theorem bounded_empty : (empty : View κ α).Bounded 1 := by
  intro p hp
  cases p with
  | nil => exact absurd hp (by rw [List.length_nil]; omega)
  | cons k p => rfl

theorem Bounded.asRecord {n : ℕ} (h : T.Bounded n) : T.asRecord.Bounded (n + 1) := by
  unfold View.asRecord
  split
  · exact h.mono (Nat.le_succ n)
  · exact bounded_empty.mono (Nat.succ_le_succ (Nat.zero_le n))

theorem Bounded.set [DecidableEq κ] {n m : ℕ} {V : View κ α} (hV : V.Bounded m) :
    ∀ {T : View κ α} {q : List κ}, T.Bounded n → (T.set q V).Bounded (n + m + q.length) := by
  intro T q
  induction q generalizing T n with
  | nil =>
    intro _ p hp
    exact hV p (Nat.le_trans (by rw [List.length_nil]; omega) hp)
  | cons k q ih =>
    intro hT p hp
    rw [List.length_cons] at hp
    cases p with
    | nil => exact absurd hp (by rw [List.length_nil]; omega)
    | cons j p =>
      rw [List.length_cons] at hp
      by_cases hj : j = k
      · subst hj
        show (T.set (j :: q) V).child j p = _
        rw [set_child_self]
        exact ih (hT.asRecord.child j) p (by omega)
      · show (T.set (k :: q) V).child j p = _
        rw [set_child_of_ne T hj]
        exact hT.asRecord.child j p (by omega)

end View

/-! ## Structures with named children -/

/-- What a structure is: a scalar, a list, or a record. -/
inductive Kind (α : Type*) where
  | absent
  | scalar (a : α)
  | list
  | record
deriving DecidableEq

/-- A value that is no record: a scalar, or a list with all that is in it. -/
inductive Content (κ α : Type*) where
  | scalar (a : α)
  | list (contents : List κ → Kind α)

namespace View

variable {κ α σ τ : Type*} {kind : σ → Kind α} {child : σ → κ → σ}

/-- What is found along a path. -/
def contents (kind : σ → Kind α) (child : σ → κ → σ) : σ → List κ → Kind α
  | x, [] => kind x
  | x, k :: p => contents kind child (child x k) p

/-- What a structure looks like as a nested record. -/
def ofTree (kind : σ → Kind α) (child : σ → κ → σ) : σ → View κ (Content κ α)
  | x, [] => match kind x with
      | .absent => .absent
      | .scalar a => .value (.scalar a)
      | .list => .value (.list (contents kind child x))
      | .record => .inner
  | x, k :: p => match kind x with
      | .record => ofTree kind child (child x k) p
      | _ => .absent

variable {x : σ}

theorem ofTree_root_inner (h : kind x = .record) : ofTree kind child x [] = .inner := by
  simp [ofTree, h]

theorem ofTree_child (h : kind x = .record) (k : κ) :
    (ofTree kind child x).child k = ofTree kind child (child x k) := by
  funext p
  simp [View.child, ofTree, h]

theorem ofTree_cons_of_ne (h : kind x ≠ .record) (k : κ) (p : List κ) :
    ofTree kind child x (k :: p) = .absent := by
  unfold ofTree
  split
  · exact absurd ‹_› h
  · rfl

theorem ofTree_root_eq_inner_iff : ofTree kind child x [] = .inner ↔ kind x = .record := by
  cases h : kind x <;> simp [ofTree, h]

theorem ofTree_root_eq_absent_iff : ofTree kind child x [] = .absent ↔ kind x = .absent := by
  cases h : kind x <;> simp [ofTree, h]

theorem decides_ofTree {p : List κ} (h : ofTree kind child x p ≠ .absent) :
    (ofTree kind child x).decides p = true := by
  induction p generalizing x with
  | nil =>
    unfold decides
    split
    · exact absurd ‹_› h
    · rfl
  | cons k p ih =>
    by_cases hx : kind x = .record
    · rw [decides, ofTree_root_inner hx, ofTree_child hx]
      apply ih
      rwa [← ofTree_child hx]
    · exact absurd (ofTree_cons_of_ne hx k p) h

theorem ofTree_eq_of_contents {kind' : τ → Kind α} {child' : τ → κ → τ} {y : τ}
    (h : contents kind child x = contents kind' child' y) :
    ofTree kind child x = ofTree kind' child' y := by
  funext p
  induction p generalizing x y with
  | nil =>
    have hkind : kind x = kind' y := congrFun h []
    simp only [ofTree, hkind, h]
  | cons k p ih =>
    have hkind : kind x = kind' y := congrFun h []
    have hchild : contents kind child (child x k) = contents kind' child' (child' y k) :=
      funext fun p => congrFun h (k :: p)
    simp only [ofTree, hkind]
    split
    · exact ih hchild
    · rfl

theorem contents_eq {kind' : τ → Kind α} {child' : τ → κ → τ} {R : σ → τ → Prop}
    (hkind : ∀ x y, R x y → kind x = kind' y) (hchild : ∀ x y k, R x y → R (child x k) (child' y k))
    {y : τ} (h : R x y) : contents kind child x = contents kind' child' y := by
  funext p
  induction p generalizing x y with
  | nil => exact hkind x y h
  | cons k p ih => exact ih (hchild x y k h)

end View

end TransformHub
