import Mathlib.Data.List.Nodup

/-!
# Insertion-ordered maps

The key-value container of the modelled language: `set` on a present key keeps its place, `set` on
an absent key appends, and iteration follows insertion order.
-/

namespace TransformHub

universe u v w

/-- A map that remembers the order in which its keys were first inserted. -/
structure OrderedMap (κ : Type u) (α : Type v) where
  entries : List (κ × α)
  nodup : (entries.map Prod.fst).Nodup
deriving DecidableEq

namespace OrderedMap

variable {κ : Type u} {α : Type v} {β : Type w}

theorem getElem?_append_of_some {γ : Type w} {xs ys : List γ} {x : γ} {i : ℕ} (h : xs[i]? = some x) :
    (xs ++ ys)[i]? = some x :=
  (List.getElem?_append_left (List.getElem?_eq_some_iff.mp h).1).trans h

theorem getElem?_append_cases {γ : Type w} {xs : List γ} {x y : γ} {i : ℕ}
    (h : (xs ++ [x])[i]? = some y) : i = xs.length ∧ y = x ∨ i < xs.length ∧ xs[i]? = some y := by
  rw [List.getElem?_append] at h
  split at h
  · next hlt => exact .inr ⟨hlt, h⟩
  · rw [List.getElem?_singleton] at h
    split at h
    · exact .inl ⟨by omega, (Option.some.inj h).symm⟩
    · cases h

/-! ## The entry-list operations -/

section Entries

variable [DecidableEq κ]

/-- The value of the first entry with key `k`. -/
def lookupEntry (k : κ) : List (κ × α) → Option α
  | [] => none
  | (k', a) :: es => if k' = k then some a else lookupEntry k es

/-- Overwrite the entry with key `k` in place, or append one. -/
def setEntry (k : κ) (a : α) : List (κ × α) → List (κ × α)
  | [] => [(k, a)]
  | (k', a') :: es => if k' = k then (k, a) :: es else (k', a') :: setEntry k a es

theorem lookupEntry_setEntry (k k' : κ) (a : α) (es : List (κ × α)) :
    lookupEntry k' (setEntry k a es) = if k = k' then some a else lookupEntry k' es := by
  induction es with
  | nil => simp [setEntry, lookupEntry]
  | cons e es ih =>
    obtain ⟨k₀, a₀⟩ := e
    by_cases h : k₀ = k
    · subst h
      by_cases h' : k₀ = k' <;> simp [setEntry, lookupEntry, h']
    · by_cases h' : k₀ = k'
      · subst h'
        simp [setEntry, lookupEntry, h, Ne.symm h]
      · simp [setEntry, lookupEntry, h, h', ih]

variable {es : List (κ × α)}

theorem mem_keys_setEntry {k k' : κ} {a : α} :
    k' ∈ (setEntry k a es).map Prod.fst ↔ k' = k ∨ k' ∈ es.map Prod.fst := by
  induction es with
  | nil => simp [setEntry]
  | cons e es ih =>
    obtain ⟨k₀, a₀⟩ := e
    by_cases h : k₀ = k
    · subst h
      simp [setEntry]
    · simp only [setEntry, h, if_false, List.map_cons, List.mem_cons, ih]
      tauto

theorem nodup_keys_setEntry {k : κ} {a : α} (h : (es.map Prod.fst).Nodup) :
    ((setEntry k a es).map Prod.fst).Nodup := by
  induction es with
  | nil => simp [setEntry]
  | cons e es ih =>
    obtain ⟨k₀, a₀⟩ := e
    rw [List.map_cons, List.nodup_cons] at h
    by_cases hk : k₀ = k
    · subst hk
      simpa [setEntry] using h
    · simp only [setEntry, hk, if_false, List.map_cons, List.nodup_cons]
      refine ⟨?_, ih h.2⟩
      rw [mem_keys_setEntry]
      rintro (h' | h')
      · exact hk h'
      · exact h.1 h'

theorem setEntry_perm {k : κ} {a : α} (h : (es.map Prod.fst).Nodup) :
    (setEntry k a es).Perm (es.filter (fun e => e.1 ≠ k) ++ [(k, a)]) := by
  induction es with
  | nil => simp [setEntry]
  | cons e es ih =>
    obtain ⟨k', b⟩ := e
    rw [List.map_cons, List.nodup_cons] at h
    by_cases hk : k' = k
    · subst hk
      have hrest : es.filter (fun e => e.1 ≠ k') = es := by
        refine List.filter_eq_self.mpr fun e he => ?_
        have : e.1 ≠ k' := fun he' => h.1 (List.mem_map.mpr ⟨e, he, he'⟩)
        simpa using this
      simp only [setEntry, if_true, List.filter_cons, ne_eq, not_true, decide_false,
        Bool.false_eq_true, if_false]
      rw [hrest]
      exact (List.perm_append_singleton _ _).symm
    · simp only [setEntry, hk, if_false, List.filter_cons, ne_eq, not_false_eq_true, decide_true,
        if_true, List.cons_append]
      exact (ih h.2).cons _

theorem setEntry_of_notMem {k : κ} {a : α} (h : k ∉ es.map Prod.fst) :
    setEntry k a es = es ++ [(k, a)] := by
  induction es with
  | nil => rfl
  | cons e es ih =>
    rw [List.map_cons, List.mem_cons, not_or] at h
    rw [setEntry, if_neg (Ne.symm h.1), ih h.2, List.cons_append]

theorem lookupEntry_filter_ne (k k' : κ) (es : List (κ × α)) :
    lookupEntry k' (es.filter (fun e => e.1 ≠ k)) =
      if k = k' then none else lookupEntry k' es := by
  induction es with
  | nil => simp [lookupEntry]
  | cons e es ih =>
    obtain ⟨k₀, a₀⟩ := e
    by_cases h : k₀ = k
    · subst h
      by_cases h' : k₀ = k' <;> simp_all [lookupEntry]
    · by_cases h' : k₀ = k'
      · subst h'
        simp [lookupEntry, h, Ne.symm h]
      · simp only [ne_eq, h, not_false_eq_true, decide_true, List.filter_cons_of_pos,
          lookupEntry, h', if_false]
        exact ih

theorem mem_iff_lookupEntry (h : (es.map Prod.fst).Nodup) {k : κ} {a : α} :
    (k, a) ∈ es ↔ lookupEntry k es = some a := by
  induction es with
  | nil => simp [lookupEntry]
  | cons e es ih =>
    obtain ⟨k₀, a₀⟩ := e
    rw [List.map_cons, List.nodup_cons] at h
    by_cases hk : k₀ = k
    · subst hk
      have hno : (k₀, a) ∉ es := fun hm => h.1 (List.mem_map.mpr ⟨(k₀, a), hm, rfl⟩)
      simp [lookupEntry, hno, eq_comm]
    · simp [lookupEntry, hk, Ne.symm hk, ih h.2]

theorem mem_keys_iff_lookupEntry {k : κ} : k ∈ es.map Prod.fst ↔ (lookupEntry k es).isSome := by
  induction es with
  | nil => simp [lookupEntry]
  | cons e es ih =>
    obtain ⟨k₀, a₀⟩ := e
    by_cases hk : k₀ = k
    · simp [lookupEntry, hk]
    · simp only [List.map_cons, List.mem_cons, Ne.symm hk, false_or, lookupEntry, hk, if_false]
      exact ih

end Entries

/-! ## The operations of the map -/

def empty : OrderedMap κ α := ⟨[], List.nodup_nil⟩

instance : Inhabited (OrderedMap κ α) := ⟨empty⟩

def keys (m : OrderedMap κ α) : List κ := m.entries.map Prod.fst

def values (m : OrderedMap κ α) : List α := m.entries.map Prod.snd

/-- Apply `f` to every value; keys and order stay. -/
def mapValues (f : α → β) (m : OrderedMap κ α) : OrderedMap κ β :=
  ⟨m.entries.map (fun e => (e.1, f e.2)), by
    rw [List.map_map]
    exact m.nodup⟩

variable [DecidableEq κ]

def get? (m : OrderedMap κ α) (k : κ) : Option α := lookupEntry k m.entries

def has (m : OrderedMap κ α) (k : κ) : Bool := (m.get? k).isSome

def set (m : OrderedMap κ α) (k : κ) (a : α) : OrderedMap κ α :=
  ⟨setEntry k a m.entries, nodup_keys_setEntry m.nodup⟩

def delete (m : OrderedMap κ α) (k : κ) : OrderedMap κ α :=
  ⟨m.entries.filter (fun e => e.1 ≠ k), (List.filter_sublist.map Prod.fst).nodup m.nodup⟩

/-- The map built by setting the given entries one after the other. -/
def ofEntries (es : List (κ × α)) : OrderedMap κ α :=
  es.foldl (fun m e => m.set e.1 e.2) empty

theorem entries_ofEntries {es : List (κ × α)} (h : (es.map Prod.fst).Nodup) :
    (ofEntries es).entries = es := by
  have hfold : ∀ (es : List (κ × α)) (m : OrderedMap κ α),
      ((m.entries ++ es).map Prod.fst).Nodup →
      (es.foldl (fun m e => m.set e.1 e.2) m).entries = m.entries ++ es := by
    intro es
    induction es with
    | nil => intro m _; simp
    | cons e es ih =>
      intro m hm
      have hnew : e.1 ∉ m.entries.map Prod.fst := by
        rw [List.map_append, List.nodup_append] at hm
        exact fun hmem => hm.2.2 _ hmem e.1 (by simp) rfl
      have hset : (m.set e.1 e.2).entries = m.entries ++ [e] := setEntry_of_notMem hnew
      rw [List.foldl_cons, ih (m.set e.1 e.2) (by rw [hset]; simpa using hm), hset]
      simp
  exact (hfold es empty (by simpa [empty] using h)).trans (List.nil_append es)

/-! ## Lookup laws -/

@[simp] theorem get?_empty (k : κ) : (empty : OrderedMap κ α).get? k = none := rfl

section

variable (m : OrderedMap κ α)
include m

theorem get?_set (k k' : κ) (a : α) : (m.set k a).get? k' = if k = k' then some a else m.get? k' :=
  lookupEntry_setEntry k k' a m.entries

@[simp] theorem get?_set_self (k : κ) (a : α) : (m.set k a).get? k = some a := by
  simp [get?_set]

theorem get?_set_of_ne {k k' : κ} (h : k ≠ k') (a : α) : (m.set k a).get? k' = m.get? k' := by
  simp [get?_set, h]

theorem get?_delete (k k' : κ) : (m.delete k).get? k' = if k = k' then none else m.get? k' :=
  lookupEntry_filter_ne k k' m.entries

@[simp] theorem get?_delete_self (k : κ) : (m.delete k).get? k = none := by
  simp [get?_delete]

theorem get?_delete_of_ne {k k' : κ} (h : k ≠ k') : (m.delete k).get? k' = m.get? k' := by
  simp [get?_delete, h]

end

/-- The map without the entries of the given keys. -/
def deleteAll (m : OrderedMap κ α) (ks : List κ) : OrderedMap κ α := ks.foldl delete m

theorem get?_deleteAll (m : OrderedMap κ α) (ks : List κ) (k : κ) :
    (m.deleteAll ks).get? k = if k ∈ ks then none else m.get? k := by
  induction ks generalizing m with
  | nil => simp [deleteAll]
  | cons k₀ ks ih =>
    have hcons : (m.deleteAll (k₀ :: ks)).get? k = ((m.delete k₀).deleteAll ks).get? k := rfl
    rw [hcons, ih, get?_delete]
    by_cases hk : k ∈ ks
    · simp [hk]
    · by_cases hk₀ : k = k₀
      · simp [hk₀]
      · simp [hk, hk₀, Ne.symm hk₀]

@[simp] theorem get?_mapValues (f : α → β) (m : OrderedMap κ α) (k : κ) :
    (m.mapValues f).get? k = (m.get? k).map f := by
  have h : ∀ es : List (κ × α),
      lookupEntry k (es.map (fun e => (e.1, f e.2))) = (lookupEntry k es).map f := by
    intro es
    induction es with
    | nil => rfl
    | cons e es ih =>
      obtain ⟨k₀, a₀⟩ := e
      by_cases hk : k₀ = k <;> simp [lookupEntry, hk, ih]
  exact h m.entries

theorem get?_ofEntries_map {γ : Type*} {f : γ → κ} (g : γ → α) {xs : List γ}
    (h : (xs.map f).Nodup) (k : κ) :
    (ofEntries (xs.map fun x => (f x, g x))).get? k = (xs.find? fun x => f x = k).map g := by
  have hkeys : ((xs.map fun x => (f x, g x)).map Prod.fst).Nodup := by
    rw [List.map_map]
    exact h
  rw [get?, entries_ofEntries hkeys]
  clear h hkeys
  induction xs with
  | nil => rfl
  | cons x xs ih => by_cases hx : f x = k <;> simp [lookupEntry, hx, ih]

theorem get?_ofEntries_rel {R : κ → α → β → Prop} {es : List (κ × α)} {fs : List (κ × β)}
    (h : List.Forall₂ (fun e f => e.1 = f.1 ∧ R e.1 e.2 f.2) es fs) (k : κ) :
    ((ofEntries es).get? k = none ∧ (ofEntries fs).get? k = none) ∨
      ∃ a b, (ofEntries es).get? k = some a ∧ (ofEntries fs).get? k = some b ∧ R k a b := by
  have hfold : ∀ (m : OrderedMap κ α) (m' : OrderedMap κ β),
      ((m.get? k = none ∧ m'.get? k = none) ∨ ∃ a b, m.get? k = some a ∧ m'.get? k = some b ∧
        R k a b) →
      (((es.foldl (fun m e => m.set e.1 e.2) m).get? k = none ∧
        (fs.foldl (fun m e => m.set e.1 e.2) m').get? k = none) ∨
        ∃ a b, (es.foldl (fun m e => m.set e.1 e.2) m).get? k = some a ∧
          (fs.foldl (fun m e => m.set e.1 e.2) m').get? k = some b ∧ R k a b) := by
    induction h with
    | nil => exact fun m m' hm => hm
    | @cons e f es fs hef _ ih =>
      intro m m' hm
      obtain ⟨hkey, hR⟩ := hef
      apply ih
      rw [get?_set, get?_set, ← hkey]
      by_cases hk : e.1 = k
      · subst hk
        rw [if_pos rfl, if_pos rfl]
        exact .inr ⟨e.2, f.2, rfl, rfl, hR⟩
      · rw [if_neg hk, if_neg hk]
        exact hm
  exact hfold empty empty (.inl ⟨rfl, rfl⟩)

variable {m : OrderedMap κ α}

theorem mem_entries_iff {k : κ} {a : α} : (k, a) ∈ m.entries ↔ m.get? k = some a :=
  mem_iff_lookupEntry m.nodup

theorem mem_keys_iff {k : κ} : k ∈ m.keys ↔ (m.get? k).isSome :=
  mem_keys_iff_lookupEntry

theorem mem_values_iff {a : α} : a ∈ m.values ↔ ∃ k, m.get? k = some a := by
  simp only [values, List.mem_map, Prod.exists, exists_eq_right, mem_entries_iff]

theorem get?_foldl_set {es : List (κ × α)} (h : (es.map Prod.fst).Nodup) (m : OrderedMap κ α)
    (k : κ) : (es.foldl (fun m e => m.set e.1 e.2) m).get? k = ((ofEntries es).get? k).or
    (m.get? k) := by
  rw [get?, get?, entries_ofEntries h, ← get?]
  induction es generalizing m with
  | nil => rfl
  | cons e es ih =>
    rw [List.map_cons, List.nodup_cons] at h
    rw [List.foldl_cons, ih h.2]
    by_cases hk : e.1 = k
    · have hnone : lookupEntry k es = none := by
        rw [← Option.not_isSome_iff_eq_none, ← mem_keys_iff_lookupEntry, ← hk]
        exact h.1
      simp [lookupEntry, hk, hnone]
    · simp [lookupEntry, hk, get?_set_of_ne _ hk]

theorem has_iff {k : κ} : m.has k = true ↔ ∃ a, m.get? k = some a := by
  simp [has, Option.isSome_iff_exists]

omit [DecidableEq κ] in
theorem keys_nodup (m : OrderedMap κ α) : m.keys.Nodup := m.nodup

@[simp] theorem get?_ofEntries_entries (m : OrderedMap κ α) (k : κ) :
    (ofEntries m.entries).get? k = m.get? k := by
  rw [get?, entries_ofEntries m.nodup, ← get?]

/-! ## Predicates on all entries -/

/-- `P` holds of every entry. -/
def All (P : κ → α → Prop) (m : OrderedMap κ α) : Prop := ∀ e ∈ m.entries, P e.1 e.2

variable {P : κ → α → Prop} {m : OrderedMap κ α}

omit [DecidableEq κ] in
theorem All.empty : (empty : OrderedMap κ α).All P := by
  intro e he
  cases he

theorem All.set (h : m.All P) {k : κ} {a : α} (ha : P k a) : (m.set k a).All P := by
  rintro ⟨k', b⟩ he
  rw [mem_entries_iff, get?_set] at he
  by_cases hk : k = k'
  · subst hk
    rw [if_pos rfl, Option.some.injEq] at he
    exact he ▸ ha
  · rw [if_neg hk] at he
    exact h (k', b) (mem_entries_iff.mpr he)

theorem All.delete (h : m.All P) (k : κ) : (m.delete k).All P :=
  fun e he => h e (List.mem_of_mem_filter he)

theorem All.ofEntries {es : List (κ × α)} (h : ∀ e ∈ es, P e.1 e.2) : (ofEntries es).All P := by
  have hfold : ∀ (es : List (κ × α)) (m : OrderedMap κ α), m.All P →
      (∀ e ∈ es, P e.1 e.2) → (es.foldl (fun m e => m.set e.1 e.2) m).All P := by
    intro es
    induction es with
    | nil => exact fun m hm _ => hm
    | cons e es ih =>
      exact fun m hm hes => ih _ (hm.set (hes e List.mem_cons_self))
        fun e' he' => hes e' (List.mem_cons_of_mem _ he')
  exact hfold es .empty .empty h

end OrderedMap

end TransformHub
