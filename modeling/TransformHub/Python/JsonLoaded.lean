import Mathlib.Algebra.Group.Nat.Defs
import TransformHub.Python.JsonText

/-!
# What the decoder returns

A value that `json.loads` returned is written as a text that it returns the same value of, as long
as its numbers are finite: its keys are distinct strings, and its integers have few digits.
-/

namespace TransformHub.Python

open OrderedMap

variable {F : Type}

/-- A number of the value, or a key, is a float that is not finite. -/
inductive NonFinite : Value F → Prop
  | here : NonFinite .nonFinite
  | elem {v : Value F} {vs : List (Value F)} : v ∈ vs → NonFinite v → NonFinite (.list vs)
  | key {v : Value F} {items : List (Key F × Value F)} :
      (.nonFinite, v) ∈ items → NonFinite (.dict items)
  | item {k : Key F} {v : Value F} {items : List (Key F × Value F)} :
      (k, v) ∈ items → NonFinite v → NonFinite (.dict items)

mutual

/-- How many lists and dictionaries are nested in the value. -/
def Value.height : Value F → ℕ
  | .list vs => heightOfElems vs + 1
  | .dict items => heightOfItems items + 1
  | _ => 0
termination_by structural v => v

def heightOfElems : List (Value F) → ℕ
  | [] => 0
  | v :: vs => max v.height (heightOfElems vs)
termination_by structural vs => vs

def heightOfItems : List (Key F × Value F) → ℕ
  | [] => 0
  | (_, v) :: items => max v.height (heightOfItems items)
termination_by structural items => items

end

/-- The items of a dictionary whose keys are strings. -/
def strItems (items : List (Text × Value F)) : List (Key F × Value F) :=
  items.map fun e => (.str e.1, e.2)

/-- A value of finite numbers that `json.loads` returns when the recursion may go `depth` levels
deep. -/
inductive Loaded : ℕ → Value F → Prop
  | none {depth : ℕ} : Loaded depth .none
  | bool {depth : ℕ} (b : Bool) : Loaded depth (.bool b)
  | int {depth : ℕ} {i : Int} : intFault i = Option.none → Loaded depth (.int i)
  | float {depth : ℕ} (x : F) : Loaded depth (.float x)
  | str {depth : ℕ} (t : Text) : Loaded depth (.str t)
  | list {depth : ℕ} {vs : List (Value F)} :
      (∀ v ∈ vs, Loaded depth v) → Loaded (depth + 1) (.list vs)
  | dict {depth : ℕ} {items : List (Text × Value F)} : (items.map Prod.fst).Nodup →
      (∀ e ∈ items, Loaded depth e.2) → Loaded (depth + 1) (.dict (strItems items))

/-- `float(repr(x)) == x`. -/
def Floats.Exact (fl : Floats F) : Prop := ∀ x, fl.ofText (fl.repr x) = some x

variable {fl : Floats F}

/-! ## Depth -/

variable {depth : ℕ}

theorem heightOfElems_le {vs : List (Value F)} :
    heightOfElems vs ≤ depth ↔ ∀ v ∈ vs, v.height ≤ depth := by
  induction vs with
  | nil => simp [heightOfElems]
  | cons v vs ih => rw [heightOfElems, Nat.max_le, ih, List.forall_mem_cons]

theorem heightOfItems_le {items : List (Text × Value F)} :
    heightOfItems (strItems items) ≤ depth ↔ ∀ e ∈ items, e.2.height ≤ depth := by
  induction items with
  | nil => simp [strItems, heightOfItems]
  | cons e items ih =>
    rw [List.forall_mem_cons, ← ih, ← Nat.max_le]
    rfl

theorem faultElems_eq_none {vs : List (Value F)} :
    faultElems depth vs = none ↔ ∀ v ∈ vs, fault depth v = none := by
  induction vs with
  | nil => simp [faultElems]
  | cons v vs ih => rw [faultElems, Option.or_eq_none_iff, ih, List.forall_mem_cons]

theorem faultItems_eq_none {items : List (Text × Value F)} :
    faultItems depth (strItems items) = none ↔ ∀ e ∈ items, fault depth e.2 = none := by
  induction items with
  | nil => simp [strItems, faultItems]
  | cons e items ih =>
    rw [List.forall_mem_cons, ← ih]
    show (Option.none.or ((fault depth e.2).or _)) = Option.none ↔ _
    rw [Option.none_or, Option.or_eq_none_iff]
    rfl

variable {v : Value F}

theorem Loaded.height_le (h : Loaded depth v) : v.height ≤ depth := by
  induction h with
  | none | bool | int | float | str => exact Nat.zero_le _
  | list _ ih => exact Nat.succ_le_succ (heightOfElems_le.mpr ih)
  | dict _ _ ih => exact Nat.succ_le_succ (heightOfItems_le.mpr ih)

theorem Loaded.fault_eq_none {depth depth' : ℕ} (h : Loaded depth v) :
    fault depth' v = Option.none ↔ v.height ≤ depth' := by
  induction h generalizing depth' with
  | none | bool | float | str => exact ⟨fun _ => Nat.zero_le _, fun _ => by cases depth' <;> rfl⟩
  | int hi =>
    refine ⟨fun _ => Nat.zero_le _, fun _ => ?_⟩
    cases depth' <;> exact hi
  | list _ ih =>
    cases depth' with
    | zero => exact ⟨nofun, fun h => absurd h (Nat.not_succ_le_zero _)⟩
    | succ depth' =>
      rw [fault, faultElems_eq_none, Value.height, Nat.succ_le_succ_iff, heightOfElems_le]
      exact forall₂_congr fun v hv => ih v hv
  | dict _ _ ih =>
    cases depth' with
    | zero => exact ⟨nofun, fun h => absurd h (Nat.not_succ_le_zero _)⟩
    | succ depth' =>
      rw [fault, faultItems_eq_none, Value.height, Nat.succ_le_succ_iff, heightOfItems_le]
      exact forall₂_congr fun e he => ih e he

theorem Loaded.of_height_le {depth depth' : ℕ} (h : Loaded depth v) (hv : v.height ≤ depth') :
    Loaded depth' v := by
  induction h generalizing depth' with
  | none => exact .none
  | bool b => exact .bool b
  | int hi => exact .int hi
  | float x => exact .float x
  | str t => exact .str t
  | list _ ih =>
    cases depth' with
    | zero => exact absurd hv (Nat.not_succ_le_zero _)
    | succ depth' =>
      exact .list fun v h => ih v h (heightOfElems_le.mp (Nat.le_of_succ_le_succ hv) v h)
  | dict hkeys _ ih =>
    cases depth' with
    | zero => exact absurd hv (Nat.not_succ_le_zero _)
    | succ depth' =>
      exact .dict hkeys fun e h =>
        ih e h (heightOfItems_le.mp (Nat.le_of_succ_le_succ hv) e h)

/-! ## Reading it again -/

theorem entries_eq_foldl (items : List (Text × Value F)) :
    (ofEntries items).entries =
      items.foldl (fun d e => setEntry e.1 e.2 d) [] := by
  have hfold : ∀ m : OrderedMap Text (Value F), (items.foldl (fun m e => m.set e.1 e.2) m).entries =
      items.foldl (fun d e => setEntry e.1 e.2 d) m.entries := by
    induction items with
    | nil => exact fun _ => rfl
    | cons e items ih => exact fun m => ih (m.set e.1 e.2)
  exact hfold .empty

theorem dictOf_eq (items : List (Text × Value F)) :
    dictOf items = strItems (ofEntries items).entries := by
  rw [entries_eq_foldl]
  rfl

theorem textElems_eq (vs : List (Value F)) : textElems fl vs = vs.map (Value.text fl) := by
  induction vs with
  | nil => rfl
  | cons v vs ih => rw [textElems, ih, List.map_cons]

theorem textItems_eq (items : List (Text × Value F)) :
    textItems fl (strItems items) =
      items.map fun e => quote e.1 ++ ofChars [':'] ++ e.2.text fl := by
  induction items with
  | nil => rfl
  | cons e items ih =>
    rw [List.map_cons, ← ih]
    rfl

theorem Loaded.readsBy (hexact : fl.Exact) (h : Loaded depth v) :
    ReadsBy (scanOnce fl depth) (v.text fl) v := by
  induction h with
  | none => exact readsBy_constant (by simp [constants])
  | bool b => cases b <;> exact readsBy_constant (by simp [constants, boolChars])
  | int hi => exact readsBy_int hi
  | float x =>
    intro cs rest hcs hrest
    have hvalue : numberValue fl (fl.repr x) = .ok (.float x) := by
      rw [numberValue, if_pos (fl.isFloat x), hexact x]
    rw [← ofChars_injective hcs]
    exact scanOnce_number (fl.valid x) hvalue hrest
  | str t => exact readsBy_quote t
  | @list depth vs _ ih =>
    have hvs : List.Forall₂ (ReadsBy (scanOnce fl depth)) (textElems fl vs) vs := by
      rw [textElems_eq, List.forall₂_map_left_iff, List.forall₂_same]
      exact ih
    exact readsBy_list hvs
  | @dict depth items hkeys _ ih =>
    have hitems : List.Forall₂ (ReadsBy (scanPair (scanOnce fl depth)))
        (textItems fl (strItems items)) items := by
      rw [textItems_eq, List.forall₂_map_left_iff, List.forall₂_same]
      exact fun e he => readsBy_pair (starts_scanOnce depth) (ih e he)
    have hread := readsBy_dict hitems
    rw [dictOf_eq, entries_ofEntries hkeys] at hread
    exact hread

/-! ## What is read -/

theorem ofDigitChars_lt {ds : List Char} (hds : ∀ c ∈ ds, c.isDigit = true) (init : ℕ) :
    Nat.ofDigitChars 10 ds init < (init + 1) * 10 ^ ds.length := by
  induction ds generalizing init with
  | nil => simp
  | cons c ds ih =>
    rw [List.forall_mem_cons] at hds
    have hc : c.toNat - '0'.toNat ≤ 9 := by
      have := hds.1
      simp only [Char.isDigit, Bool.and_eq_true, decide_eq_true_eq] at this
      have h9 : c.toNat ≤ 57 := this.2
      show c.toNat - 48 ≤ 9
      omega
    rw [Nat.ofDigitChars_cons, List.length_cons, Nat.pow_succ]
    refine Nat.lt_of_lt_of_le (ih hds.2 _) ?_
    calc (10 * init + (c.toNat - '0'.toNat) + 1) * 10 ^ ds.length
        ≤ (init + 1) * 10 * 10 ^ ds.length := Nat.mul_le_mul_right _ (by omega)
      _ = (init + 1) * (10 ^ ds.length * 10) := by
        rw [Nat.mul_assoc, Nat.mul_comm 10]

theorem digits_scanWhole {s whole rest : List Char} (h : scanWhole s = some (whole, rest)) :
    ∀ c ∈ whole, c.isDigit = true := by
  cases s with
  | nil => cases h
  | cons c s =>
    rw [scanWhole] at h
    split at h
    · cases h
      exact List.forall_mem_singleton.mpr rfl
    · split at h
      · cases h
      · rename_i d ds rest' heq
        cases h
        have hds : d :: ds = (c :: s).takeWhile Char.isDigit := (congrArg Prod.fst heq).symm
        rw [hds]
        exact List.all_eq_true.mp List.all_takeWhile

theorem digits_matchNumber {s rest : List Char} {t : NumberText}
    (h : matchNumber s = some (t, rest)) : ∀ c ∈ t.whole, c.isDigit = true := by
  unfold matchNumber at h
  split at h
  split at h
  · cases h
  · rename_i heq
    cases h
    exact digits_scanWhole heq

theorem loaded_number {t : NumberText} (hwhole : ∀ c ∈ t.whole, c.isDigit = true)
    (h : numberValue fl t = .ok v) (hfinite : ¬ NonFinite v) : Loaded depth v := by
  unfold numberValue at h
  split at h
  · split at h
    · cases h
      exact .float _
    · cases h
      exact absurd .here hfinite
  · split at h
    · cases h
    · rename_i hlength
      obtain rfl := Except.ok.inj h
      refine .int ?_
      have hlt := ofDigitChars_lt hwhole 0
      have habs : (if t.negative = true then -((Nat.ofDigitChars 10 t.whole 0 : ℕ) : Int)
          else (Nat.ofDigitChars 10 t.whole 0 : ℕ)).natAbs = Nat.ofDigitChars 10 t.whole 0 := by
        split
        · rw [Int.natAbs_neg, Int.natAbs_natCast]
        · exact Int.natAbs_natCast _
      have hdigits : (Nat.toDigits 10 (Nat.ofDigitChars 10 t.whole 0)).length ≤ maxStrDigits := by
        rw [Nat.length_toDigits_le_iff (by decide) (by decide)]
        rw [Nat.zero_add, Nat.one_mul] at hlt
        exact Nat.lt_of_lt_of_le hlt (Nat.pow_le_pow_right (by decide) (Nat.not_lt.mp hlength))
      unfold intFault
      rw [habs, if_neg (Nat.not_lt.mpr hdigits)]

theorem loaded_leaf {s : List Char} {x : Value F × List Char} (h : scanLeaf fl s = .ok x)
    (hfinite : ¬ NonFinite x.1) : Loaded depth x.1 := by
  unfold scanLeaf at h
  split at h
  · cases hs : scanString s.tail with
    | error e =>
      rw [hs] at h
      cases h
    | ok r =>
      rw [hs] at h
      cases h
      exact .str _
  · split at h
    · rename_i name v hfind
      cases h
      have hmem := List.mem_of_find?_eq_some hfind
      simp only [constants, List.mem_cons, Prod.mk.injEq, List.not_mem_nil, or_false] at hmem
      rcases hmem with ⟨-, rfl⟩ | ⟨-, rfl⟩ | ⟨-, rfl⟩ | ⟨-, rfl⟩ | ⟨-, rfl⟩ | ⟨-, rfl⟩
      · exact .none
      · exact .bool _
      · exact .bool _
      · exact absurd .here hfinite
      · exact absurd .here hfinite
      · exact absurd .here hfinite
    · split at h
      · cases h
      · rename_i t rest hmatch
        cases hv : numberValue fl t with
        | error e =>
          rw [hv] at h
          cases h
        | ok v =>
          rw [hv] at h
          cases h
          exact loaded_number (digits_matchNumber hmatch) hv hfinite

section

variable {α : Type} {item : List Char → Except Error (α × List Char)} {close : Char} {P : α → Prop}
  (hitem : ∀ s x, item s = .ok x → P x.1)
include hitem

theorem all_of_scanItems {n : ℕ} {s : List Char}
    {x : List α × List Char} (h : scanItems item close n s = .ok x) : ∀ a ∈ x.1, P a := by
  induction n generalizing s x with
  | zero => cases h
  | succ n ih =>
    unfold scanItems at h
    cases hs : item s with
    | error e =>
      rw [hs] at h
      cases h
    | ok y =>
      simp only [hs, bind, Except.bind] at h
      split at h
      · cases h
        exact List.forall_mem_singleton.mpr (hitem s y hs)
      · split at h
        · cases hrest : scanItems item close n (skipWhitespace (skipWhitespace y.2).tail) with
          | error e =>
            rw [hrest] at h
            cases h
          | ok z =>
            rw [hrest] at h
            cases h
            exact List.forall_mem_cons.mpr ⟨hitem s y hs, ih hrest⟩
        · cases h

theorem all_of_scanBody {s : List Char}
    {x : List α × List Char} (h : scanBody item close s = .ok x) : ∀ a ∈ x.1, P a := by
  unfold scanBody at h
  simp only at h
  split at h
  · cases h
    exact fun a ha => (List.not_mem_nil ha).elim
  · exact all_of_scanItems hitem h

end

theorem value_of_scanPair {scan : List Char → Except Error (Value F × List Char)}
    {P : Value F → Prop} (hscan : ∀ s x, scan s = .ok x → P x.1) (s : List Char)
    (x : (Text × Value F) × List Char) (h : scanPair scan s = .ok x) : P x.1.2 := by
  unfold scanPair at h
  split at h
  · cases hkey : scanString s.tail with
    | error e =>
      rw [hkey] at h
      cases h
    | ok r =>
      simp only [hkey, bind, Except.bind] at h
      split at h
      · cases hv : scan (skipWhitespace (skipWhitespace r.2).tail) with
        | error e =>
          rw [hv] at h
          cases h
        | ok y =>
          rw [hv] at h
          cases h
          exact hscan _ y hv
      · cases h
  · cases h

theorem loaded_of_scanOnce (s : List Char) (x : Value F × List Char)
    (h : scanOnce fl depth s = .ok x) (hfinite : ¬ NonFinite x.1) : Loaded depth x.1 := by
  induction depth generalizing s x with
  | zero =>
    unfold scanOnce at h
    split at h
    · cases h
    · exact loaded_leaf h hfinite
  | succ depth ih =>
    unfold scanOnce at h
    split at h
    · cases hbody : scanBody (scanOnce fl depth) ']' s.tail with
      | error e =>
        rw [hbody] at h
        cases h
      | ok r =>
        rw [hbody] at h
        cases h
        have hall := all_of_scanBody (P := fun v => ¬ NonFinite v → Loaded depth v) ih hbody
        exact .list fun v hv => hall v hv fun hnon => hfinite (.elem hv hnon)
    · split at h
      · cases hbody : scanBody (scanPair (scanOnce fl depth)) '}' s.tail with
        | error e =>
          rw [hbody] at h
          cases h
        | ok r =>
          rw [hbody] at h
          cases h
          have hall := all_of_scanBody (P := fun e => ¬ NonFinite e.2 → Loaded depth e.2)
            (value_of_scanPair (P := fun v => ¬ NonFinite v → Loaded depth v) ih) hbody
          have hentries := OrderedMap.All.ofEntries
            (P := fun _ v => ¬ NonFinite v → Loaded depth v) hall
          rw [dictOf_eq] at hfinite ⊢
          refine .dict (ofEntries r.1).nodup fun e he => hentries e he fun hnon => ?_
          exact hfinite (.item (List.mem_map_of_mem he) hnon)
      · exact loaded_leaf h hfinite

theorem loaded_of_loads {s : List Char} (h : loads fl depth s = .ok v) (hfinite : ¬ NonFinite v) :
    Loaded depth v := by
  unfold loads at h
  split at h
  · cases h
  · cases hscan : scanOnce fl depth (skipWhitespace s) with
    | error e =>
      rw [hscan] at h
      cases h
    | ok x =>
      simp only [hscan, bind, Except.bind] at h
      split at h
      · cases h
        exact loaded_of_scanOnce _ x hscan hfinite
      · cases h

end TransformHub.Python
