import Mathlib.Data.Set.Basic
import TransformHub.Js.Value
import TransformHub.Lib.Overlay

/-!
# Objects and prototypes

The heap of the modelled language, as far as reading and assigning members of objects goes.
-/

namespace TransformHub.ObjectHeap

open Js (JsNumber)

abbrev Key := List Char

/-- A value that is no object with members. -/
inductive Leaf where
  | null
  | bool (b : Bool)
  | number (n : JsNumber)
  /-- `NaN` and the infinities -/
  | nonFinite
  | string (text : Key)
  | method (name : Key)
deriving DecidableEq

inductive Value where
  | undefined
  | leaf (l : Leaf)
  | object (a : ℕ)
deriving DecidableEq

structure Obj where
  isArray : Bool
  proto : Option ℕ
  props : OrderedMap Key Value
  methods : List Key

structure Heap where
  obj : ℕ → Obj
  next : ℕ
  written : List ℕ

inductive JsError where
  | typeError
  | rangeError
  | syntaxError

def objectPrototype : ℕ := 0

def arrayPrototype : ℕ := 1

def protoKey : Key := "__proto__".toList

/-- `{}` with these members. -/
def record (props : OrderedMap Key Value) : Obj := ⟨false, some objectPrototype, props, []⟩

def array (props : OrderedMap Key Value) : Obj := ⟨true, some arrayPrototype, props, []⟩

/-- What a lookup finds: nothing, data, or the accessor `__proto__`. -/
inductive Found where
  | nothing
  | data (v : Value)
  | accessor

namespace Heap

def alloc (h : Heap) (o : Obj) : Heap × ℕ :=
  ({ h with obj := Function.update h.obj h.next o, next := h.next + 1 }, h.next)

def write (h : Heap) (a : ℕ) (o : Obj) : Heap :=
  { h with obj := Function.update h.obj a o, written := a :: h.written }

def setOwn (h : Heap) (a : ℕ) (k : Key) (v : Value) : Heap :=
  h.write a { h.obj a with props := (h.obj a).props.set k v }

/-- The lookup along the prototypes, of which there are at most as many as objects. -/
def lookup (h : Heap) (k : Key) : ℕ → ℕ → Found
  | 0, _ => .nothing
  | n + 1, a =>
    match (h.obj a).props.get? k with
    | some v => .data v
    | none =>
      if k ∈ (h.obj a).methods then .data (.leaf (.method k))
      else if a = objectPrototype ∧ k = protoKey then .accessor
      else
        match (h.obj a).proto with
        | none => .nothing
        | some p => lookup h k n p

def find (h : Heap) (a : ℕ) (k : Key) : Found := h.lookup k (h.next + 1) a

/-- What `__proto__` reads. -/
def prototypeOf (h : Heap) (a : ℕ) : Value :=
  match (h.obj a).proto with
  | some p => .object p
  | none => .leaf .null

/-- `a[k]` -/
def get (h : Heap) (a : ℕ) (k : Key) : Value :=
  match h.find a k with
  | .nothing => .undefined
  | .data v => v
  | .accessor => h.prototypeOf a

def chain (h : Heap) : ℕ → ℕ → List ℕ
  | 0, _ => []
  | n + 1, a => a :: match (h.obj a).proto with
      | none => []
      | some p => chain h n p

/-- What assigning to `__proto__` does: the prototype of `Object.prototype` cannot be replaced, no
object becomes its own prototype, and a primitive is ignored. -/
def setPrototype (h : Heap) (a : ℕ) : Value → Except JsError Heap
  | .object p =>
    if (h.obj a).proto = some p then .ok h
    else if a = objectPrototype ∨ a ∈ h.chain (h.next + 1) p then .error .typeError
    else .ok (h.write a { h.obj a with proto := some p })
  | .leaf .null =>
    if (h.obj a).proto = none then .ok h
    else if a = objectPrototype then .error .typeError
    else .ok (h.write a { h.obj a with proto := none })
  | _ => .ok h

/-- `a[k] = v` -/
def put (h : Heap) (a : ℕ) (k : Key) (v : Value) : Except JsError Heap :=
  match h.find a k with
  | .accessor => h.setPrototype a v
  | _ => .ok (h.setOwn a k v)

def keys (h : Heap) (a : ℕ) : List Key :=
  (h.obj a).props.keys.filter fun k => decide (k ∉ (h.obj a).methods)

/-! ## Objects as nested records -/

/-- The value of an enumerable member. -/
def own (h : Heap) (a : ℕ) (k : Key) : Value :=
  if k ∈ (h.obj a).methods then .undefined else ((h.obj a).props.get? k).getD .undefined

end Heap

/-- A leaf, or an object that is not looked into. -/
inductive Scalar where
  | leaf (l : Leaf)
  | foreign (a : ℕ)

namespace Heap

/-- What a value is, where objects below `b` that are no arrays are not looked into. -/
def kind (h : Heap) (b : ℕ) : Value → Kind Scalar
  | .undefined => .absent
  | .leaf l => .scalar (.leaf l)
  | .object a =>
    if (h.obj a).isArray then .list
    else if a < b then .scalar (.foreign a)
    else .record

def member (h : Heap) : Value → Key → Value
  | .object a, k => h.own a k
  | _, _ => .undefined

/-- What a value looks like, where objects below `b` are not looked into. -/
def viewFrom (h : Heap) (b : ℕ) (v : Value) : View Key (Content Key Scalar) :=
  View.ofTree (h.kind b) h.member v

/-- What a value looks like. -/
def view (h : Heap) (v : Value) : View Key (Content Key Scalar) := h.viewFrom 0 v

end Heap

def Obj.Refers (o : Obj) (c : ℕ) : Prop :=
  (∃ k, o.props.get? k = some (.object c)) ∨ o.proto = some c

/-- Nothing outside `D` refers to an object in `D`, or to no object at all. -/
def Heap.Sealed (h : Heap) (D : Set ℕ) : Prop :=
  ∀ a, a < h.next → a ∉ D → ∀ c, (h.obj a).Refers c → c < h.next ∧ c ∉ D

/-- The value is no object of `D`. -/
def Heap.Outside (h : Heap) (D : Set ℕ) (v : Value) : Prop :=
  ∀ c, v = .object c → c < h.next ∧ c ∉ D

/-- `Object.prototype` is as the language provides it. -/
structure Heap.Pristine (h : Heap) : Prop where
  isArray : (h.obj objectPrototype).isArray = false
  proto : (h.obj objectPrototype).proto = none
  props : (h.obj objectPrototype).props = OrderedMap.empty
  methods : protoKey ∉ (h.obj objectPrototype).methods

/-- An object that an object literal or a JSON text gives. -/
structure Heap.Ordinary (h : Heap) (a : ℕ) : Prop where
  isArray : (h.obj a).isArray = false
  proto : (h.obj a).proto = some objectPrototype
  methods : (h.obj a).methods = []

namespace Heap

variable {h h' : Heap} {a b c : ℕ} {k j : Key} {v : Value} {o : Obj} {D : Set ℕ}

/-! ## Allocation and assignment -/

@[simp] theorem next_alloc : (h.alloc o).1.next = h.next + 1 := rfl

@[simp] theorem written_alloc : (h.alloc o).1.written = h.written := rfl

theorem obj_alloc_self : (h.alloc o).1.obj h.next = o := Function.update_self ..

theorem obj_alloc_of_ne (ha : a ≠ h.next) : (h.alloc o).1.obj a = h.obj a :=
  Function.update_of_ne ha ..

theorem obj_write_self : (h.write a o).obj a = o := Function.update_self ..

theorem obj_write_of_ne (hc : c ≠ a) : (h.write a o).obj c = h.obj c :=
  Function.update_of_ne hc ..

theorem obj_setOwn_self :
    (h.setOwn a k v).obj a = { h.obj a with props := (h.obj a).props.set k v } :=
  obj_write_self

theorem obj_setOwn_of_ne (hc : c ≠ a) : (h.setOwn a k v).obj c = h.obj c := obj_write_of_ne hc

@[simp] theorem isArray_setOwn : ((h.setOwn a k v).obj c).isArray = (h.obj c).isArray := by
  by_cases hc : c = a
  · subst hc
    rw [obj_setOwn_self]
  · rw [obj_setOwn_of_ne hc]

@[simp] theorem proto_setOwn : ((h.setOwn a k v).obj c).proto = (h.obj c).proto := by
  by_cases hc : c = a
  · subst hc
    rw [obj_setOwn_self]
  · rw [obj_setOwn_of_ne hc]

@[simp] theorem methods_setOwn : ((h.setOwn a k v).obj c).methods = (h.obj c).methods := by
  by_cases hc : c = a
  · subst hc
    rw [obj_setOwn_self]
  · rw [obj_setOwn_of_ne hc]

theorem own_congr (ho : h'.obj a = h.obj a) : h'.own a k = h.own a k := by
  rw [own, own, ho]

theorem own_setOwn_self (hm : (h.obj a).methods = []) : (h.setOwn a k v).own a k = v := by
  simp [own, obj_setOwn_self, hm]

theorem own_setOwn_of_ne (hj : j ≠ k) : (h.setOwn a k v).own a j = h.own a j := by
  simp [own, obj_setOwn_self, OrderedMap.get?_set_of_ne _ (Ne.symm hj)]

theorem own_eq_object (hown : h.own a k = .object c) :
    (h.obj a).props.get? k = some (.object c) := by
  unfold own at hown
  split at hown
  · cases hown
  · cases hget : (h.obj a).props.get? k with
    | none =>
      rw [hget] at hown
      cases hown
    | some w =>
      rw [hget] at hown
      exact congrArg some hown

theorem mem_keys_iff : k ∈ h.keys a ↔ ((h.obj a).props.get? k).isSome ∧ k ∉ (h.obj a).methods := by
  rw [keys, List.mem_filter, OrderedMap.mem_keys_iff, decide_eq_true_iff]

theorem keys_nodup (h : Heap) (a : ℕ) : (h.keys a).Nodup :=
  (OrderedMap.keys_nodup _).filter _

theorem own_of_notMem_keys (hk : k ∉ h.keys a) : h.own a k = .undefined := by
  unfold own
  split
  · rfl
  · rename_i hmethods
    have hnone : ¬ ((h.obj a).props.get? k).isSome := fun hs => hk (mem_keys_iff.mpr ⟨hs, hmethods⟩)
    rw [Option.not_isSome_iff_eq_none.mp hnone]
    rfl

theorem get_of_mem_keys (hk : k ∈ h.keys a) : h.get a k = h.own a k := by
  obtain ⟨hsome, hmethods⟩ := mem_keys_iff.mp hk
  obtain ⟨w, hw⟩ := Option.isSome_iff_exists.mp hsome
  simp [get, find, lookup, own, hmethods, hw]

/-! ## Reading an ordinary object -/

theorem find_ordinary (hp : h.Pristine) (ho : h.Ordinary a) (ha : a ≠ objectPrototype)
    (hnext : 1 ≤ h.next) :
    h.find a k = match (h.obj a).props.get? k with
      | some v => .data v
      | none =>
        if k = protoKey then .accessor
        else if k ∈ (h.obj objectPrototype).methods then .data (.leaf (.method k))
        else .nothing := by
  obtain ⟨n, hn⟩ : ∃ n, h.next + 1 = n + 2 := ⟨h.next - 1, by omega⟩
  rw [find, hn, lookup]
  cases hget : (h.obj a).props.get? k with
  | some v => rfl
  | none =>
    rw [ho.methods, ho.proto]
    simp only [List.not_mem_nil, if_false, ha, false_and]
    rw [lookup, hp.props, OrderedMap.get?_empty, hp.proto]
    by_cases hk : k = protoKey
    · subst hk
      simp [hp.methods]
    · simp [hk]

theorem get_ordinary (hp : h.Pristine) (ho : h.Ordinary a) (ha : a ≠ objectPrototype)
    (hnext : 1 ≤ h.next) (hk : k ≠ protoKey) (hc : h.get a k = .object c ∨ h.own a k = .object c) :
    h.get a k = .object c ∧ h.own a k = .object c := by
  have hfind := find_ordinary (k := k) hp ho ha hnext
  simp only [get, hfind, own, ho.methods, List.not_mem_nil, if_false] at hc ⊢
  cases hget : (h.obj a).props.get? k with
  | some v =>
    rw [hget] at hc
    simpa using hc
  | none =>
    rw [hget] at hc
    simp only [hk, if_false] at hc
    split_ifs at hc <;> simp at hc

theorem lookup_ne_accessor (hk : k ≠ protoKey) (n : ℕ) (a : ℕ) : h.lookup k n a ≠ .accessor := by
  induction n generalizing a with
  | zero => simp [lookup]
  | succ n ih =>
    rw [lookup]
    cases (h.obj a).props.get? k with
    | some w => simp
    | none =>
      simp only [hk, and_false, if_false]
      split_ifs
      · simp
      · cases (h.obj a).proto with
        | none => simp
        | some q => exact ih q

theorem put_of_ne (hk : k ≠ protoKey) (a : ℕ) (v : Value) : h.put a k v = .ok (h.setOwn a k v) := by
  unfold put
  split
  · rename_i hfind
    exact absurd hfind (lookup_ne_accessor hk _ _)
  · rfl

/-! ## Sealing -/

theorem outside_undefined : h.Outside D .undefined := nofun

theorem outside_leaf (l : Leaf) : h.Outside D (.leaf l) := nofun

section

variable (hs : h.Sealed D)
include hs

theorem Sealed.lookup {n : ℕ} (ha : a < h.next) (haD : a ∉ D)
    (hfound : h.lookup k n a = .data v) : h.Outside D v := by
  induction n generalizing a with
  | zero => cases hfound
  | succ n ih =>
    rw [Heap.lookup] at hfound
    cases hget : (h.obj a).props.get? k with
    | some w =>
      rw [hget] at hfound
      cases hfound
      rintro c rfl
      exact hs a ha haD c (.inl ⟨k, hget⟩)
    | none =>
      rw [hget] at hfound
      simp only at hfound
      split_ifs at hfound
      · cases hfound
        exact outside_leaf _
      · cases hproto : (h.obj a).proto with
        | none =>
          rw [hproto] at hfound
          cases hfound
        | some q =>
          rw [hproto] at hfound
          obtain ⟨hq, hqD⟩ := hs a ha haD q (.inr hproto)
          exact ih hq hqD hfound

theorem Sealed.prototypeOf (ha : a < h.next) (haD : a ∉ D) : h.Outside D (h.prototypeOf a) := by
  intro c hc
  unfold Heap.prototypeOf at hc
  cases hproto : (h.obj a).proto with
  | none =>
    rw [hproto] at hc
    cases hc
  | some p =>
    rw [hproto] at hc
    cases hc
    exact hs a ha haD _ (.inr hproto)

theorem Sealed.get (ha : a < h.next) (haD : a ∉ D) (k : Key) : h.Outside D (h.get a k) := by
  unfold Heap.get
  cases hfound : h.find a k with
  | nothing => exact outside_undefined
  | data w => exact hs.lookup ha haD hfound
  | accessor => exact hs.prototypeOf ha haD

theorem Sealed.alloc (ho : ∀ c, o.Refers c → c < h.next ∧ c ∉ D) : (h.alloc o).1.Sealed D := by
  intro a ha haD c hc
  rw [next_alloc] at ha ⊢
  by_cases hnew : a = h.next
  · subst hnew
    rw [obj_alloc_self] at hc
    exact ⟨Nat.lt_succ_of_lt (ho c hc).1, (ho c hc).2⟩
  · rw [obj_alloc_of_ne hnew] at hc
    obtain ⟨hlt, hcD⟩ := hs a (by omega) haD c hc
    exact ⟨Nat.lt_succ_of_lt hlt, hcD⟩

theorem Sealed.setOwn (hv : h.Outside D v) : (h.setOwn a k v).Sealed D := by
  intro x hx hxD c hc
  by_cases hxa : x = a
  · subst hxa
    rw [obj_setOwn_self] at hc
    rcases hc with ⟨j, hj⟩ | hproto
    · have hj : ((h.obj x).props.set k v).get? j = some (.object c) := hj
      rw [OrderedMap.get?_set] at hj
      split_ifs at hj
      · exact hv c (Option.some.inj hj)
      · exact hs x hx hxD c (.inl ⟨j, hj⟩)
    · exact hs x hx hxD c (.inr hproto)
  · rw [obj_setOwn_of_ne hxa] at hc
    exact hs x hx hxD c hc

theorem Sealed.setOwn_of_mem (ha : a ∈ D) : (h.setOwn a k v).Sealed D := by
  intro x hx hxD c hc
  have hxa : x ≠ a := by
    rintro rfl
    exact hxD ha
  rw [obj_setOwn_of_ne hxa] at hc
  exact hs x hx hxD c hc

theorem Sealed.writeProto {p : Option ℕ}
    (hp : ∀ c, p = some c → c < h.next ∧ c ∉ D) :
    (h.write a { h.obj a with proto := p }).Sealed D := by
  intro x hx hxD c hc
  by_cases hxa : x = a
  · subst hxa
    rw [obj_write_self] at hc
    rcases hc with hprop | hproto
    · exact hs x hx hxD c (.inl hprop)
    · exact hp c hproto
  · rw [obj_write_of_ne hxa] at hc
    exact hs x hx hxD c hc

end

end Heap

end TransformHub.ObjectHeap
