import TransformHub.Lib.OrderedMap

/-!
# Data values of the modelled language

`JsValue` is what a function that takes `unknown` can be handed: primitives, functions and symbols
(`nonData`), arrays that may have absent elements and further named members, and objects that may be
class instances or have accessors or symbol keys (`plain = false`).
-/

namespace TransformHub.Js

instance lawfulBEqText : LawfulBEq (List Char) := inferInstance

/-! ## Numbers -/

/-- A finite number `unscaled / 10 ^ scale`, in shortest form. -/
structure JsNumber where
  unscaled : Int
  scale : ℕ
  canonical : scale = 0 ∨ ¬ (10 : Int) ∣ unscaled
deriving DecidableEq

namespace JsNumber

def ofInt (i : Int) : JsNumber := ⟨i, 0, .inl rfl⟩

def ofNat (n : ℕ) : JsNumber := ofInt n

def maxSafeInteger : ℕ := 9007199254740991

/-- The value of a number with `Number.isSafeInteger(n) && n >= 0`. -/
def toSafeNat? (n : JsNumber) : Option ℕ :=
  if n.scale = 0 ∧ 0 ≤ n.unscaled ∧ n.unscaled.toNat ≤ maxSafeInteger then some n.unscaled.toNat
  else none

end JsNumber

/-! ## Values -/

inductive JsValue where
  | undefined
  /-- an absent element of an array; reading it gives `undefined` -/
  | hole
  | null
  | bool (b : Bool)
  | num (n : JsNumber)
  /-- `NaN` and the infinities -/
  | nonFinite
  | str (s : String)
  /-- a function, a symbol or a big integer -/
  | nonData
  | arr (plain : Bool) (elems : List JsValue) (extra : List (String × JsValue))
  | obj (plain : Bool) (props : List (String × JsValue))

inductive Json where
  | null
  | bool (b : Bool)
  | num (n : JsNumber)
  | str (s : String)
  | arr (elems : List Json)
  | obj (members : List (String × Json))

instance : Inhabited JsValue := ⟨.undefined⟩

instance : Inhabited Json := ⟨.null⟩

namespace JsValue

/-- The value under key `k`; a member that is `undefined` reads like an absent one. -/
def member (k : String) : List (String × JsValue) → JsValue
  | [] => .undefined
  | (_, .undefined) :: ps => member k ps
  | (k', v) :: ps => if k' = k then v else member k ps

/-- `v[k]` for a named member `k`. -/
def get (v : JsValue) (k : String) : JsValue :=
  match v with
  | .arr _ _ extra => member k extra
  | .obj _ props => member k props
  | _ => .undefined

/-- `typeof v === "object" && v !== null`. -/
def isObject : JsValue → Bool
  | .arr .. => true
  | .obj .. => true
  | _ => false

def str? : JsValue → Option String
  | .str s => some s
  | _ => none

/-- The value of a number with `Number.isSafeInteger(v) && v >= 0`. -/
def safeNat? : JsValue → Option ℕ
  | .num n => n.toSafeNat?
  | _ => none

def elems? : JsValue → Option (List JsValue)
  | .arr _ es _ => some es
  | _ => none

def isNull : JsValue → Bool
  | .null => true
  | _ => false

def isUndefined : JsValue → Bool
  | .undefined => true
  | _ => false

def isHole : JsValue → Bool
  | .hole => true
  | _ => false

/-- `elems.every(p)`, which skips absent elements. -/
def every (p : JsValue → Bool) (elems : List JsValue) : Bool :=
  elems.all fun v => v.isHole || p v

end JsValue

namespace Json

/-- The value under key `k`. -/
def get? (j : Json) (k : String) : Option Json :=
  match j with
  | .obj ms => OrderedMap.lookupEntry k ms
  | _ => none

def str? : Json → Option String
  | .str s => some s
  | _ => none

/-- The string under key `k`. -/
def getStr? (j : Json) (k : String) : Option String := (j.get? k).bind str?

/-- The elements of an array; anything else has none. -/
def elems : Json → List Json
  | .arr es => es
  | _ => []

/-- The elements of the array under key `k`. -/
def getElems (j : Json) (k : String) : List Json := ((j.get? k).map elems).getD []

/-- `{ ...j, [k]: x }`. -/
def set (j : Json) (k : String) (x : Json) : Json :=
  match j with
  | .obj ms => .obj (OrderedMap.setEntry k x ms)
  | j => j

/-- What a destructuring `({ [k]: _, ...rest })` leaves of `j`. -/
def without (j : Json) (k : String) : Json :=
  match j with
  | .obj ms => .obj (ms.filter fun e => e.1 ≠ k)
  | j => j

/-- An object literal; a member that is `undefined` is absent. -/
def record (ms : List (String × Option Json)) : Json :=
  .obj (ms.filterMap fun e => e.2.map fun x => (e.1, x))

mutual

def toValue : Json → JsValue
  | .null => .null
  | .bool b => .bool b
  | .num n => .num n
  | .str s => .str s
  | .arr es => .arr true (toValues es) []
  | .obj ms => .obj true (toProps ms)
termination_by structural j => j

def toValues : List Json → List JsValue
  | [] => []
  | j :: js => toValue j :: toValues js
termination_by structural js => js

def toProps : List (String × Json) → List (String × JsValue)
  | [] => []
  | (k, j) :: ms => (k, toValue j) :: toProps ms
termination_by structural ms => ms

end

theorem toValue_ne_undefined (j : Json) : j.toValue ≠ .undefined := by
  cases j <;> simp [toValue]

theorem toValues_eq_map (js : List Json) : toValues js = js.map toValue := by
  induction js with
  | nil => rfl
  | cons j js ih => rw [toValues, ih, List.map_cons]

/-! ### Member laws -/

theorem get?_set (k k' : String) (x : Json) (ms : List (String × Json)) :
    ((obj ms).set k x).get? k' = if k = k' then some x else (obj ms).get? k' :=
  OrderedMap.lookupEntry_setEntry k k' x ms

theorem get?_record_head (k : String) (x : Json) (ms : List (String × Option Json)) :
    (record ((k, some x) :: ms)).get? k = some x := by
  simp [record, get?, OrderedMap.lookupEntry]

theorem get?_without (j : Json) {k k' : String} (h : k ≠ k') :
    (j.without k).get? k' = j.get? k' := by
  cases j with
  | obj ms =>
    simp only [without, get?]
    rw [OrderedMap.lookupEntry_filter_ne, if_neg h]
  | _ => rfl

theorem without_set (j : Json) (k : String) (x : Json) : (j.set k x).without k = j.without k := by
  cases j with
  | obj ms =>
    have h : ∀ ms : List (String × Json),
        (OrderedMap.setEntry k x ms).filter (fun e => e.1 ≠ k) =
          ms.filter fun e => e.1 ≠ k := by
      intro ms
      induction ms with
      | nil => simp [OrderedMap.setEntry]
      | cons e ms ih =>
        obtain ⟨k', y⟩ := e
        by_cases hk : k' = k
        · simp [OrderedMap.setEntry, hk]
        · simp only [OrderedMap.setEntry, hk, if_false, List.filter_cons, ih]
    simp only [set, without, h ms]
  | _ => rfl

theorem without_without (j : Json) (k : String) : (j.without k).without k = j.without k := by
  cases j with
  | obj ms => simp [without]
  | _ => rfl

end Json

namespace JsValue

theorem member_toProps (k : String) (ms : List (String × Json)) :
    member k (Json.toProps ms) =
      ((OrderedMap.lookupEntry k ms).map Json.toValue).getD .undefined := by
  induction ms with
  | nil => rfl
  | cons e ms ih =>
    obtain ⟨k', j⟩ := e
    rw [Json.toProps, member]
    · by_cases hk : k' = k <;> simp [OrderedMap.lookupEntry, hk, ih]
    · exact fun h => Json.toValue_ne_undefined j h

theorem get_toValue (j : Json) (k : String) :
    j.toValue.get k = ((j.get? k).map Json.toValue).getD .undefined := by
  cases j with
  | obj ms => exact member_toProps k ms
  | _ => rfl

@[simp] theorem str?_toValue (j : Json) : j.toValue.str? = j.str? := by
  cases j <;> rfl

@[simp] theorem str?_get_toValue (j : Json) (k : String) :
    (j.toValue.get k).str? = j.getStr? k := by
  rw [get_toValue, Json.getStr?]
  cases j.get? k with
  | none => rfl
  | some x => simp

end JsValue

end TransformHub.Js
