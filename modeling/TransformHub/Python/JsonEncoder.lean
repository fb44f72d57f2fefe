import TransformHub.Lib.CodePoint

/-!
# The JSON encoder of Python

`json.dumps(v, separators=(",", ":"), ensure_ascii=False, allow_nan=False)`, of values in which an
object that is reached again is cut.
-/

namespace TransformHub.Python

/-- A text, which may hold lone surrogates. -/
abbrev Text := List CodePoint

def ofString (s : String) : Text := s.toList.map CodePoint.ofChar

def ofChars (cs : List Char) : Text := cs.map CodePoint.ofChar

inductive Error where
  | typeError (message : Text)
  | valueError (message : Text)
  | jsonDecodeError
  | unicodeEncodeError
  | unicodeDecodeError
  | recursionError

/-! ## Values -/

/-- A number as JSON writes it: `fraction` is empty where there is none, and an exponent is its
sign and its digits. -/
structure NumberText where
  negative : Bool
  whole : List Char
  fraction : List Char
  exponent : Option (Option Char × List Char)

namespace NumberText

def isFloat (t : NumberText) : Bool := !t.fraction.isEmpty || t.exponent.isSome

def fractionText : List Char → List Char
  | [] => []
  | d :: ds => '.' :: d :: ds

def exponentText : Option (Option Char × List Char) → List Char
  | none => []
  | some (mark, digits) => 'e' :: (mark.toList ++ digits)

def chars (t : NumberText) : List Char :=
  (if t.negative then ['-'] else []) ++ t.whole ++ fractionText t.fraction ++
    exponentText t.exponent

/-- The whole part has no leading zero, and an exponent has digits. -/
structure Valid (t : NumberText) : Prop where
  whole : t.whole ≠ [] ∧ (∀ c ∈ t.whole, c.isDigit = true) ∧
    (t.whole.head? = some '0' → t.whole = ['0'])
  fraction : ∀ c ∈ t.fraction, c.isDigit = true
  exponent : ∀ e ∈ t.exponent, e.2 ≠ [] ∧ (∀ c ∈ e.2, c.isDigit = true) ∧
    (e.1 = none ∨ e.1 = some '+' ∨ e.1 = some '-')

end NumberText

/-- The finite floats: `repr(x)`, which is a JSON number with a fraction or an exponent, and
`float(text)`, which is infinite where there is none. -/
structure Floats (F : Type) where
  repr : F → NumberText
  valid : ∀ x, (repr x).Valid
  isFloat : ∀ x, (repr x).isFloat = true
  ofText : NumberText → Option F

/-- A key of a dictionary. `other` is one that JSON does not have, with the name of its class. -/
inductive Key (F : Type) where
  | str (t : Text)
  | int (i : Int)
  | float (x : F)
  | nonFinite
  | bool (b : Bool)
  | none
  | other (className : Text)

/-- A value. `circular` is a list or dictionary that contains itself, where it is reached again;
`other` is an object that JSON does not have, with the name of its class. -/
inductive Value (F : Type) where
  | none
  | bool (b : Bool)
  | int (i : Int)
  | float (x : F)
  | nonFinite
  | str (t : Text)
  | list (elems : List (Value F))
  | dict (items : List (Key F × Value F))
  | circular
  | other (className : Text)

/-! ## Texts -/

def hexDigits : List Char := "0123456789abcdef".toList

/-- `'{0:x}'.format(n)` of a digit. -/
def hexDigit (n : ℕ) : Char := hexDigits.getD n '0'

/-- `ESCAPE_DCT`, and the characters that are written as they are. -/
def escapeChar (c : Char) : List Char :=
  if c = '\\' then ['\\', '\\']
  else if c = '"' then ['\\', '"']
  else if c = '\x08' then ['\\', 'b']
  else if c = '\x0c' then ['\\', 'f']
  else if c = '\n' then ['\\', 'n']
  else if c = '\r' then ['\\', 'r']
  else if c = '\t' then ['\\', 't']
  else if c.toNat < 0x20 then
    ['\\', 'u', '0', '0', hexDigit (c.toNat / 16), hexDigit (c.toNat % 16)]
  else [c]

def escapeChars (cs : List Char) : List Char := cs.flatMap escapeChar

/-- A surrogate is written as it is. -/
def escape (p : CodePoint) : Text :=
  match p.toChar? with
  | some c => ofChars (escapeChar c)
  | none => [p]

/-- `py_encode_basestring`. -/
def quote (t : Text) : Text := ofChars ['"'] ++ t.flatMap escape ++ ofChars ['"']

/-- `int.__repr__`. -/
def intChars (i : Int) : List Char :=
  if i < 0 then '-' :: Nat.toDigits 10 i.natAbs else Nat.toDigits 10 i.natAbs

/-- `sys.get_int_max_str_digits()`. -/
def maxStrDigits : ℕ := 4300

def intLimitError : Error :=
  .valueError (ofString "Exceeds the limit (4300 digits) for integer string conversion; " ++
    ofString "use sys.set_int_max_str_digits() to increase the limit")

def nonFiniteError : Error :=
  .valueError (ofString "Out of range float values are not JSON compliant")

def circularError : Error := .valueError (ofString "Circular reference detected")

def serializableError (className : Text) : Error :=
  .typeError (ofString "Object of type " ++ className ++ ofString " is not JSON serializable")

def keyError (className : Text) : Error :=
  .typeError (ofString "keys must be str, int, float, bool or None, not " ++ className)

/-- The error of `int.__repr__`. -/
def intFault (i : Int) : Option Error :=
  if maxStrDigits < (Nat.toDigits 10 i.natAbs).length then some intLimitError else none

def boolChars (b : Bool) : List Char := if b then "true".toList else "false".toList

/-- The values of a list with commas between them. -/
def joined : List Text → Text
  | [] => []
  | [t] => t
  | t :: ts => t ++ ofChars [','] ++ joined ts

section Encoder

variable {F : Type} (fl : Floats F)

def Key.fault : Key F → Option Error
  | .int i => intFault i
  | .nonFinite => some nonFiniteError
  | .other className => some (keyError className)
  | _ => Option.none

def Key.text : Key F → Text
  | .str t => t
  | .int i => ofChars (intChars i)
  | .float x => ofChars (fl.repr x).chars
  | .bool b => ofChars (boolChars b)
  | .none => ofString "null"
  | _ => []

def dumpKey (k : Key F) : Except Error Text :=
  match k.fault with
  | some e => .error e
  | Option.none => .ok (quote (k.text fl))

def dumpInt (i : Int) : Except Error Text :=
  match intFault i with
  | some e => .error e
  | Option.none => .ok (ofChars (intChars i))

mutual

/-- `json.dumps`, when the recursion may go `depth` levels deep. -/
def dumps : ℕ → Value F → Except Error Text
  | _, .none => .ok (ofString "null")
  | _, .bool b => .ok (ofChars (boolChars b))
  | _, .int i => dumpInt i
  | _, .float x => .ok (ofChars (fl.repr x).chars)
  | _, .nonFinite => .error nonFiniteError
  | _, .str t => .ok (quote t)
  | 0, .list _ => .error .recursionError
  | depth + 1, .list elems => do
      let ts ← dumpElems depth elems
      return ofChars ['['] ++ joined ts ++ ofChars [']']
  | 0, .dict _ => .error .recursionError
  | depth + 1, .dict items => do
      let ts ← dumpItems depth items
      return ofChars ['{'] ++ joined ts ++ ofChars ['}']
  | 0, .circular => .error .recursionError
  | _ + 1, .circular => .error circularError
  | _, .other className => .error (serializableError className)
termination_by structural _ v => v

def dumpElems : ℕ → List (Value F) → Except Error (List Text)
  | _, [] => .ok []
  | depth, v :: vs => do
      let t ← dumps depth v
      let ts ← dumpElems depth vs
      return t :: ts
termination_by structural _ vs => vs

def dumpItems : ℕ → List (Key F × Value F) → Except Error (List Text)
  | _, [] => .ok []
  | depth, (k, v) :: items => do
      let key ← dumpKey fl k
      let t ← dumps depth v
      let ts ← dumpItems depth items
      return (key ++ ofChars [':'] ++ t) :: ts
termination_by structural _ items => items

end

/-! ## What is written -/

mutual

/-- The error of the first value that is not encoded. -/
def fault : ℕ → Value F → Option Error
  | _, .int i => intFault i
  | _, .nonFinite => some nonFiniteError
  | 0, .list _ => some .recursionError
  | depth + 1, .list elems => faultElems depth elems
  | 0, .dict _ => some .recursionError
  | depth + 1, .dict items => faultItems depth items
  | 0, .circular => some .recursionError
  | _ + 1, .circular => some circularError
  | _, .other className => some (serializableError className)
  | _, .none | _, .bool _ | _, .float _ | _, .str _ => Option.none
termination_by structural _ v => v

def faultElems : ℕ → List (Value F) → Option Error
  | _, [] => Option.none
  | depth, v :: vs => (fault depth v).or (faultElems depth vs)
termination_by structural _ vs => vs

def faultItems : ℕ → List (Key F × Value F) → Option Error
  | _, [] => Option.none
  | depth, (k, v) :: items => k.fault.or ((fault depth v).or (faultItems depth items))
termination_by structural _ items => items

end

mutual

def Value.text : Value F → Text
  | .none => ofString "null"
  | .bool b => ofChars (boolChars b)
  | .int i => ofChars (intChars i)
  | .float x => ofChars (fl.repr x).chars
  | .str t => quote t
  | .list elems => ofChars ['['] ++ joined (textElems elems) ++ ofChars [']']
  | .dict items => ofChars ['{'] ++ joined (textItems items) ++ ofChars ['}']
  | .nonFinite | .circular | .other _ => []
termination_by structural v => v

def textElems : List (Value F) → List Text
  | [] => []
  | v :: vs => v.text :: textElems vs
termination_by structural vs => vs

def textItems : List (Key F × Value F) → List Text
  | [] => []
  | (k, v) :: items => (quote (k.text fl) ++ ofChars [':'] ++ v.text) :: textItems items
termination_by structural items => items

end

/-- A result that is the error where there is one. -/
def orFault {α : Type} (e : Option Error) (a : α) : Except Error α :=
  match e with
  | some e => .error e
  | Option.none => .ok a

mutual

theorem dumps_eq : ∀ (depth : ℕ) (v : Value F),
    dumps fl depth v = orFault (fault depth v) (v.text fl)
  | _, .none => rfl
  | _, .bool _ => rfl
  | _, .int i => by
      rw [dumps, dumpInt, fault, Value.text]
      cases intFault i <;> rfl
  | _, .float _ => rfl
  | _, .nonFinite => rfl
  | _, .str _ => rfl
  | 0, .list _ => rfl
  | depth + 1, .list elems => by
      rw [dumps, fault, Value.text, dumpElems_eq]
      cases faultElems depth elems <;> rfl
  | 0, .dict _ => rfl
  | depth + 1, .dict items => by
      rw [dumps, fault, Value.text, dumpItems_eq]
      cases faultItems depth items <;> rfl
  | 0, .circular => rfl
  | _ + 1, .circular => rfl
  | _, .other _ => rfl
termination_by structural _ v => v

theorem dumpElems_eq : ∀ (depth : ℕ) (vs : List (Value F)),
    dumpElems fl depth vs = orFault (faultElems depth vs) (textElems fl vs)
  | _, [] => rfl
  | depth, v :: vs => by
      rw [dumpElems, faultElems, textElems, dumps_eq, dumpElems_eq]
      cases fault depth v with
      | some e => rfl
      | none => cases faultElems depth vs <;> rfl
termination_by structural _ vs => vs

theorem dumpItems_eq : ∀ (depth : ℕ) (items : List (Key F × Value F)),
    dumpItems fl depth items = orFault (faultItems depth items) (textItems fl items)
  | _, [] => rfl
  | depth, (k, v) :: items => by
      rw [dumpItems, faultItems, textItems, dumpKey, dumps_eq, dumpItems_eq]
      cases k.fault with
      | some e => rfl
      | none =>
        cases fault depth v with
        | some e => rfl
        | none => cases faultItems depth items <;> rfl
termination_by structural _ items => items

end

end Encoder

end TransformHub.Python
