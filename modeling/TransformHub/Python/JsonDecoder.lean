import TransformHub.Lib.OrderedMap
import TransformHub.Python.JsonEncoder

/-!
# The JSON decoder of Python

`json.loads` of a text that has been decoded from bytes. The depth is what the recursion limit
leaves for lists and dictionaries.
-/

namespace TransformHub.Python

/-! ## Strings -/

/-- `_decode_uXXXX`: the value of four hexadecimal digits. -/
def hexValue (c : Char) : Option ℕ :=
  if '0' ≤ c ∧ c ≤ '9' then some (c.toNat - '0'.toNat)
  else if 'a' ≤ c ∧ c ≤ 'f' then some (c.toNat - 'a'.toNat + 10)
  else if 'A' ≤ c ∧ c ≤ 'F' then some (c.toNat - 'A'.toNat + 10)
  else none

def fourHex : List Char → Option (Fin 0x10000 × List Char)
  | a :: b :: c :: d :: rest => do
      let n := ((← hexValue a) * 4096 + (← hexValue b) * 256 + (← hexValue c) * 16 + (← hexValue d))
      if h : n < 0x10000 then some (⟨n, h⟩, rest) else none
  | _ => none

def ofUnit (n : Fin 0x10000) : CodePoint := ⟨n, Nat.lt_trans n.isLt (by decide)⟩

/-- Two surrogates that form a pair are one code point. -/
def pairOf (high low : Fin 0x10000) : Option CodePoint :=
  if h : 0xD800 ≤ high.val ∧ high.val ≤ 0xDBFF ∧ 0xDC00 ≤ low.val ∧ low.val ≤ 0xDFFF then
    some ⟨0x10000 + (high.val - 0xD800) * 1024 + (low.val - 0xDC00), by omega⟩
  else none

/-- What follows `\\u`. -/
def scanUnicode (s : List Char) : Option (CodePoint × List Char) :=
  match fourHex s with
  | none => none
  | some (high, rest) =>
    let alone := some (ofUnit high, rest)
    match rest with
    | '\\' :: 'u' :: rest' =>
      match fourHex rest' with
      | none => alone
      | some (low, rest') =>
        match pairOf high low with
        | some p => some (p, rest')
        | none => alone
    | _ => alone

/-- `BACKSLASH`. -/
def unescape : Char → Option Char
  | '"' => some '"'
  | '\\' => some '\\'
  | '/' => some '/'
  | 'b' => some '\x08'
  | 'f' => some '\x0c'
  | 'n' => some '\n'
  | 'r' => some '\r'
  | 't' => some '\t'
  | _ => none

/-- One code point of a string, or none at the quote that ends it. -/
def scanPiece : List Char → Except Error (Option CodePoint × List Char)
  | [] => .error .jsonDecodeError
  | c :: rest =>
    if c = '"' then .ok (none, rest)
    else if c = '\\' then
      match rest with
      | [] => .error .jsonDecodeError
      | e :: rest =>
        if e = 'u' then
          match scanUnicode rest with
          | some (p, rest) => .ok (some p, rest)
          | none => .error .jsonDecodeError
        else
          match unescape e with
          | some c => .ok (some (CodePoint.ofChar c), rest)
          | none => .error .jsonDecodeError
    else if c.toNat < 0x20 then .error .jsonDecodeError
    else .ok (some (CodePoint.ofChar c), rest)

def scanPieces : ℕ → List Char → Except Error (Text × List Char)
  | 0, _ => .error .jsonDecodeError
  | n + 1, s => do
      match ← scanPiece s with
      | (none, rest) => return ([], rest)
      | (some p, rest) =>
        let (ps, rest) ← scanPieces n rest
        return (p :: ps, rest)

/-- `scanstring`, after the opening quote. -/
def scanString (s : List Char) : Except Error (Text × List Char) := scanPieces s.length s

/-! ## Numbers -/

def digits (s : List Char) : List Char × List Char :=
  (s.takeWhile Char.isDigit, s.dropWhile Char.isDigit)

/-- The whole part of a number, which has no leading zero. -/
def scanWhole : List Char → Option (List Char × List Char)
  | [] => none
  | c :: rest =>
    if c = '0' then some (['0'], rest)
    else
      match digits (c :: rest) with
      | ([], _) => none
      | (d :: ds, rest) => some (d :: ds, rest)

def scanFraction (s : List Char) : List Char × List Char :=
  match s with
  | '.' :: rest =>
    match digits rest with
    | ([], _) => ([], s)
    | found => found
  | _ => ([], s)

def scanMark : List Char → Option Char × List Char
  | '+' :: rest => (some '+', rest)
  | '-' :: rest => (some '-', rest)
  | s => (none, s)

def scanExponent (s : List Char) : Option (Option Char × List Char) × List Char :=
  match s with
  | [] => (none, s)
  | c :: rest =>
    if c = 'e' ∨ c = 'E' then
      let (mark, rest) := scanMark rest
      match digits rest with
      | ([], _) => (none, s)
      | (d :: ds, rest) => (some (mark, d :: ds), rest)
    else (none, s)

def matchNumber (s : List Char) : Option (NumberText × List Char) :=
  let (negative, s) := match s with
    | '-' :: rest => (true, rest)
    | s => (false, s)
  match scanWhole s with
  | none => none
  | some (whole, s) =>
    let (fraction, s) := scanFraction s
    let (exponent, s) := scanExponent s
    some (⟨negative, whole, fraction, exponent⟩, s)

section Decoder

variable {F : Type} (fl : Floats F)

/-- `int(text)` or `float(text)`. -/
def numberValue (t : NumberText) : Except Error (Value F) :=
  if t.isFloat then
    match fl.ofText t with
    | some x => .ok (.float x)
    | none => .ok .nonFinite
  else if maxStrDigits < t.whole.length then .error intLimitError
  else
    let n : Int := Nat.ofDigitChars 10 t.whole 0
    .ok (.int (if t.negative then -n else n))

def constants : List (List Char × Value F) :=
  [("null".toList, .none), ("true".toList, .bool true), ("false".toList, .bool false),
    ("NaN".toList, .nonFinite), ("Infinity".toList, .nonFinite), ("-Infinity".toList, .nonFinite)]

/-- A value that is no list and no dictionary. -/
def scanLeaf (s : List Char) : Except Error (Value F × List Char) :=
  if s.head? = some '"' then do
    let (t, rest) ← scanString s.tail
    return (.str t, rest)
  else
    match constants.find? fun e => e.1.isPrefixOf s with
    | some (name, v) => .ok (v, s.drop name.length)
    | none =>
      match matchNumber s with
      | none => .error .jsonDecodeError
      | some (t, rest) => do
          let v ← numberValue fl t
          return (v, rest)

/-! ## Lists and dictionaries -/

def isWhitespace (c : Char) : Bool := c = ' ' || c = '\t' || c = '\n' || c = '\r'

def skipWhitespace (s : List Char) : List Char := s.dropWhile isWhitespace

/-- The elements of a list or the items of a dictionary, up to the bracket that closes it. -/
def scanItems {α : Type} (item : List Char → Except Error (α × List Char)) (close : Char) :
    ℕ → List Char → Except Error (List α × List Char)
  | 0, _ => .error .jsonDecodeError
  | n + 1, s => do
      let (a, rest) ← item s
      let rest := skipWhitespace rest
      if rest.head? = some close then return ([a], rest.tail)
      else if rest.head? = some ',' then
        let (as, rest) ← scanItems item close n (skipWhitespace rest.tail)
        return (a :: as, rest)
      else .error .jsonDecodeError

/-- What follows an opening bracket. -/
def scanBody {α : Type} (item : List Char → Except Error (α × List Char)) (close : Char)
    (s : List Char) : Except Error (List α × List Char) :=
  let s := skipWhitespace s
  if s.head? = some close then .ok ([], s.tail) else scanItems item close s.length s

def scanPair (scan : List Char → Except Error (Value F × List Char)) (s : List Char) :
    Except Error ((Text × Value F) × List Char) :=
  if s.head? = some '"' then do
    let (key, rest) ← scanString s.tail
    let rest := skipWhitespace rest
    if rest.head? = some ':' then
      let (v, rest) ← scan (skipWhitespace rest.tail)
      return ((key, v), rest)
    else .error .jsonDecodeError
  else .error .jsonDecodeError

/-- `PyDict_SetItem` for one item after the other. -/
def dictOf (items : List (Text × Value F)) : List (Key F × Value F) :=
  (items.foldl (fun d e => OrderedMap.setEntry e.1 e.2 d) []).map fun e => (.str e.1, e.2)

def scanOnce : ℕ → List Char → Except Error (Value F × List Char)
  | 0, s =>
    if s.head? = some '[' ∨ s.head? = some '{' then .error .recursionError else scanLeaf fl s
  | depth + 1, s =>
    if s.head? = some '[' then do
      let (vs, rest) ← scanBody (scanOnce depth) ']' s.tail
      return (.list vs, rest)
    else if s.head? = some '{' then do
      let (items, rest) ← scanBody (scanPair (scanOnce depth)) '}' s.tail
      return (.dict (dictOf items), rest)
    else scanLeaf fl s

def loads (depth : ℕ) (s : List Char) : Except Error (Value F) :=
  if s.head? = some '\ufeff' then .error .jsonDecodeError
  else do
    let (v, rest) ← scanOnce fl depth (skipWhitespace s)
    if skipWhitespace rest = [] then return v else .error .jsonDecodeError

end Decoder

end TransformHub.Python
