import TransformHub.Js.Base64
import TransformHub.Js.Text
import TransformHub.Js.Utf8Pieces

/-!
# The structure of a CSR

`validateCsrStructure` of `csr-enrollment.ts`, with its reader of DER.
-/

namespace TransformHub.Manager.CsrEnrollment

open Js

/-! ## DER -/

inductive DerNode where
  | node (tag : UInt8) (value : List UInt8) (children : List DerNode)

namespace DerNode

def tag : DerNode → UInt8
  | node tag _ _ => tag

def value : DerNode → List UInt8
  | node _ value _ => value

def children : DerNode → List DerNode
  | node _ _ children => children

end DerNode

/-- What V8 says when a member of `undefined` is read. -/
def undefinedError (name : String) : String :=
  "Cannot read properties of undefined (reading '" ++ name ++ "')"

/-- The tag of a DER value, the bytes before its contents, and the bytes of its contents. -/
def readHeader : List UInt8 → Except String (UInt8 × ℕ × ℕ)
  | tag :: length :: rest =>
    if length &&& 0x80 = 0 then .ok (tag, 2, length.toNat)
    else
      let count := (length &&& 0x7f).toNat
      if count = 0 ∨ 4 < count ∨ rest.length < count then .error "Invalid DER length"
      else .ok (tag, 2 + count, (rest.take count).foldl (fun n b => n * 256 + b.toNat) 0)
  | _ => .error "Truncated DER"

mutual

/-- `readDer`, with the number of bytes it has read. The first argument bounds the calls inside of
it. -/
def readDer : ℕ → List UInt8 → Except String (DerNode × ℕ)
  | 0, _ => .error "Maximum call stack size exceeded"
  | fuel + 1, bytes => do
      let (tag, header, length) ← readHeader bytes
      if bytes.length < header + length then
        throw "Truncated DER value"
      let value := (bytes.drop header).take length
      let children ← if tag &&& 0x20 = 0 then pure [] else readChildren fuel value
      return (.node tag value children, header + length)

/-- The loop over the contents of a constructed value. -/
def readChildren : ℕ → List UInt8 → Except String (List DerNode)
  | 0, _ => .error "Maximum call stack size exceeded"
  | fuel + 1, value =>
    if value.isEmpty then .ok []
    else do
      let (child, next) ← readDer fuel value
      let children ← readChildren fuel (value.drop next)
      return child :: children

end

/-- `readDer` of a buffer. -/
def readDerAll (bytes : List UInt8) : Except String (DerNode × ℕ) := readDer
    (bytes.length + 1) bytes

/-- The numbers after the first two of an OID, and the bits of one that is not complete. -/
def oidParts (value : ℕ) : List UInt8 → List ℕ × ℕ
  | [] => ([], value)
  | byte :: bytes =>
    let value := value * 128 + (byte &&& 0x7f).toNat
    if byte &&& 0x80 = 0 then (value :: (oidParts 0 bytes).1, (oidParts 0 bytes).2)
    else oidParts value bytes

/-- `derOid`; an OID is the list of its numbers. -/
def derOid (node : Option DerNode) : Except String (List ℕ) :=
  match node with
  | none => .error (undefinedError "tag")
  | some node =>
    let unexpected :=
      "Expected DER OID (tag " ++ String.ofList (Nat.toDigits 16 node.tag.toNat) ++ ")"
    match node.value with
    | [] => .error unexpected
    | first :: rest =>
      let n := first.toNat
      let parts := oidParts 0 rest
      if node.tag ≠ 0x06 then .error unexpected
      else if parts.2 ≠ 0 then .error "Invalid DER OID"
      else .ok (min 2 (n / 40) :: (if 80 ≤ n then n - 80 else n % 40) :: parts.1)

/-- The code units of a text in UTF-16BE. -/
def swappedUnits : List UInt8 → List ℕ
  | high :: low :: bytes => (high.toNat * 256 + low.toNat) :: swappedUnits bytes
  | _ => []

/-- `derText`, as code units. -/
def derText (node : Option DerNode) : Except String (List ℕ) :=
  match node with
  | none => .error (undefinedError "tag")
  | some node =>
    if node.tag ∉ [0x0c, 0x13, 0x16, 0x1e] then .error "Expected directory string"
    else if node.tag = 0x1e then
      if node.value.length % 2 = 0 then .ok (swappedUnits node.value)
      else .error "Buffer size must be a multiple of 16-bits"
    else .ok ((decodeChars node.value).flatMap codeUnits)

/-! ## The text -/

/-- The length of the marker at the front of a text: `-----[^-]+-----`. -/
def markerLength : List Char → Option ℕ
  | '-' :: '-' :: '-' :: '-' :: '-' :: rest =>
    let label := rest.takeWhile (· ≠ '-')
    if label ≠ [] ∧ (rest.drop label.length).take 5 = ['-', '-', '-', '-', '-'] then
      some (10 + label.length)
    else none
  | _ => none

/-- `replace(/-----[^-]+-----/g, "")`; the first argument counts what is left of a marker. -/
def stripMarkers : ℕ → List Char → List Char
  | _, [] => []
  | skip + 1, _ :: cs => stripMarkers skip cs
  | 0, c :: cs =>
    match markerLength (c :: cs) with
    | some length => stripMarkers (length - 1) cs
    | none => c :: stripMarkers 0 cs

def strippedText (csrPem : List Char) : List Char :=
  (stripMarkers 0 csrPem).filter fun c => !isWhiteSpace c

def csrDer (csrPem : List Char) : List UInt8 := fromBase64 (strippedText csrPem)

/-! ## The checks -/

def startsWithOid (oid : List ℕ) (node : DerNode) : Except String Bool :=
  match node.children[0]? with
  | none => .ok false
  | some first => (fun found => decide (found = oid)) <$> derOid (some first)

/-- The attributes of a relative distinguished name that are common names. -/
def commonNameSets : List DerNode → Except String (List DerNode)
  | [] => .ok []
  | set :: sets => do
      let isCommonName ← startsWithOid [2, 5, 4, 3] set
      let rest ← commonNameSets sets
      return if isCommonName then set :: rest else rest

def commonNames : List DerNode → Except String (List (List ℕ))
  | [] => .ok []
  | rdn :: rdns => do
      let sets ← commonNameSets rdn.children
      let names ← sets.mapM fun set => derText set.children[1]?
      let more ← commonNames rdns
      return names ++ more

/-- The loop of `extensionRequest`. -/
def findExtensionRequest : List DerNode → Except String (List DerNode)
  | [] => .error "CSR extension request is missing"
  | item :: items => do
      let isRequest ← startsWithOid [1, 2, 840, 113549, 1, 9, 14] item
      if isRequest then
        return ((item.children[1]?.bind fun set => set.children[0]?).map DerNode.children).getD []
      else findExtensionRequest items

def extensionRequest (info : DerNode) : Except String (List DerNode) :=
  match info.children[3]? with
  | none => .error "CSR attributes are missing"
  | some attrs =>
    if attrs.tag ≠ 0xa0 then .error "CSR attributes are missing"
    else findExtensionRequest attrs.children

/-- `toString("ascii")`, as code units. -/
def asciiUnits (bytes : List UInt8) : List ℕ := bytes.map fun b => b.toNat % 128

def subjectAltName : List ℕ := [2, 5, 29, 17]

def extendedKeyUsage : List ℕ := [2, 5, 29, 37]

def clientAuth : List ℕ := [1, 3, 6, 1, 5, 5, 7, 3, 2]

structure Extensions where
  seen : List (List ℕ)
  dnsNames : List (List ℕ)
  eku : Option (List (List ℕ))

def scanExtensions (found : Extensions) : List DerNode → Except String Extensions
  | [] => .ok found
  | extension :: extensions => do
      let oid ← derOid extension.children[0]?
      if oid ∈ found.seen ∨ oid ∉ [subjectAltName, extendedKeyUsage] then
        throw "CSR contains an unsupported or duplicate extension"
      let critical := (extension.children[1]?.map DerNode.tag) = some 0x01
      match extension.children[if critical then 2 else 1]? with
      | none => throw "Malformed CSR extension"
      | some value =>
        let (decoded, _) ← readDerAll value.value
        let found := { found with seen := oid :: found.seen }
        if oid = subjectAltName then
          let names := decoded.children.filter (·.tag = 0x82)
          scanExtensions
            { found with dnsNames := found.dnsNames ++ names.map fun name => asciiUnits name.value }
            extensions
        else
          let eku ← decoded.children.mapM fun child => derOid (some child)
          scanExtensions { found with eku := some eku } extensions

def validateKey (key : DerNode) : Except String Unit := do
  match key.children[0]? with
  | none => throw (undefinedError "children")
  | some algorithmIdentifier =>
    let algorithmOid ← derOid algorithmIdentifier.children[0]?
    if algorithmOid = [1, 2, 840, 113549, 1, 1, 1] then
      match key.children[1]? with
      | none => throw "CSR RSA key is malformed"
      | some bitString =>
        if bitString.value.length < 2 then
          throw "CSR RSA key is malformed"
        let (rsaKey, _) ← readDerAll (bitString.value.drop 1)
        match rsaKey.children[0]? with
        | none => throw "CSR RSA key is too weak"
        | some modulus =>
          if modulus.tag ≠ 0x02 ∨ modulus.value.length < 256 then
            throw "CSR RSA key is too weak"
    else if algorithmOid = [1, 2, 840, 10045, 2, 1] then
      if algorithmIdentifier.children[1]?.isNone then
        throw "CSR EC curve is not allowed"
      let curve ← derOid algorithmIdentifier.children[1]?
      if curve ∉ [[1, 2, 840, 10045, 3, 1, 7], [1, 3, 132, 0, 34]] then
        throw "CSR EC curve is not allowed"
    else throw "CSR key algorithm is not allowed"

def validateRequestNode (request : DerNode) (hubId : String) : Except String Unit := do
  let hub := hubId.toList.flatMap codeUnits
  if request.tag ≠ 0x30 ∨ request.children.length ≠ 3 then
    throw "Invalid PKCS#10 structure"
  match request.children[0]? with
  | none => throw "Invalid PKCS#10 structure"
  | some info =>
    match info.children[1]?, info.children[2]?, info.children[3]? with
    | some subject, some key, some _ =>
      if info.tag ≠ 0x30 then
        throw "Invalid CSR information structure"
      let names ← commonNames subject.children
      if names ≠ [hub] then
        throw "CSR subject CN does not match Hub ID"
      validateKey key
      let extensions ← extensionRequest info
      let found ← scanExtensions ⟨[], [], none⟩ extensions
      if found.dnsNames ≠ [hub] then
        throw "CSR SAN does not match Hub ID"
      if found.eku ≠ some [clientAuth] then
        throw "CSR EKU must be clientAuth only"
    | _, _, _ => throw "Invalid CSR information structure"

def validateCsrStructure (csrPem : List Char) (hubId : String) : Except String Unit := do
  let (request, _) ← readDerAll (csrDer csrPem)
  validateRequestNode request hubId

def examined (csrPem : List Char) : Except String (List UInt8) := do
  let (_, length) ← readDerAll (csrDer csrPem)
  return (csrDer csrPem).take length

/-! ## Headers of DER values -/

theorem readHeader_cons (tag first : UInt8) (rest : List UInt8) :
    readHeader (tag :: first :: rest) =
      if first &&& 0x80 = 0 then .ok (tag, 2, first.toNat)
      else if (first &&& 0x7f).toNat = 0 ∨ 4 < (first &&& 0x7f).toNat ∨
          rest.length < (first &&& 0x7f).toNat then .error "Invalid DER length"
      else .ok (tag, 2 + (first &&& 0x7f).toNat,
        (rest.take (first &&& 0x7f).toNat).foldl (fun n b => n * 256 + b.toNat) 0) := rfl

theorem readHeader_eq_ok {bytes : List UInt8} {tag : UInt8} {header length : ℕ}
    (hread : readHeader bytes = .ok (tag, header, length)) :
    ∃ first rest, bytes = tag :: first :: rest ∧
      ((first &&& 0x80 = 0 ∧ header = 2 ∧ length = first.toNat) ∨
        (first &&& 0x80 ≠ 0 ∧ header = 2 + (first &&& 0x7f).toNat ∧ (first &&& 0x7f).toNat ≠ 0 ∧
          (first &&& 0x7f).toNat ≤ 4 ∧ (first &&& 0x7f).toNat ≤ rest.length ∧
            length = (rest.take (first &&& 0x7f).toNat).foldl (fun n b => n * 256 + b.toNat) 0)) := by
  match bytes with
  | [] => cases hread
  | [_] => cases hread
  | tag' :: first :: rest =>
    rw [readHeader_cons] at hread
    split_ifs at hread with hshort hbad
    · cases hread
      exact ⟨first, rest, rfl, .inl ⟨hshort, rfl, rfl⟩⟩
    · simp only [not_or, Nat.not_lt] at hbad
      cases hread
      exact ⟨first, rest, rfl, .inr ⟨hshort, rfl, hbad.1, hbad.2.1, hbad.2.2, rfl⟩⟩

theorem readHeader_short {tag first : UInt8} (rest : List UInt8) (h : first &&& 0x80 = 0) :
    readHeader (tag :: first :: rest) = .ok (tag, 2, first.toNat) := by
  rw [readHeader_cons, if_pos h]

theorem readHeader_long {tag first : UInt8} {rest : List UInt8} (h : first &&& 0x80 ≠ 0)
    (hpos : (first &&& 0x7f).toNat ≠ 0) (hfour : (first &&& 0x7f).toNat ≤ 4)
    (hrest : (first &&& 0x7f).toNat ≤ rest.length) :
    readHeader (tag :: first :: rest) = .ok (tag, 2 + (first &&& 0x7f).toNat,
      (rest.take (first &&& 0x7f).toNat).foldl (fun n b => n * 256 + b.toNat) 0) := by
  rw [readHeader_cons, if_neg h, if_neg (by omega)]

theorem readHeader_append {bytes : List UInt8} {tag : UInt8} {header length : ℕ}
    (hread : readHeader bytes = .ok (tag, header, length)) (more : List UInt8) :
    readHeader (bytes ++ more) = .ok (tag, header, length) := by
  obtain ⟨first, rest, rfl, ⟨hshort, rfl, rfl⟩ | ⟨hlong, rfl, hpos, hfour, hrest, rfl⟩⟩ :=
    readHeader_eq_ok hread
  · exact readHeader_short (rest ++ more) hshort
  · have htake : (rest ++ more).take (first &&& 0x7f).toNat = rest.take (first &&& 0x7f).toNat :=
      List.take_append_of_le_length hrest
    rw [← htake]
    exact readHeader_long hlong hpos hfour
      (Nat.le_trans hrest (List.sublist_append_left rest more).length_le)

theorem readHeader_take {bytes : List UInt8} {tag : UInt8} {header length n : ℕ}
    (hread : readHeader bytes = .ok (tag, header, length)) (hn : header ≤ n) :
    readHeader (bytes.take n) = .ok (tag, header, length) := by
  obtain ⟨first, rest, rfl, ⟨hshort, rfl, rfl⟩ | ⟨hlong, rfl, hpos, hfour, hrest, rfl⟩⟩ :=
    readHeader_eq_ok hread
  · obtain ⟨m, rfl⟩ := Nat.exists_eq_add_of_le' hn
    exact readHeader_short (rest.take m) hshort
  · obtain ⟨m, rfl⟩ : ∃ m, n = m + 2 := ⟨n - 2, by omega⟩
    have htake : (rest.take m).take (first &&& 0x7f).toNat = rest.take (first &&& 0x7f).toNat := by
      rw [List.take_take, Nat.min_eq_left (by omega)]
    rw [← htake]
    refine readHeader_long hlong hpos hfour ?_
    rw [List.length_take]
    omega

theorem readHeader_of_readDer {fuel : ℕ} {bytes : List UInt8} {node : DerNode} {n : ℕ}
    (hread : readDer fuel bytes = .ok (node, n)) :
    ∃ tag header length, readHeader bytes = .ok (tag, header, length) ∧ n = header + length ∧
      n ≤ bytes.length := by
  cases fuel with
  | zero => cases hread
  | succ fuel =>
    unfold readDer at hread
    cases hheader : readHeader bytes with
    | error message =>
      rw [hheader] at hread
      cases hread
    | ok h =>
      obtain ⟨tag, header, length⟩ := h
      rw [hheader] at hread
      refine ⟨tag, header, length, rfl, ?_⟩
      by_cases hlength : bytes.length < header + length
      · simp [bind, Except.bind, hlength, throw, throwThe, MonadExceptOf.throw] at hread
      · have hsome : n = header + length := by
          simp only [bind, Except.bind, hlength, if_false] at hread
          split at hread
          · cases hread
            rfl
          · cases hchildren : readChildren fuel ((bytes.drop header).take length) with
            | error message =>
              rw [hchildren] at hread
              cases hread
            | ok children =>
              rw [hchildren] at hread
              cases hread
              rfl
        exact ⟨hsome, hsome ▸ Nat.not_lt.mp hlength⟩

end TransformHub.Manager.CsrEnrollment
