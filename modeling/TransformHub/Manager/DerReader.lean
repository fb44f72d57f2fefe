import Mathlib.Data.Nat.Digits.Lemmas
import TransformHub.Manager.CsrStructure

/-!
# The reader of DER

`readDer` of a buffer and an offset, with every byte read where the code reads it. It is the reader
of the bytes from the offset on.
-/

namespace TransformHub.Manager.CsrEnrollment

/-! ## A buffer and an offset -/

/-- `buffer[offset]`; outside of the buffer the reader would go on with `undefined`. -/
def byteAt (buffer : List UInt8) (offset : ℕ) : Except (Option String) UInt8 :=
  match buffer[offset]? with
  | some byte => .ok byte
  | none => .error none

/-- The loop over the bytes of a length. -/
def readLength (buffer : List UInt8) : (count length offset : ℕ) → Except (Option String) ℕ
  | 0, length, _ => .ok length
  | count + 1, length, offset => do
    let byte ← byteAt buffer offset
    readLength buffer count (length * 256 + byte.toNat) (offset + 1)

/-- The part of `readDer` before the contents: the tag, the offset of the contents, and how many
bytes they have. -/
def readHeaderAt (buffer : List UInt8) (offset : ℕ) :
    Except (Option String) (UInt8 × ℕ × ℕ) := do
  if buffer.length < offset + 2 then throw (some "Truncated DER")
  let tag ← byteAt buffer offset
  let first ← byteAt buffer (offset + 1)
  if first &&& 0x80 = 0 then return (tag, offset + 2, first.toNat)
  let count := (first &&& 0x7f).toNat
  if count = 0 ∨ 4 < count ∨ buffer.length < offset + 2 + count then
    throw (some "Invalid DER length")
  let length ← readLength buffer count 0 (offset + 2)
  return (tag, offset + 2 + count, length)

mutual

/-- `readDer`. An error is its message, or none where the reader leaves the buffer. -/
def readDerAt : ℕ → List UInt8 → ℕ → Except (Option String) (DerNode × ℕ)
  | 0, _, _ => .error (some "Maximum call stack size exceeded")
  | fuel + 1, buffer, offset => do
    let (tag, offset, length) ← readHeaderAt buffer offset
    let stop := offset + length
    if buffer.length < stop then throw (some "Truncated DER value")
    let value := (buffer.drop offset).take (stop - offset)
    let children ← if tag &&& 0x20 = 0 then pure [] else readChildrenAt fuel value 0
    return (.node tag value children, stop)

def readChildrenAt : ℕ → List UInt8 → ℕ → Except (Option String) (List DerNode)
  | 0, _, _ => .error (some "Maximum call stack size exceeded")
  | fuel + 1, value, childOffset =>
    if childOffset < value.length then do
      let (child, next) ← readDerAt fuel value childOffset
      let children ← readChildrenAt fuel value next
      return child :: children
    else .ok []

end

/-- `readDer(buffer, offset)`. -/
def readDerFrom (buffer : List UInt8) (offset : ℕ) : Except (Option String) (DerNode × ℕ) :=
  readDerAt (buffer.length + 1) buffer offset

/-! ## What is read -/

mutual

inductive Encodes : List UInt8 → DerNode → Prop
  | primitive {enc : List UInt8} {tag : UInt8} {header : ℕ}
    (hheader : readHeader enc = .ok (tag, header, enc.length - header))
    (hle : header ≤ enc.length) (htag : tag &&& 0x20 = 0) :
    Encodes enc (.node tag (enc.drop header) [])
  | constructed {enc : List UInt8} {tag : UInt8} {header : ℕ} {children : List DerNode}
    (hheader : readHeader enc = .ok (tag, header, enc.length - header))
    (hle : header ≤ enc.length) (htag : tag &&& 0x20 ≠ 0)
    (hchildren : EncodesAll (enc.drop header) children) :
    Encodes enc (.node tag (enc.drop header) children)

/-- The bytes are the encodings of the nodes, one after the other. -/
inductive EncodesAll : List UInt8 → List DerNode → Prop
  | nil : EncodesAll [] []
  | cons {enc more : List UInt8} {child : DerNode} {children : List DerNode}
    (hchild : Encodes enc child) (hchildren : EncodesAll more children) :
    EncodesAll (enc ++ more) (child :: children)

end

/-! ## Trees of values -/

/-- A tree of values. The bit of the tag says whether a value has children. -/
inductive DerTree
  | primitive (tag : UInt8) (htag : tag &&& 0x20 = 0) (content : List UInt8)
  | constructed (tag : UInt8) (htag : tag &&& 0x20 ≠ 0) (children : List DerTree)

/-- The octets of a length in DER: the shortest form. -/
def derLength (n : ℕ) : List UInt8 :=
  if n < 0x80 then [UInt8.ofNat n]
  else
    let octets := ((Nat.digits 256 n).map UInt8.ofNat).reverse
    UInt8.ofNat (0x80 + octets.length) :: octets

namespace DerTree

mutual

def encode : DerTree → List UInt8
  | primitive tag _ content => tag :: (derLength content.length ++ content)
  | constructed tag _ children =>
    tag :: (derLength (encodeAll children).length ++ encodeAll children)

def encodeAll : List DerTree → List UInt8
  | [] => []
  | t :: ts => t.encode ++ encodeAll ts

end

mutual

def toNode : DerTree → DerNode
  | primitive tag _ content => .node tag content []
  | constructed tag _ children => .node tag (encodeAll children) (toNodes children)

def toNodes : List DerTree → List DerNode
  | [] => []
  | t :: ts => t.toNode :: toNodes ts

end

mutual

/-- All contents are shorter than 2^32 octets. -/
def Fits : DerTree → Prop
  | primitive _ _ content => content.length < 2 ^ 32
  | constructed _ _ children => (encodeAll children).length < 2 ^ 32 ∧ FitAll children

def FitAll : List DerTree → Prop
  | [] => True
  | t :: ts => t.Fits ∧ FitAll ts

end

end DerTree

/-! ## The reader of the rest of the buffer -/

section

variable {buffer rest : List UInt8} {offset : ℕ} {byte : UInt8}
  (h : buffer.drop offset = byte :: rest)
include h

theorem byteAt_of_drop : byteAt buffer offset = .ok byte := by
  have hget : buffer[offset]? = some byte := by
    rw [← Nat.add_zero offset, ← List.getElem?_drop, h]
    rfl
  rw [byteAt, hget]

theorem drop_succ_of_drop : buffer.drop (offset + 1) = rest := by
  rw [← List.drop_drop, h]
  rfl

end

theorem readLength_eq {buffer : List UInt8} {count length offset : ℕ}
    (h : count ≤ (buffer.drop offset).length) :
    readLength buffer count length offset =
      .ok (((buffer.drop offset).take count).foldl (fun n b => n * 256 + b.toNat) length) := by
  induction count generalizing length offset with
  | zero => rfl
  | succ count ih =>
    cases hdrop : buffer.drop offset with
    | nil =>
      rw [hdrop] at h
      cases h
    | cons byte rest =>
      have hrest := drop_succ_of_drop hdrop
      rw [hdrop] at h
      rw [readLength, byteAt_of_drop hdrop]
      show readLength buffer count _ (offset + 1) = _
      rw [ih (by rw [hrest]; exact Nat.le_of_succ_le_succ h), hrest]
      rfl

theorem readHeaderAt_eq (buffer : List UInt8) (offset : ℕ) :
    readHeaderAt buffer offset = match readHeader (buffer.drop offset) with
      | .error message => .error (some message)
      | .ok (tag, header, length) => .ok (tag, offset + header, length) := by
  have hlength : (buffer.drop offset).length = buffer.length - offset := List.length_drop
  rw [readHeaderAt]
  match hdrop : buffer.drop offset with
  | [] =>
    rw [hdrop, List.length_nil] at hlength
    rw [if_pos (by omega)]
    rfl
  | [_] =>
    rw [hdrop, List.length_singleton] at hlength
    rw [if_pos (by omega)]
    rfl
  | tag :: first :: rest =>
    have hfirst := drop_succ_of_drop hdrop
    have hrest : buffer.drop (offset + 2) = rest := drop_succ_of_drop hfirst
    rw [hdrop, List.length_cons, List.length_cons] at hlength
    rw [if_neg (by omega), byteAt_of_drop hdrop, byteAt_of_drop hfirst, readHeader_cons]
    simp only [bind, Except.bind, pure, Except.pure]
    by_cases hshort : first &&& 0x80 = 0
    · rw [if_pos hshort, if_pos hshort]
    · rw [if_neg hshort, if_neg hshort]
      by_cases hbad : (first &&& 0x7f).toNat = 0 ∨ 4 < (first &&& 0x7f).toNat ∨
          rest.length < (first &&& 0x7f).toNat
      · rw [if_pos hbad, if_pos (by omega)]
        rfl
      · rw [if_neg hbad, if_neg (by omega), readLength_eq (by rw [hrest]; omega), hrest]
        simp [Nat.add_assoc]

theorem header_bounds {bytes : List UInt8} {tag : UInt8} {header length : ℕ}
    (hread : readHeader bytes = .ok (tag, header, length)) :
    2 ≤ header ∧ header ≤ bytes.length := by
  obtain ⟨first, rest, rfl, ⟨-, rfl, -⟩ | ⟨-, rfl, -, -, hrest, -⟩⟩ := readHeader_eq_ok hread
  · exact ⟨Nat.le_refl 2, Nat.le_add_left 2 _⟩
  · refine ⟨Nat.le_add_right 2 _, ?_⟩
    rw [List.length_cons, List.length_cons]
    omega

theorem readDerAt_eq (fuel : ℕ) :
    (∀ buffer offset, readDerAt fuel buffer offset =
      match readDer fuel (buffer.drop offset) with
      | .error message => .error (some message)
      | .ok (node, n) => .ok (node, offset + n)) ∧
    ∀ value offset, readChildrenAt fuel value offset =
      (readChildren fuel (value.drop offset)).mapError some := by
  induction fuel with
  | zero => exact ⟨fun _ _ => rfl, fun _ _ => rfl⟩
  | succ fuel ih =>
    obtain ⟨hder, hchildren⟩ := ih
    constructor
    · intro buffer offset
      unfold readDerAt readDer
      rw [readHeaderAt_eq]
      cases hheader : readHeader (buffer.drop offset) with
      | error message => rfl
      | ok h =>
        obtain ⟨tag, header, length⟩ := h
        have hbounds := header_bounds hheader
        rw [List.length_drop] at hbounds
        simp only [bind, Except.bind, pure, Except.pure, hchildren, List.drop_zero,
          Nat.add_sub_cancel_left, List.drop_drop, List.length_drop]
        by_cases hlength : buffer.length < offset + header + length
        · have hrest : buffer.length - offset < header + length := by omega
          rw [if_pos hlength, if_pos hrest]
          rfl
        · have hrest : ¬ buffer.length - offset < header + length := by omega
          rw [if_neg hlength, if_neg hrest]
          by_cases htag : tag &&& 0x20 = 0
          · rw [if_pos htag, if_pos htag, Nat.add_assoc]
          · rw [if_neg htag, if_neg htag, Nat.add_assoc]
            cases readChildren fuel ((buffer.drop (offset + header)).take length) <;> rfl
    · intro value offset
      unfold readChildrenAt readChildren
      rw [hder]
      have hempty : (value.drop offset).isEmpty = !decide (offset < value.length) := by
        rw [Bool.eq_iff_iff, List.isEmpty_iff, List.drop_eq_nil_iff]
        simp
      by_cases hoffset : offset < value.length
      · rw [if_pos hoffset, hempty, decide_eq_true hoffset, if_neg (by simp)]
        simp only [bind, Except.bind, pure, Except.pure, hchildren]
        cases readDer fuel (value.drop offset) with
        | error message => rfl
        | ok read =>
          simp only [List.drop_drop]
          cases readChildren fuel (value.drop (offset + read.2)) <;> rfl
      · rw [if_neg hoffset, hempty, decide_eq_false hoffset]
        rfl

/-! ## What is accepted -/

theorem readDer_of_header {fuel : ℕ} {bytes : List UInt8} {tag : UInt8} {header length : ℕ}
    (hheader : readHeader bytes = .ok (tag, header, length))
    (hlength : header + length ≤ bytes.length) :
    readDer (fuel + 1) bytes =
      ((if tag &&& 0x20 = 0 then .ok []
        else readChildren fuel ((bytes.drop header).take length)).map fun children =>
          (.node tag ((bytes.drop header).take length) children, header + length)) := by
  unfold readDer
  rw [hheader]
  simp only [bind, Except.bind, pure, Except.pure, if_neg (Nat.not_lt.mpr hlength)]
  split
  · rfl
  · cases readChildren fuel ((bytes.drop header).take length) <;> rfl

theorem readChildren_of_ok {fuel n : ℕ} {value : List UInt8} {child : DerNode}
    (hne : value ≠ []) (hread : readDer fuel value = .ok (child, n)) :
    readChildren (fuel + 1) value =
      (readChildren fuel (value.drop n)).map fun children => child :: children := by
  have hempty : value.isEmpty = false := by simpa using hne
  rw [readChildren, hempty, hread]
  simp only [bind, Except.bind, pure, Except.pure]
  cases readChildren fuel (value.drop n) <;> rfl

theorem map_eq_ok {α β : Type} {f : α → β} {e : Except String α} {b : β}
    (h : e.map f = .ok b) : ∃ a, e = .ok a ∧ f a = b := by
  cases e with
  | error message => cases h
  | ok a => exact ⟨a, rfl, Except.ok.inj h⟩

theorem encodes_of_readDer (fuel : ℕ) :
    (∀ bytes node n, readDer fuel bytes = .ok (node, n) → Encodes (bytes.take n) node) ∧
      ∀ value children, readChildren fuel value = .ok children → EncodesAll value children := by
  induction fuel with
  | zero => exact ⟨fun _ _ _ h => (nomatch h), fun _ _ h => (nomatch h)⟩
  | succ fuel ih =>
    obtain ⟨hder, hchildren⟩ := ih
    constructor
    · intro bytes node n hread
      obtain ⟨tag, header, length, hheader, rfl, hn⟩ := readHeader_of_readDer hread
      rw [readDer_of_header hheader hn] at hread
      obtain ⟨children, hif, hnode⟩ := map_eq_ok hread
      obtain ⟨rfl, -⟩ := Prod.mk.inj hnode
      have hsize : (bytes.take (header + length)).length = header + length := by
        rw [List.length_take, Nat.min_eq_left hn]
      have htake : readHeader (bytes.take (header + length)) =
          .ok (tag, header, (bytes.take (header + length)).length - header) := by
        rw [hsize, Nat.add_sub_cancel_left]
        exact readHeader_take hheader (Nat.le_add_right header length)
      have hvalue : (bytes.drop header).take length = (bytes.take (header + length)).drop header := by
        rw [List.drop_take, Nat.add_sub_cancel_left]
      rw [hvalue] at hif ⊢
      split at hif
      · next htag =>
        cases hif
        exact .primitive htake (by omega) htag
      · next htag =>
        exact .constructed htake (by omega) htag (hchildren _ _ hif)
    · intro value children hread
      cases hvalue : value with
      | nil =>
        rw [hvalue] at hread
        unfold readChildren at hread
        cases hread
        exact .nil
      | cons byte rest =>
        rw [← hvalue]
        have hne : value ≠ [] := by simp [hvalue]
        cases hfirst : readDer fuel value with
        | error message =>
          unfold readChildren at hread
          rw [hfirst, hvalue] at hread
          cases hread
        | ok read =>
          rw [readChildren_of_ok hne hfirst] at hread
          obtain ⟨more, hmore, rfl⟩ := map_eq_ok hread
          rw [← List.take_append_drop read.2 value]
          exact .cons (hder _ _ _ hfirst) (hchildren _ _ hmore)

theorem readDer_terminates (fuel : ℕ) :
    (∀ bytes, bytes.length + 1 ≤ fuel →
      readDer fuel bytes ≠ .error "Maximum call stack size exceeded") ∧
    ∀ value, value.length + 2 ≤ fuel →
      readChildren fuel value ≠ .error "Maximum call stack size exceeded" := by
  induction fuel with
  | zero => exact ⟨fun _ h => absurd h (by omega), fun _ h => absurd h (by omega)⟩
  | succ fuel ih =>
    obtain ⟨hder, hchildren⟩ := ih
    constructor
    · intro bytes hfuel hread
      cases hheader : readHeader bytes with
      | error message =>
        unfold readDer at hread
        rw [hheader] at hread
        cases hread
        rcases bytes with _ | ⟨tag, _ | ⟨first, rest⟩⟩
        · simp [readHeader] at hheader
        · simp [readHeader] at hheader
        · rw [readHeader_cons] at hheader
          split_ifs at hheader
          simp at hheader
      | ok h =>
        obtain ⟨tag, header, length⟩ := h
        obtain ⟨htwo, hbytes⟩ := header_bounds hheader
        by_cases hlength : header + length ≤ bytes.length
        · have hvalue : ((bytes.drop header).take length).length + 2 ≤ fuel := by
            rw [List.length_take, List.length_drop]
            omega
          rw [readDer_of_header hheader hlength] at hread
          split at hread
          · cases hread
          · cases hvalueRead : readChildren fuel ((bytes.drop header).take length) with
            | ok children => rw [hvalueRead] at hread; cases hread
            | error message =>
              rw [hvalueRead] at hread
              cases hread
              exact hchildren _ hvalue hvalueRead
        · unfold readDer at hread
          rw [hheader] at hread
          simp [bind, Except.bind, Nat.not_le.mp hlength, throw, throwThe,
            MonadExceptOf.throw] at hread
    · intro value hfuel hread
      cases hvalue : value with
      | nil =>
        rw [hvalue, readChildren] at hread
        cases hread
      | cons byte rest =>
        have hne : value ≠ [] := by simp [hvalue]
        cases hfirst : readDer fuel value with
        | error message =>
          rw [readChildren, hfirst, hvalue] at hread
          cases hread
          exact hder value (by omega) hfirst
        | ok read =>
          obtain ⟨child, n⟩ := read
          obtain ⟨tag, header, length, hheader, rfl, hn⟩ := readHeader_of_readDer hfirst
          obtain ⟨htwo, -⟩ := header_bounds hheader
          rw [readChildren_of_ok hne hfirst] at hread
          cases hmore : readChildren fuel (value.drop (header + length)) with
          | ok children => rw [hmore] at hread; cases hread
          | error message =>
            rw [hmore] at hread
            cases hread
            exact hchildren _ (by rw [List.length_drop]; omega) hmore

mutual

theorem readDer_of_encodes {enc : List UInt8} {node : DerNode} :
    Encodes enc node → ∀ fuel more, enc.length < fuel →
      readDer fuel (enc ++ more) = .ok (node, enc.length)
  | @Encodes.primitive _ _ header hheader hle htag, fuel + 1, more, _ => by
    rw [readDer_of_header (readHeader_append hheader more) (by simp; omega), if_pos htag,
      List.drop_append_of_le_length hle, List.take_left' List.length_drop,
      Nat.add_sub_cancel' hle]
    rfl
  | @Encodes.constructed _ _ header _ hheader hle htag hchildren, fuel + 1, more, hfuel => by
    obtain ⟨htwo, -⟩ := header_bounds hheader
    have hvalue := readChildren_of_encodes hchildren fuel (by rw [List.length_drop]; omega)
    rw [readDer_of_header (readHeader_append hheader more) (by simp; omega), if_neg htag,
      List.drop_append_of_le_length hle, List.take_left' List.length_drop, hvalue,
      Nat.add_sub_cancel' hle]
    rfl

theorem readChildren_of_encodes {value : List UInt8} {children : List DerNode} :
    EncodesAll value children → ∀ fuel, value.length + 2 ≤ fuel →
      readChildren fuel value = .ok children
  | .nil, fuel + 1, _ => rfl
  | @EncodesAll.cons enc more _ _ hchild hchildren, fuel + 1, hfuel => by
    rw [List.length_append] at hfuel
    have hfirst := readDer_of_encodes hchild fuel more (by omega)
    obtain ⟨_, header, length, hheader, hn, -⟩ := readHeader_of_readDer hfirst
    obtain ⟨htwo, -⟩ := header_bounds hheader
    have hne : enc ++ more ≠ [] := by
      intro hnil
      rw [(List.append_eq_nil_iff.mp hnil).1, List.length_nil] at hn
      omega
    rw [readChildren_of_ok hne hfirst, List.drop_left,
      readChildren_of_encodes hchildren fuel (by omega)]
    rfl

end

/-! ## The encoding of a tree -/

theorem foldl_octets (n : ℕ) :
    ((Nat.digits 256 n).map UInt8.ofNat).reverse.foldl (fun n b => n * 256 + b.toNat) 0 = n := by
  have hdigits : ∀ digits : List ℕ, (∀ d ∈ digits, d < 256) →
      (digits.map UInt8.ofNat).foldr (fun b n => n * 256 + b.toNat) 0 =
        Nat.ofDigits 256 digits := by
    intro digits hd
    induction digits with
    | nil => rfl
    | cons d digits ih =>
      obtain ⟨hd, hdigits⟩ := List.forall_mem_cons.mp hd
      rw [List.map_cons, List.foldr_cons, ih hdigits, Nat.ofDigits_cons,
        UInt8.toNat_ofNat_of_lt' hd]
      simp [Nat.mul_comm, Nat.add_comm]
  rw [List.foldl_reverse, hdigits _ fun d hd => Nat.digits_lt_base (by decide) hd,
    Nat.ofDigits_digits]

theorem readHeader_derLength (tag : UInt8) {n : ℕ} (h : n < 2 ^ 32) (content : List UInt8) :
    readHeader (tag :: (derLength n ++ content)) = .ok (tag, 1 + (derLength n).length, n) := by
  rw [derLength]
  split
  · next hshort =>
    have hbyte : (UInt8.ofNat n).toNat = n :=
      UInt8.toNat_ofNat_of_lt' (Nat.lt_trans hshort (by decide))
    have hbit : ∀ n < 0x80, UInt8.ofNat n &&& 0x80 = 0 := by decide
    rw [List.singleton_append, readHeader_short content (hbit n hshort), hbyte]
    rfl
  · next hlong =>
    have hpos : 0 < (Nat.digits 256 n).length :=
      List.length_pos_iff.mpr (Nat.digits_ne_nil_iff_ne_zero.mpr (by omega))
    have hfour : (Nat.digits 256 n).length ≤ 4 :=
      (Nat.digits_length_le_iff (by decide) n).mpr (by simpa using h)
    have hcount : ((Nat.digits 256 n).map UInt8.ofNat).reverse.length =
        (Nat.digits 256 n).length := by simp
    have hfirst : UInt8.ofNat (0x80 + (Nat.digits 256 n).length) &&& 0x80 ≠ 0 ∧
        (UInt8.ofNat (0x80 + (Nat.digits 256 n).length) &&& 0x7f).toNat =
          (Nat.digits 256 n).length := by
      have hcounts : ∀ count ≤ 4, UInt8.ofNat (0x80 + count) &&& 0x80 ≠ 0 ∧
          (UInt8.ofNat (0x80 + count) &&& 0x7f).toNat = count := by decide
      exact hcounts _ hfour
    show readHeader (tag :: (UInt8.ofNat (0x80 + _) :: _ ++ content)) = _
    rw [hcount, List.cons_append, readHeader_long hfirst.1 (by omega) (by omega)
      (by rw [hfirst.2, List.length_append, hcount]; omega), hfirst.2,
      List.take_left' hcount, foldl_octets, List.length_cons, hcount]
    have hheader : 2 + (Nat.digits 256 n).length = 1 + ((Nat.digits 256 n).length + 1) := by omega
    rw [hheader]

namespace DerTree

mutual

theorem encodes : ∀ t : DerTree, t.Fits → Encodes t.encode t.toNode
  | primitive tag htag content, h => by
    have hheader := readHeader_derLength tag h content
    have hsize : 1 + (derLength content.length).length ≤
        (tag :: (derLength content.length ++ content)).length := by
      simp
      omega
    have hencodes : Encodes (tag :: (derLength content.length ++ content)) _ := .primitive
      (by rw [hheader]; simp; omega) hsize htag
    rw [Nat.add_comm, List.drop_succ_cons, List.drop_left] at hencodes
    exact hencodes
  | constructed tag htag children, h => by
    have hheader := readHeader_derLength tag h.1 (encodeAll children)
    have hvalue : (tag :: (derLength (encodeAll children).length ++ encodeAll children)).drop
        (1 + (derLength (encodeAll children).length).length) = encodeAll children := by
      rw [Nat.add_comm, List.drop_succ_cons, List.drop_left]
    have hsize : 1 + (derLength (encodeAll children).length).length ≤
        (tag :: (derLength (encodeAll children).length ++ encodeAll children)).length := by
      simp
      omega
    have hencodes : Encodes
        (tag :: (derLength (encodeAll children).length ++ encodeAll children)) _ := .constructed
      (by rw [hheader]; simp; omega) hsize htag (by rw [hvalue]; exact encodesAll children h.2)
    rw [hvalue] at hencodes
    exact hencodes

theorem encodesAll : ∀ ts : List DerTree, FitAll ts → EncodesAll (encodeAll ts) (toNodes ts)
  | [], _ => .nil
  | t :: ts, h => .cons (encodes t h.1) (encodesAll ts h.2)

end

end DerTree

/-- The reader ends on every buffer and never leaves it; where it does not fail, the bytes that it has
read are an encoding of the node; and it reads the DER of every tree as that tree. -/
theorem readDerFrom_exact :
    (∀ buffer offset,
      readDerFrom buffer offset ≠ .error (some "Maximum call stack size exceeded") ∧
      readDerFrom buffer offset ≠ .error none ∧
      ∀ node stop, readDerFrom buffer offset = .ok (node, stop) →
        offset < stop ∧ stop ≤ buffer.length ∧
          Encodes ((buffer.drop offset).take (stop - offset)) node) ∧
    ∀ t : DerTree, t.Fits → ∀ before after,
      readDerFrom (before ++ (t.encode ++ after)) before.length =
        .ok (t.toNode, before.length + t.encode.length) := by
  constructor
  · intro buffer offset
    have heq := (readDerAt_eq (buffer.length + 1)).1 buffer offset
    have hends := (readDer_terminates (buffer.length + 1)).1 (buffer.drop offset)
      (by rw [List.length_drop]; omega)
    rw [readDerFrom, heq]
    cases hread : readDer (buffer.length + 1) (buffer.drop offset) with
    | error message =>
      refine ⟨fun h => hends ?_, fun h => (nomatch h), fun _ _ h => (nomatch h)⟩
      cases h
      exact hread
    | ok read =>
      refine ⟨fun h => (nomatch h), fun h => (nomatch h), fun node stop h => ?_⟩
      cases h
      obtain ⟨tag, header, length, hheader, hn, hle⟩ := readHeader_of_readDer hread
      obtain ⟨htwo, -⟩ := header_bounds hheader
      rw [List.length_drop] at hle
      refine ⟨by omega, by omega, ?_⟩
      rw [Nat.add_sub_cancel_left]
      exact (encodes_of_readDer _).1 _ _ _ hread
  · intro t ht before after
    have hread := readDer_of_encodes (DerTree.encodes t ht)
      ((before ++ (t.encode ++ after)).length + 1) after (by simp; omega)
    rw [readDerFrom, (readDerAt_eq _).1, List.drop_left, hread]

/-- A sequence of an integer and an empty sequence, between other bytes. -/
theorem readDerFrom_exact_nested :
    readDerFrom ([1] ++ ((DerTree.constructed 0x30 (by decide)
      [.primitive 2 (by decide) [5], .constructed 0x30 (by decide) []]).encode ++ [7])) 1 =
      .ok (.node 0x30 [2, 1, 5, 0x30, 0] [.node 2 [5] [], .node 0x30 [] []], 8) :=
  readDerFrom_exact.2 (.constructed 0x30 (by decide)
    [.primitive 2 (by decide) [5], .constructed 0x30 (by decide) []])
    ⟨by decide, (by decide : 1 < 2 ^ 32), ⟨by decide, trivial⟩, trivial⟩ [1] [7]

end TransformHub.Manager.CsrEnrollment
