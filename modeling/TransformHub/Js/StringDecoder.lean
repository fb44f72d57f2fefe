import Mathlib.Data.List.Basic

/-!
# String decoder

`StringDecoder` of `string_decoder` for `utf8`: it decodes a stream of bytes that comes in pieces,
and keeps the bytes of a character that is not complete for the next piece.
-/

namespace TransformHub.Js

def replacementChar : Char := '\uFFFD'

/-- A character whose lead byte has been read: the bits so far, how many bytes are missing, and the
range in which the next one must be. -/
structure Partial where
  code : ℕ
  missing : ℕ
  low : ℕ
  high : ℕ
deriving DecidableEq

/-- The state between two bytes. -/
abbrev StringDecoder := Option Partial

namespace StringDecoder

/-- A byte that starts a character. The second byte of some lead bytes is restricted, which leaves
out overlong forms, surrogates and what lies above the last code point. -/
def startChar (b : UInt8) : StringDecoder × List Char :=
  let n := b.toNat
  if n < 0x80 then (none, [Char.ofNat n])
  else if 0xC2 ≤ n ∧ n ≤ 0xDF then (some ⟨n - 0xC0, 1, 0x80, 0xBF⟩, [])
  else if 0xE0 ≤ n ∧ n ≤ 0xEF then
    (some ⟨n - 0xE0, 2, if n = 0xE0 then 0xA0 else 0x80, if n = 0xED then 0x9F else 0xBF⟩, [])
  else if 0xF0 ≤ n ∧ n ≤ 0xF4 then
    (some ⟨n - 0xF0, 3, if n = 0xF0 then 0x90 else 0x80, if n = 0xF4 then 0x8F else 0xBF⟩, [])
  else (none, [replacementChar])

def byte (d : StringDecoder) (b : UInt8) : StringDecoder × List Char :=
  match d with
  | none => startChar b
  | some p =>
    if p.low ≤ b.toNat ∧ b.toNat ≤ p.high then
      let code := p.code * 64 + (b.toNat - 0x80)
      if p.missing = 1 then (none, [Char.ofNat code])
      else (some ⟨code, p.missing - 1, 0x80, 0xBF⟩, [])
    else ((startChar b).1, replacementChar :: (startChar b).2)

def write (d : StringDecoder) : List UInt8 → StringDecoder × List Char
  | [] => (d, [])
  | b :: bs => ((write (d.byte b).1 bs).1, (d.byte b).2 ++ (write (d.byte b).1 bs).2)

/-- `end`: what is kept is given as a replacement character. -/
def finish (d : StringDecoder) : List Char := if d.isSome then [replacementChar] else []

theorem write_append (d : StringDecoder) (a b : List UInt8) :
    d.write (a ++ b) =
      (((d.write a).1.write b).1, (d.write a).2 ++ ((d.write a).1.write b).2) := by
  induction a generalizing d with
  | nil => rfl
  | cons x xs ih => simp only [List.cons_append, write, ih, List.append_assoc]

/-! ## Whole buffers -/

theorem write_partial_ne_nil (p : Partial) (bs : List UInt8) :
    ((write (some p) bs).2 ++ finish (write (some p) bs).1) ≠ [] := by
  induction bs generalizing p with
  | nil => simp [write, finish]
  | cons b bs ih =>
    rw [write, byte]
    split_ifs
    · simp
    · simpa using ih _
    · simp

theorem startChar_cases (b : UInt8) : (startChar b).2 ≠ [] ∨ ∃ p, startChar b = (some p, []) := by
  rw [startChar]
  by_cases h1 : b.toNat < 0x80
  · exact .inl (by simp [h1])
  rw [if_neg h1]
  by_cases h2 : 0xC2 ≤ b.toNat ∧ b.toNat ≤ 0xDF
  · exact .inr ⟨_, if_pos h2⟩
  rw [if_neg h2]
  by_cases h3 : 0xE0 ≤ b.toNat ∧ b.toNat ≤ 0xEF
  · exact .inr ⟨_, if_pos h3⟩
  rw [if_neg h3]
  by_cases h4 : 0xF0 ≤ b.toNat ∧ b.toNat ≤ 0xF4
  · exact .inr ⟨_, if_pos h4⟩
  · exact .inl (by simp [h4])

theorem write_ne_nil {bs : List UInt8} (h : bs ≠ []) :
    ((write none bs).2 ++ finish (write none bs).1) ≠ [] := by
  cases bs with
  | nil => exact absurd rfl h
  | cons b bs =>
    rw [write, byte]
    obtain htext | ⟨p, hkept⟩ := startChar_cases b
    · intro hnil
      rw [List.append_assoc] at hnil
      exact htext (List.append_eq_nil_iff.mp hnil).1
    · rw [hkept]
      exact write_partial_ne_nil p bs

theorem write_ascii (cs : List Char) (h : ∀ c ∈ cs, c.toNat < 128) :
    write none (cs.map fun c => UInt8.ofNat c.toNat) = (none, cs) := by
  induction cs with
  | nil => rfl
  | cons c cs ih =>
    have hc := h c (List.mem_cons_self ..)
    have hbyte : (UInt8.ofNat c.toNat).toNat = c.toNat := by
      rw [UInt8.toNat_ofNat']
      omega
    rw [List.map_cons, write, byte, startChar, hbyte, if_pos hc,
      ih fun d hd => h d (List.mem_cons_of_mem _ hd), Char.ofNat_toNat]
    rfl

end StringDecoder

/-- `buffer.toString("utf8")`. -/
def decodeUtf8 (bs : List UInt8) : String :=
  String.ofList ((StringDecoder.write none bs).2 ++ StringDecoder.finish (StringDecoder.write none bs).1)

def asciiBytes (cs : List Char) : List UInt8 := cs.map fun c => UInt8.ofNat c.toNat

@[simp] theorem length_asciiBytes (cs : List Char) : (asciiBytes cs).length = cs.length :=
  List.length_map ..

theorem decodeUtf8_ascii {cs : List Char} (h : ∀ c ∈ cs, c.toNat < 128) :
    decodeUtf8 (asciiBytes cs) = String.ofList cs := by
  rw [decodeUtf8, asciiBytes, StringDecoder.write_ascii cs h, StringDecoder.finish]
  simp

theorem decodeUtf8_ascii_append_ne {cs : List Char} (h : ∀ c ∈ cs, c.toNat < 128) {bs : List UInt8}
    (hbs : bs ≠ []) : decodeUtf8 (asciiBytes cs ++ bs) ≠ String.ofList cs := by
  intro heq
  have hchars := congrArg String.toList heq
  rw [decodeUtf8, asciiBytes, StringDecoder.write_append, StringDecoder.write_ascii cs h,
    String.toList_ofList, String.toList_ofList, List.append_assoc] at hchars
  exact StringDecoder.write_ne_nil hbs (List.append_right_eq_self.mp hchars)

/-- The bytes that a text is written as. -/
def encodeUtf8 (s : String) : List UInt8 := s.toList.flatMap String.utf8EncodeChar

theorem encodeUtf8_ascii {s : String} (h : ∀ c ∈ s.toList, c.toNat < 128) :
    encodeUtf8 s = asciiBytes s.toList := by
  unfold encodeUtf8 asciiBytes
  rw [List.map_eq_flatMap]
  refine List.flatMap_congr fun c hc => ?_
  have hsize : c.utf8Size = 1 := by
    have hlt := h c hc
    unfold Char.utf8Size
    rw [if_pos]
    rw [UInt32.le_iff_toNat_le]
    exact Nat.le_of_lt_succ hlt
  exact String.utf8EncodeChar_eq_singleton hsize

end TransformHub.Js
