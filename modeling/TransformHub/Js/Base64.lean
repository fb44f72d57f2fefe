import Mathlib.Data.List.Basic

/-!
# Base64

`Buffer.from(s, "base64")`: the digits of both alphabets are decoded up to the first `=`, and
whatever is no digit is skipped. A code unit is read by its low byte.
-/

namespace TransformHub.Js

/-- The UTF-16 code units of a character. -/
def codeUnits (c : Char) : List ℕ :=
  if c.toNat < 0x10000 then [c.toNat]
  else [0xD800 + (c.toNat - 0x10000) / 0x400, 0xDC00 + (c.toNat - 0x10000) % 0x400]

namespace Base64

/-- The value of a digit. -/
def unbase64 (b : ℕ) : Option (Fin 64) :=
  if h : 65 ≤ b ∧ b ≤ 90 then some ⟨b - 65, by omega⟩
  else if h : 97 ≤ b ∧ b ≤ 122 then some ⟨b - 71, by omega⟩
  else if h : 48 ≤ b ∧ b ≤ 57 then some ⟨b + 4, by omega⟩
  else if b = 43 ∨ b = 45 then some 62
  else if b = 47 ∨ b = 95 then some 63
  else none

def digits : List ℕ → List (Fin 64)
  | [] => []
  | u :: us =>
    if u % 256 = 61 then []
    else
      match unbase64 (u % 256) with
      | some v => v :: digits us
      | none => digits us

def firstByte (a b : Fin 64) : UInt8 := .ofNat (a.val * 4 + b.val / 16)

def secondByte (b c : Fin 64) : UInt8 := .ofNat (b.val % 16 * 16 + c.val / 4)

def thirdByte (c d : Fin 64) : UInt8 := .ofNat (c.val % 4 * 64 + d.val)

/-- The bytes of digits. The bits left over at the end make no byte. -/
def packDigits : List (Fin 64) → List UInt8
  | a :: b :: c :: d :: ds => firstByte a b :: secondByte b c :: thirdByte c d :: packDigits ds
  | [a, b, c] => [firstByte a b, secondByte b c]
  | [a, b] => [firstByte a b]
  | _ => []

end Base64

/-- `Buffer.from(s, "base64")`. -/
def fromBase64 (cs : List Char) : List UInt8 :=
  Base64.packDigits (Base64.digits (cs.flatMap codeUnits))

namespace Base64

/-! ## Prefixes -/

theorem ofNat_inj {m n : ℕ} (hm : m < 256) (hn : n < 256) :
    UInt8.ofNat m = UInt8.ofNat n ↔ m = n := by
  constructor
  · intro h
    have hval := congrArg UInt8.toNat h
    rwa [UInt8.toNat_ofNat_of_lt' hm, UInt8.toNat_ofNat_of_lt' hn] at hval
  · rintro rfl
    rfl

theorem firstByte_inj {a b a' b' : Fin 64} :
    firstByte a b = firstByte a' b' ↔ a = a' ∧ b.val / 16 = b'.val / 16 := by
  unfold firstByte
  rw [ofNat_inj (by omega) (by omega), Fin.ext_iff]
  omega

theorem secondByte_inj {b c b' c' : Fin 64} (h : b.val / 16 = b'.val / 16) :
    secondByte b c = secondByte b' c' ↔ b = b' ∧ c.val / 4 = c'.val / 4 := by
  unfold secondByte
  rw [ofNat_inj (by omega) (by omega), Fin.ext_iff]
  omega

theorem thirdByte_inj {c d c' d' : Fin 64} (h : c.val / 4 = c'.val / 4) :
    thirdByte c d = thirdByte c' d' ↔ c = c' ∧ d = d' := by
  unfold thirdByte
  rw [ofNat_inj (by omega) (by omega), Fin.ext_iff, Fin.ext_iff]
  omega

/-- The second digits begin with the first, up to the bits of the last one that make no byte. -/
def Begins : List (Fin 64) → List (Fin 64) → Prop
  | a :: b :: c :: d :: ds, a' :: b' :: c' :: d' :: es =>
    a = a' ∧ b = b' ∧ c = c' ∧ d = d' ∧ Begins ds es
  | [a, b, c], a' :: b' :: c' :: _ => a = a' ∧ b = b' ∧ c.val / 4 = c'.val / 4
  | [a, b], a' :: b' :: _ => a = a' ∧ b.val / 16 = b'.val / 16
  | [], _ => True
  | _, _ => False

theorem packDigits_two (a b : Fin 64) (es : List (Fin 64)) :
    ∃ bs, packDigits (a :: b :: es) = firstByte a b :: bs := by
  match es with
  | [] => exact ⟨_, rfl⟩
  | [_] => exact ⟨_, rfl⟩
  | _ :: _ :: _ => exact ⟨_, rfl⟩

theorem packDigits_three (a b c : Fin 64) (es : List (Fin 64)) :
    ∃ bs, packDigits (a :: b :: c :: es) = firstByte a b :: secondByte b c :: bs := by
  match es with
  | [] => exact ⟨_, rfl⟩
  | _ :: _ => exact ⟨_, rfl⟩

/-- The bytes of the first digits begin those of the second exactly if the digits do. A single digit
left over makes no byte. -/
theorem packDigits_prefix_iff : ∀ {ds es : List (Fin 64)}, ds.length % 4 ≠ 1 →
    (packDigits ds <+: packDigits es ↔ Begins ds es)
  | [], es, _ => ⟨fun _ => trivial, fun _ => List.nil_prefix⟩
  | [_], _, h => absurd rfl h
  | [a, b], es, _ => by
      match es with
      | [] => exact iff_of_false (by simp [packDigits]) id
      | [_] => exact iff_of_false (by simp [packDigits]) id
      | a' :: b' :: es =>
        obtain ⟨bs, hbs⟩ := packDigits_two a' b' es
        show [firstByte a b] <+: packDigits (a' :: b' :: es) ↔ a = a' ∧ b.val / 16 = b'.val / 16
        rw [hbs, List.cons_prefix_cons, firstByte_inj, and_iff_left List.nil_prefix]
  | [a, b, c], es, _ => by
      match es with
      | [] => exact iff_of_false (by simp [packDigits]) id
      | [_] => exact iff_of_false (by simp [packDigits]) id
      | [_, _] => exact iff_of_false (by simp [packDigits]) id
      | a' :: b' :: c' :: es =>
        obtain ⟨bs, hbs⟩ := packDigits_three a' b' c' es
        show [firstByte a b, secondByte b c] <+: packDigits (a' :: b' :: c' :: es) ↔
          a = a' ∧ b = b' ∧ c.val / 4 = c'.val / 4
        rw [hbs, List.cons_prefix_cons, List.cons_prefix_cons, firstByte_inj,
          and_iff_left List.nil_prefix, and_assoc]
        refine and_congr_right fun _ => ?_
        constructor
        · rintro ⟨hb, hsecond⟩
          exact (secondByte_inj hb).mp hsecond
        · rintro ⟨rfl, hc⟩
          exact ⟨rfl, (secondByte_inj rfl).mpr ⟨rfl, hc⟩⟩
  | a :: b :: c :: d :: ds, es, h => by
      match es with
      | [] => exact iff_of_false (by simp [packDigits]) id
      | [_] => exact iff_of_false (by simp [packDigits]) id
      | [_, _] => exact iff_of_false (by simp [packDigits]) id
      | [_, _, _] => exact iff_of_false (by simp [packDigits]) id
      | a' :: b' :: c' :: d' :: es =>
        have hlength : ds.length % 4 ≠ 1 := by
          simp only [List.length_cons] at h
          omega
        have ih : packDigits ds <+: packDigits es ↔ Begins ds es := packDigits_prefix_iff hlength
        show firstByte a b :: secondByte b c :: thirdByte c d :: packDigits ds <+:
            firstByte a' b' :: secondByte b' c' :: thirdByte c' d' :: packDigits es ↔
          a = a' ∧ b = b' ∧ c = c' ∧ d = d' ∧ Begins ds es
        rw [List.cons_prefix_cons, List.cons_prefix_cons, List.cons_prefix_cons, firstByte_inj, ih]
        constructor
        · rintro ⟨⟨ha, hb⟩, hsecond, hthird, hrest⟩
          obtain ⟨hb, hc⟩ := (secondByte_inj hb).mp hsecond
          obtain ⟨hc, hd⟩ := (thirdByte_inj hc).mp hthird
          exact ⟨ha, hb, hc, hd, hrest⟩
        · rintro ⟨rfl, rfl, rfl, rfl, hrest⟩
          exact ⟨⟨rfl, rfl⟩, rfl, rfl, hrest⟩

end Base64

end TransformHub.Js
