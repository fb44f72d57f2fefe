import Mathlib.Tactic.IntervalCases
import TransformHub.Js.TextDecoder
import TransformHub.Lib.CodePoint

/-!
# Percent-encoded texts

`decodeURIComponent`: the bytes of a run of escapes must be those of whole characters, else it
throws. `encodeURIComponent` throws for a text with lone surrogates.
-/

namespace TransformHub.Js

def hexDigit (c : Char) : Option ℕ :=
  if '0'.toNat ≤ c.toNat ∧ c.toNat ≤ '9'.toNat then some (c.toNat - '0'.toNat)
  else if 'A'.toNat ≤ c.toNat ∧ c.toNat ≤ 'F'.toNat then some (c.toNat - 'A'.toNat + 10)
  else if 'a'.toNat ≤ c.toNat ∧ c.toNat ≤ 'f'.toNat then some (c.toNat - 'a'.toNat + 10)
  else none

/-- The text goes on after the bytes of a character that has begun. -/
def decodeEscapes (kept : StringDecoder) : List Char → Option (List Char)
  | [] => if kept.isSome then none else some []
  | '%' :: high :: low :: cs =>
    match hexDigit high, hexDigit low with
    | some high, some low =>
      let b := UInt8.ofNat (16 * high + low)
      if TextDecoder.Accepts kept b then
        (decodeEscapes (kept.byte b).1 cs).map ((kept.byte b).2 ++ ·)
      else none
    | _, _ => none
  | c :: cs => if c = '%' ∨ kept.isSome then none else (decodeEscapes none cs).map (c :: ·)

/-- `decodeURIComponent(text)`; `none` is a throw. -/
def decodeURIComponent (text : List Char) : Option (List Char) := decodeEscapes none text

theorem decodeURIComponent_plain {text : List Char} (h : '%' ∉ text) :
    decodeURIComponent text = some text := by
  unfold decodeURIComponent
  induction text with
  | nil => rfl
  | cons c text ih =>
    have hc : c ≠ '%' := fun hnot => h (hnot ▸ List.mem_cons_self)
    have hrest := ih fun hmem => h (List.mem_cons_of_mem _ hmem)
    unfold decodeEscapes
    split
    · rename_i heq
      cases heq
    · rename_i heq
      exact absurd (List.cons.inj heq).1 hc
    · rename_i heq
      cases heq
      rw [if_neg (by simp [hc]), hrest]
      rfl

example : decodeURIComponent "a%2Fb".toList = some "a/b".toList := by decide

example : decodeURIComponent "%E2%82%AC".toList = some "€".toList := by decide

example : decodeURIComponent "%E2%82".toList = none := by decide

/-! ## Encoding -/

def upperHexDigit (n : ℕ) : Char := if n < 10 then Char.ofNat (n + 48) else Char.ofNat (n + 55)

def escapeByte (b : UInt8) : List Char :=
  ['%', upperHexDigit (b.toNat / 16), upperHexDigit (b.toNat % 16)]

/-- A character that `encodeURIComponent` leaves as it is. -/
def isUnreserved (c : Char) : Bool :=
  c.isAlphanum || ['-', '_', '.', '!', '~', '*', '\'', '(', ')'].contains c

def escapeChar (c : Char) : List Char :=
  if isUnreserved c then [c] else (String.utf8EncodeChar c).flatMap escapeByte

/-- `encodeURIComponent(text)`; `none` is a throw. -/
def encodeURIComponent (text : List CodePoint) : Option (List Char) :=
  (CodePoint.chars? text).map (·.flatMap escapeChar)

theorem hexDigit_upperHexDigit {n : ℕ} (h : n < 16) : hexDigit (upperHexDigit n) = some n := by
  interval_cases n <;> decide

theorem upperHexDigit_plain {n : ℕ} (h : n < 16) : (upperHexDigit n).isAlphanum = true := by
  interval_cases n <;> decide

theorem decodeEscapes_escapeByte {kept : StringDecoder} {b : UInt8}
    (hb : TextDecoder.Accepts kept b) (cs : List Char) :
    decodeEscapes kept (escapeByte b ++ cs) =
      (decodeEscapes (kept.byte b).1 cs).map ((kept.byte b).2 ++ ·) := by
  have hlt := b.toNat_lt
  have hvalue : UInt8.ofNat (16 * (b.toNat / 16) + b.toNat % 16) = b := by
    rw [Nat.div_add_mod, UInt8.ofNat_toNat]
  show decodeEscapes kept ('%' :: _ :: _ :: cs) = _
  rw [decodeEscapes, hexDigit_upperHexDigit (by omega), hexDigit_upperHexDigit (by omega)]
  dsimp only
  rw [hvalue, if_pos hb]

theorem decodeEscapes_completes {c : Char} {kept : StringDecoder} {bs : List UInt8}
    (h : StringDecoder.Completes c kept bs)
    (hascii : ∀ b, kept = none → bs = [b] → b.toNat < 0x80) (cs : List Char) :
    decodeEscapes kept (bs.flatMap escapeByte ++ cs) = (decodeEscapes none cs).map (c :: ·) := by
  induction bs generalizing kept with
  | nil => exact absurd h id
  | cons b bs ih =>
    rw [List.flatMap_cons, List.append_assoc]
    cases bs with
    | nil =>
      have hbyte : kept.byte b = (none, [c]) := h
      have haccepts : TextDecoder.Accepts kept b := by
        cases kept with
        | none => exact .inl (hascii b rfl rfl)
        | some q => exact TextDecoder.accepts_of_byte_last hbyte
      rw [decodeEscapes_escapeByte haccepts, hbyte]
      rfl
    | cons b' bs =>
      obtain ⟨⟨p, hp⟩, hrest⟩ := h
      rw [hp] at hrest
      have hih := ih hrest nofun
      rw [decodeEscapes_escapeByte (TextDecoder.accepts_of_byte hp), hp, hih, Option.map_map]
      rfl

theorem decodeEscapes_escapeChar (c : Char) (cs : List Char) :
    decodeEscapes none (escapeChar c ++ cs) = (decodeEscapes none cs).map (c :: ·) := by
  unfold escapeChar
  split_ifs with hc
  · have hne : c ≠ '%' := by
      rintro rfl
      exact absurd hc (by decide)
    rw [List.singleton_append]
    rw [decodeEscapes]
    · rw [if_neg (by simp [hne])]
    · intro _ _ _ h
      exact absurd h hne
  · exact decodeEscapes_completes (StringDecoder.completes_utf8EncodeChar c)
      (fun b _ hb => TextDecoder.toNat_lt_of_utf8EncodeChar hb) cs

theorem decodeURIComponent_escape (text : List Char) :
    decodeURIComponent (text.flatMap escapeChar) = some text := by
  unfold decodeURIComponent
  induction text with
  | nil => rfl
  | cons c text ih => rw [List.flatMap_cons, decodeEscapes_escapeChar, ih, Option.map_some]

theorem mem_escape {text : List Char} {c : Char} (h : c ∈ text.flatMap escapeChar) :
    isUnreserved c = true ∨ c = '%' := by
  obtain ⟨d, -, hd⟩ := List.mem_flatMap.mp h
  unfold escapeChar at hd
  split_ifs at hd with hun
  · rw [List.mem_singleton.mp hd]
    exact .inl hun
  · obtain ⟨b, -, hb⟩ := List.mem_flatMap.mp hd
    have hlt := b.toNat_lt
    have hdigit : ∀ n, n < 16 → isUnreserved (upperHexDigit n) = true := fun n hn => by
      rw [isUnreserved, upperHexDigit_plain hn, Bool.true_or]
    simp only [escapeByte, List.mem_cons, List.not_mem_nil, or_false] at hb
    rcases hb with rfl | rfl | rfl
    · exact .inr rfl
    · exact .inl (hdigit _ (by omega))
    · exact .inl (hdigit _ (by omega))

theorem escapeChar_ne_nil (c : Char) : escapeChar c ≠ [] := by
  unfold escapeChar
  split_ifs
  · exact List.cons_ne_nil _ _
  · have hpos : (String.utf8EncodeChar c).length ≠ 0 := by
      rw [String.length_utf8EncodeChar]
      exact Nat.ne_of_gt (Char.utf8Size_pos c)
    cases hbytes : String.utf8EncodeChar c with
    | nil => exact absurd (congrArg List.length hbytes) hpos
    | cons b bs => simp [escapeByte]

@[simp] theorem escape_eq_nil_iff {text : List Char} :
    text.flatMap escapeChar = [] ↔ text = [] := by
  cases text with
  | nil => simp
  | cons c text => simp [escapeChar_ne_nil]

end TransformHub.Js
