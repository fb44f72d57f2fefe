import TransformHub.Js.Utf8Pieces

/-!
# Fatal text decoder

`new TextDecoder("utf-8", { fatal: true })`, whose `decode(bytes, { stream: true })` keeps the bytes
of a character that is not complete, and throws at a byte that UTF-8 does not allow where it stands.
-/

namespace TransformHub.Js

def byteOrderMark : Char := '\uFEFF'

structure TextDecoder where
  kept : StringDecoder
  bomSeen : Bool
deriving DecidableEq

namespace TextDecoder

def new : TextDecoder := ⟨none, false⟩

/-- The byte may stand here. -/
def Accepts (kept : StringDecoder) (b : UInt8) : Prop :=
  match kept with
  | none => b.toNat < 0x80 ∨ 0xC2 ≤ b.toNat ∧ b.toNat ≤ 0xF4
  | some p => p.low ≤ b.toNat ∧ b.toNat ≤ p.high

instance (kept : StringDecoder) (b : UInt8) : Decidable (Accepts kept b) := by
  unfold Accepts
  split <;> infer_instance

/-- One byte; `none` is a throw. -/
def byte (d : TextDecoder) (b : UInt8) : Option (TextDecoder × List Char) :=
  if Accepts d.kept b then
    match d.kept.byte b with
    | (kept, []) => some (⟨kept, d.bomSeen⟩, [])
    | (kept, c :: cs) =>
      some (⟨kept, true⟩, if d.bomSeen = false ∧ c = byteOrderMark then cs else c :: cs)
  else none

/-- `decode(bytes, { stream: true })`. -/
def decodeStream (d : TextDecoder) : List UInt8 → Option (TextDecoder × List Char)
  | [] => some (d, [])
  | b :: bs =>
    match d.byte b with
    | none => none
    | some (d', cs) => (d'.decodeStream bs).map fun (d'', cs') => (d'', cs ++ cs')

/-- `decode()`, after which the decoder starts anew. -/
def decode (d : TextDecoder) : Option (TextDecoder × List Char) :=
  if d.kept.isSome then none else some (new, [])

variable {d d' : TextDecoder} {b : UInt8} {a bs : List UInt8} {cs : List Char}

theorem decodeStream_append :
    d.decodeStream (a ++ bs) =
      (d.decodeStream a).bind fun (d', cs) =>
        (d'.decodeStream bs).map fun (d'', cs') => (d'', cs ++ cs') := by
  induction a generalizing d with
  | nil =>
    simp only [List.nil_append, decodeStream, Option.bind_some]
    cases d.decodeStream bs with
    | none | some r => rfl
  | cons b a ih =>
    rw [List.cons_append, decodeStream, decodeStream]
    cases d.byte b with
    | none => rfl
    | some r =>
      obtain ⟨d', cs⟩ := r
      simp only [ih]
      cases d'.decodeStream a with
      | none => rfl
      | some r =>
        obtain ⟨d'', cs'⟩ := r
        simp only [Option.bind_some, Option.map_some]
        cases d''.decodeStream bs with
        | none => rfl
        | some r => simp only [Option.map_some, List.append_assoc]

@[simp] theorem decodeStream_singleton : d.decodeStream [b] = d.byte b := by
  rw [decodeStream]
  cases d.byte b with
  | none => rfl
  | some r => simp only [decodeStream, Option.map_some, List.append_nil]

/-! ## Bytes that are kept -/

/-- So many bytes have been kept; a character that they begin has no more bytes than those and the
missing ones. -/
def Keeps : StringDecoder → ℕ → Prop
  | none, n => n = 0
  | some p, n => 0x80 ≤ p.low ∧ p.high ≤ 0xBF ∧
      (n = 1 ∧ p.missing = 1 ∧ p.code < 0x20 ∨
        n = 1 ∧ p.missing = 2 ∧ p.code < 0x10 ∨ n = 2 ∧ p.missing = 1 ∧ p.code < 0x400 ∨
        0 < p.missing ∧ n + p.missing = 4)

theorem toNat_ofNat_le (v : ℕ) : (Char.ofNat v).toNat ≤ v := by
  by_cases h : v.isValidChar
  · rw [Char.ofNat, dif_pos h]
    exact Nat.le_refl v
  · rw [Char.ofNat, dif_neg h]
    exact Nat.zero_le v

theorem utf8Size_le {c : Char} :
    (c.toNat < 0x80 → c.utf8Size ≤ 1) ∧ (c.toNat < 0x800 → c.utf8Size ≤ 2) ∧
      (c.toNat < 0x10000 → c.utf8Size ≤ 3) := by
  have h2 := Char.utf8Size_eq_two_iff (c := c)
  have h3 := Char.utf8Size_eq_three_iff (c := c)
  have h4 := Char.utf8Size_eq_four_iff (c := c)
  rw [UInt32.lt_iff_toNat_lt] at h2 h3 h4
  change _ ↔ 0x7F < c.toNat ∧ _ at h2
  change _ ↔ 0x7FF < c.toNat ∧ _ at h3
  change _ ↔ 0xFFFF < c.toNat at h4
  rcases Char.utf8Size_eq c with h | h | h | h <;> omega

theorem keeps_startChar {b : UInt8} (hb : b.toNat < 0x80 ∨ 0xC2 ≤ b.toNat ∧ b.toNat ≤ 0xF4) :
    ∃ n, Keeps (StringDecoder.startChar b).1 n ∧
      (encodeChars (StringDecoder.startChar b).2).length + n ≤ 1 := by
  unfold StringDecoder.startChar
  simp only
  by_cases h1 : b.toNat < 0x80
  · rw [if_pos h1]
    refine ⟨0, rfl, ?_⟩
    have hle := toNat_ofNat_le b.toNat
    have hsize := utf8Size_le.1 (Nat.lt_of_le_of_lt hle h1)
    simp [encodeChars]
    exact hsize
  rw [if_neg h1]
  by_cases h2 : 0xC2 ≤ b.toNat ∧ b.toNat ≤ 0xDF
  · rw [if_pos h2]
    refine ⟨1, ⟨Nat.le_refl _, Nat.le_refl _, .inl ⟨rfl, rfl, ?_⟩⟩, Nat.le_refl _⟩
    show b.toNat - 0xC0 < 0x20
    omega
  rw [if_neg h2]
  by_cases h3 : 0xE0 ≤ b.toNat ∧ b.toNat ≤ 0xEF
  · rw [if_pos h3]
    refine ⟨1, ⟨?_, ?_, .inr (.inl ⟨rfl, rfl, ?_⟩)⟩, Nat.le_refl _⟩
    · show 0x80 ≤ (if b.toNat = 0xE0 then 0xA0 else 0x80)
      split <;> omega
    · show (if b.toNat = 0xED then 0x9F else 0xBF) ≤ 0xBF
      split <;> omega
    · show b.toNat - 0xE0 < 0x10
      omega
  rw [if_neg h3, if_pos (by omega)]
  refine ⟨1, ⟨?_, ?_, .inr (.inr (.inr ⟨?_, rfl⟩))⟩, Nat.le_refl _⟩
  · show 0x80 ≤ (if b.toNat = 0xF0 then 0x90 else 0x80)
    split <;> omega
  · show (if b.toNat = 0xF4 then 0x8F else 0xBF) ≤ 0xBF
    split <;> omega
  · show 0 < 3
    omega

theorem keeps_stringDecoder_byte {kept : StringDecoder} {n : ℕ} (hkeeps : Keeps kept n)
    (hb : Accepts kept b) :
    ∃ n', Keeps (kept.byte b).1 n' ∧ (encodeChars (kept.byte b).2).length + n' ≤ n + 1 := by
  cases kept with
  | none =>
    cases hkeeps
    exact keeps_startChar hb
  | some p =>
    obtain ⟨-, hhigh, hcount⟩ := hkeeps
    have hrange : p.low ≤ b.toNat ∧ b.toNat ≤ p.high := hb
    unfold StringDecoder.byte
    simp only
    rw [if_pos hrange]
    by_cases hmissing : p.missing = 1
    · rw [if_pos hmissing]
      refine ⟨0, rfl, ?_⟩
      have hle := toNat_ofNat_le (p.code * 64 + (b.toNat - 0x80))
      have hsize := utf8Size_le (c := Char.ofNat (p.code * 64 + (b.toNat - 0x80)))
      have hfour := Char.utf8Size_le_four (Char.ofNat (p.code * 64 + (b.toNat - 0x80)))
      simp [encodeChars]
      omega
    · rw [if_neg hmissing]
      refine ⟨n + 1, ⟨Nat.le_refl _, Nat.le_refl _, ?_⟩, Nat.le_of_eq (Nat.zero_add _)⟩
      dsimp only
      omega

theorem keeps_byte {n : ℕ} (hkeeps : Keeps d.kept n) (h : d.byte b = some (d', cs)) :
    ∃ n', Keeps d'.kept n' ∧ (encodeChars cs).length + n' ≤ n + 1 := by
  unfold byte at h
  split_ifs at h with hb
  obtain ⟨n', hkeeps', hlength⟩ := keeps_stringDecoder_byte hkeeps hb
  split at h
  · rename_i kept hbyte
    cases h
    rw [hbyte] at hkeeps' hlength
    exact ⟨n', hkeeps', hlength⟩
  · rename_i kept c cs' hbyte
    cases h
    rw [hbyte] at hkeeps' hlength
    refine ⟨n', hkeeps', ?_⟩
    split
    · have hcons : encodeChars (c :: cs') = String.utf8EncodeChar c ++ encodeChars cs' := rfl
      rw [hcons, List.length_append] at hlength
      omega
    · exact hlength

theorem keeps_decodeStream {n : ℕ} (hkeeps : Keeps d.kept n)
    (h : d.decodeStream bs = some (d', cs)) :
    ∃ n', Keeps d'.kept n' ∧ (encodeChars cs).length + n' ≤ n + bs.length := by
  induction bs generalizing d n cs with
  | nil =>
    cases h
    exact ⟨n, hkeeps, Nat.le_of_eq (Nat.zero_add n)⟩
  | cons b bs ih =>
    rw [decodeStream] at h
    cases hbyte : d.byte b with
    | none =>
      rw [hbyte] at h
      cases h
    | some r =>
      obtain ⟨d₁, cs₁⟩ := r
      rw [hbyte] at h
      dsimp only at h
      obtain ⟨n₁, hkeeps₁, hlength₁⟩ := keeps_byte hkeeps hbyte
      cases hrest : d₁.decodeStream bs with
      | none =>
        rw [hrest] at h
        cases h
      | some r =>
        obtain ⟨d₂, cs₂⟩ := r
        rw [hrest] at h
        cases h
        obtain ⟨n', hkeeps', hlength'⟩ := ih hkeeps₁ hrest
        refine ⟨n', hkeeps', ?_⟩
        dsimp only at hlength' ⊢
        rw [encodeChars_append, List.length_append, List.length_cons]
        omega

theorem byte_cases (h : d.byte b = some (d', cs)) : cs = [] ∨ ∃ c, cs = [c] := by
  have hlength : (d.kept.byte b).2.length ≤ 1 := by
    unfold byte at h
    split_ifs at h with hb
    cases hkept : d.kept with
    | none =>
      show (StringDecoder.startChar b).2.length ≤ 1
      unfold StringDecoder.startChar
      dsimp only
      split_ifs <;> simp
    | some p =>
      rw [hkept] at hb
      have hrange : p.low ≤ b.toNat ∧ b.toNat ≤ p.high := hb
      unfold StringDecoder.byte
      dsimp only
      rw [if_pos hrange]
      split_ifs <;> simp
  unfold byte at h
  split_ifs at h
  split at h
  · cases h
    exact .inl rfl
  · rename_i kept c cs' hbyte
    cases h
    rw [hbyte] at hlength
    have hnil : cs' = [] :=
      List.eq_nil_of_length_eq_zero (Nat.le_zero.mp (Nat.le_of_succ_le_succ hlength))
    rw [hnil]
    split
    · exact .inl rfl
    · exact .inr ⟨c, rfl⟩

theorem byte_newline {n : ℕ} (hkeeps : Keeps d.kept n) (h : d.byte 10 = some (d', cs)) :
    d' = ⟨none, true⟩ ∧ cs = ['\n'] := by
  unfold byte at h
  split_ifs at h with hb
  cases hkept : d.kept with
  | none =>
    rw [hkept] at h
    have hbyte : StringDecoder.byte none 10 = (none, ['\n']) := rfl
    rw [hbyte] at h
    dsimp only at h
    rw [if_neg fun hnot => absurd hnot.2 (by decide)] at h
    cases h
    exact ⟨rfl, rfl⟩
  | some p =>
    rw [hkept] at hkeeps hb
    have hrange : p.low ≤ 10 ∧ 10 ≤ p.high := hb
    have hlow := hkeeps.1
    omega

/-! ## Texts -/

theorem accepts_of_byte {kept : StringDecoder} {p : Partial} (h : kept.byte b = (some p, [])) :
    Accepts kept b := by
  cases kept with
  | none =>
    change StringDecoder.startChar b = _ at h
    unfold StringDecoder.startChar at h
    simp only at h
    show b.toNat < 0x80 ∨ 0xC2 ≤ b.toNat ∧ b.toNat ≤ 0xF4
    by_contra hnot
    rw [if_neg (by omega), if_neg (by omega), if_neg (by omega), if_neg (by omega)] at h
    cases (Prod.mk.inj h).1
  | some q =>
    unfold StringDecoder.byte at h
    simp only at h
    by_cases hrange : q.low ≤ b.toNat ∧ b.toNat ≤ q.high
    · exact hrange
    · rw [if_neg hrange] at h
      cases (Prod.mk.inj h).2

theorem accepts_of_byte_last {q : Partial} {c : Char}
    (h : StringDecoder.byte (some q) b = (none, [c])) : Accepts (some q) b := by
  unfold StringDecoder.byte at h
  simp only at h
  by_cases hrange : q.low ≤ b.toNat ∧ b.toNat ≤ q.high
  · exact hrange
  · -- otherwise the byte would begin a character without any text
    rw [if_neg hrange] at h
    obtain ⟨hkept, htext⟩ := Prod.mk.inj h
    rcases StringDecoder.startChar_cases b with hne | ⟨p, hp⟩
    · exact absurd (List.cons.inj htext).2 hne
    · rw [hp] at hkept
      cases hkept

def decoded (bomSeen : Bool) (c : Char) : List Char :=
  if bomSeen = false ∧ c = byteOrderMark then [] else [c]

theorem decodeStream_completes {c : Char} {kept : StringDecoder} {bomSeen : Bool}
    (h : StringDecoder.Completes c kept bs)
    (hascii : ∀ b, kept = none → bs = [b] → b.toNat < 0x80) :
    decodeStream ⟨kept, bomSeen⟩ bs = some (⟨none, true⟩, decoded bomSeen c) := by
  induction bs generalizing kept with
  | nil => exact absurd h id
  | cons b bs ih =>
    cases bs with
    | nil =>
      have hbyte : kept.byte b = (none, [c]) := h
      have haccepts : Accepts kept b := by
        cases kept with
        | none => exact .inl (hascii b rfl rfl)
        | some q => exact accepts_of_byte_last hbyte
      rw [decodeStream_singleton, byte, if_pos haccepts]
      dsimp only
      rw [hbyte]
      rfl
    | cons b' bs =>
      obtain ⟨⟨p, hp⟩, hrest⟩ := h
      rw [hp] at hrest
      have hih := ih hrest nofun
      rw [decodeStream, byte, if_pos (accepts_of_byte hp)]
      dsimp only
      rw [hp]
      dsimp only
      rw [hih]
      rfl

theorem toNat_lt_of_utf8EncodeChar {c : Char} (hb : String.utf8EncodeChar c = [b]) :
    b.toNat < 0x80 := by
  have hsize : c.utf8Size = 1 := by
    rw [← String.length_utf8EncodeChar, hb]
    rfl
  have hc : c.toNat ≤ 127 := UInt32.le_iff_toNat_le.mp (Char.utf8Size_eq_one_iff.mp hsize)
  rw [String.utf8EncodeChar_eq_singleton hsize] at hb
  cases hb
  show c.val.toNat % 256 < 0x80
  have hval : c.val.toNat ≤ 127 := hc
  omega

theorem decodeStream_encodeChar (c : Char) (bomSeen : Bool) :
    decodeStream ⟨none, bomSeen⟩ (String.utf8EncodeChar c) =
      some (⟨none, true⟩, decoded bomSeen c) := by
  apply decodeStream_completes (StringDecoder.completes_utf8EncodeChar c)
  exact fun b _ hb => toNat_lt_of_utf8EncodeChar hb

theorem decodeStream_encodeChars {bomSeen : Bool} {text : List Char}
    (h : bomSeen = true ∨ text.head? ≠ some byteOrderMark) :
    decodeStream ⟨none, bomSeen⟩ (encodeChars text) =
      some (⟨none, bomSeen || !text.isEmpty⟩, text) := by
  induction text generalizing bomSeen with
  | nil => simp [encodeChars, decodeStream]
  | cons c text ih =>
    have hdecoded : decoded bomSeen c = [c] := by
      unfold decoded
      rw [if_neg]
      rintro ⟨hseen, rfl⟩
      rcases h with h | h
      · rw [hseen] at h
        cases h
      · exact h rfl
    have hcons : encodeChars (c :: text) = String.utf8EncodeChar c ++ encodeChars text := rfl
    rw [hcons, decodeStream_append, decodeStream_encodeChar, Option.bind_some, hdecoded]
    dsimp only
    rw [ih (.inl rfl)]
    simp

end TextDecoder

end TransformHub.Js
