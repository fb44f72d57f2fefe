import TransformHub.Js.StringDecoder

/-!
# Text whose bytes are decoded in pieces

`toString("utf-8")` of each piece of a text's bytes, one by one.
-/

namespace TransformHub.Js

namespace StringDecoder

/-! ## One character -/

/-- The bytes lead from the state to the end of the character `c`, and not before the last one. -/
def Completes (c : Char) : StringDecoder → List UInt8 → Prop
  | _, [] => False
  | d, [b] => d.byte b = (none, [c])
  | d, b :: b' :: bs => (∃ p, d.byte b = (some p, [])) ∧ Completes c (d.byte b).1 (b' :: bs)

theorem Completes.write {c : Char} {d : StringDecoder} {bs : List UInt8} (h : Completes c d bs) :
    d.write bs = (none, [c]) := by
  induction bs generalizing d with
  | nil => exact absurd h id
  | cons b bs ih =>
    cases bs with
    | nil =>
      have hb : d.byte b = (none, [c]) := h
      simp [StringDecoder.write, hb]
    | cons b' bs =>
      obtain ⟨⟨p, hp⟩, hrest⟩ := h
      have hrest := ih hrest
      rw [StringDecoder.write, hrest, hp]
      rfl

theorem Completes.write_part {c : Char} {d : StringDecoder} {u v : List UInt8}
    (h : Completes c d (u ++ v)) (hu : u ≠ []) (hv : v ≠ []) : ∃ p, d.write u = (some p, []) := by
  induction u generalizing d with
  | nil => exact absurd rfl hu
  | cons b u ih =>
    cases u with
    | nil =>
      obtain ⟨b', bs, rfl⟩ := List.exists_cons_of_ne_nil hv
      obtain ⟨⟨p, hp⟩, -⟩ := h
      exact ⟨p, by simp [StringDecoder.write, hp]⟩
    | cons b' u =>
      obtain ⟨⟨p, hp⟩, hrest⟩ := h
      obtain ⟨p', hp'⟩ := ih hrest (List.cons_ne_nil _ _)
      refine ⟨p', ?_⟩
      rw [StringDecoder.write, hp', hp]
      rfl

/-- A byte that continues a character. -/
def isContinuation (b : UInt8) : Prop := 0x80 ≤ b.toNat ∧ b.toNat ≤ 0xBF

theorem startChar_continuation {b : UInt8} (h : isContinuation b) :
    startChar b = (none, [replacementChar]) := by
  obtain ⟨hlow, hhigh⟩ := h
  unfold startChar
  simp only
  rw [if_neg (by omega), if_neg (by omega), if_neg (by omega), if_neg (by omega)]

theorem write_continuations {bs : List UInt8} (h : ∀ b ∈ bs, isContinuation b) :
    write none bs = (none, List.replicate bs.length replacementChar) := by
  induction bs with
  | nil => rfl
  | cons b bs ih =>
    have hb : byte none b = (none, [replacementChar]) :=
      startChar_continuation (h b List.mem_cons_self)
    rw [write, hb, ih fun b' hb' => h b' (List.mem_cons_of_mem _ hb')]
    rfl

theorem toNat_ofNat_of_lt {n : ℕ} (h : n < 256) : (UInt8.ofNat n).toNat = n := by
  rw [UInt8.toNat_ofNat']
  exact Nat.mod_eq_of_lt h

theorem char_bounds (c : Char) :
    c.val.toNat < 0xD800 ∨ 0xDFFF < c.val.toNat ∧ c.val.toNat < 0x110000 :=
  c.valid

section Lengths

variable {c : Char} {v : ℕ}

theorem completes_one (hc : c.toNat = v) (h : v < 0x80) : Completes c none [UInt8.ofNat v] := by
  have hb := toNat_ofNat_of_lt (n := v) (by omega)
  show byte none (UInt8.ofNat v) = (none, [c])
  unfold byte startChar
  simp only [hb]
  rw [if_pos h, ← hc, Char.ofNat_toNat]

theorem completes_last (hc : c.toNat = v) :
    Completes c (some ⟨v / 64, 1, 0x80, 0xBF⟩) [UInt8.ofNat (v % 64 + 0x80)] := by
  have hb := toNat_ofNat_of_lt (n := v % 64 + 0x80) (by omega)
  have hcode : v / 64 * 64 + (v % 64 + 0x80 - 0x80) = v := by omega
  show byte (some ⟨v / 64, 1, 0x80, 0xBF⟩) (UInt8.ofNat (v % 64 + 0x80)) = (none, [c])
  unfold byte
  simp only [hb, hcode]
  rw [if_pos (by omega), if_pos trivial, ← hc, Char.ofNat_toNat]

theorem Completes.next {low high m : ℕ} {b : UInt8} {bs : List UInt8} (hlow : low ≤ v % 64 + 0x80)
    (hhigh : v % 64 + 0x80 ≤ high) (h : Completes c (some ⟨v, m + 1, 0x80, 0xBF⟩) (b :: bs)) :
    Completes c (some ⟨v / 64, m + 2, low, high⟩)
      (UInt8.ofNat (v % 64 + 0x80) :: b :: bs) := by
  have hb := toNat_ofNat_of_lt (n := v % 64 + 0x80) (by omega)
  have hcode : v / 64 * 64 + (v % 64 + 0x80 - 0x80) = v := by omega
  have hbyte : byte (some ⟨v / 64, m + 2, low, high⟩) (UInt8.ofNat (v % 64 + 0x80)) =
      (some ⟨v, m + 1, 0x80, 0xBF⟩, []) := by
    unfold byte
    simp only [hb, hcode]
    rw [if_pos ⟨hlow, hhigh⟩, if_neg (by omega)]
    rfl
  refine ⟨⟨_, hbyte⟩, ?_⟩
  rw [hbyte]
  exact h

theorem Completes.start {p : Partial} {first : ℕ} {b : UInt8} {bs : List UInt8}
    (h : Completes c (some p) (b :: bs)) (hstart : startChar (UInt8.ofNat first) = (some p, [])) :
    Completes c none (UInt8.ofNat first :: b :: bs) := by
  have hbyte : byte none (UInt8.ofNat first) = (some p, []) := hstart
  refine ⟨⟨p, hbyte⟩, ?_⟩
  rw [hbyte]
  exact h

theorem completes_two (hc : c.toNat = v) (hlow : 0x80 ≤ v) (hhigh : v < 0x800) :
    Completes c none [UInt8.ofNat (v / 64 % 32 + 0xC0), UInt8.ofNat (v % 64 + 0x80)] := by
  have hb := toNat_ofNat_of_lt (n := v / 64 % 32 + 0xC0) (by omega)
  have hcode : v / 64 % 32 + 0xC0 - 0xC0 = v / 64 := by omega
  apply (completes_last hc).start
  unfold startChar
  simp only [hb]
  rw [if_neg (by omega), if_pos (by omega), hcode]

theorem completes_three (hc : c.toNat = v) (hlow : 0x800 ≤ v) (hhigh : v < 0x10000)
    (hbounds : v < 0xD800 ∨ 0xDFFF < v) :
    Completes c none [UInt8.ofNat (v / 4096 % 16 + 0xE0), UInt8.ofNat (v / 64 % 64 + 0x80),
      UInt8.ofNat (v % 64 + 0x80)] := by
  have hb := toNat_ofNat_of_lt (n := v / 4096 % 16 + 0xE0) (by omega)
  have hcode : v / 4096 % 16 + 0xE0 - 0xE0 = v / 64 / 64 := by omega
  have hfirst : (v / 4096 % 16 + 0xE0 = 0xE0) ↔ v / 4096 = 0 := by omega
  have hlast : (v / 4096 % 16 + 0xE0 = 0xED) ↔ v / 4096 = 13 := by omega
  -- the range of the second byte leaves out overlong forms and surrogates
  have hsecond : Completes c (some ⟨v / 64 / 64, 2, if v / 4096 = 0 then 0xA0 else 0x80,
      if v / 4096 = 13 then 0x9F else 0xBF⟩)
      [UInt8.ofNat (v / 64 % 64 + 0x80), UInt8.ofNat (v % 64 + 0x80)] :=
    (completes_last hc).next (by split_ifs <;> omega) (by split_ifs <;> omega)
  apply hsecond.start
  unfold startChar
  simp only [hb]
  rw [if_neg (by omega), if_neg (by omega), if_pos (by omega)]
  simp only [hcode, hfirst, hlast]

theorem completes_four (hc : c.toNat = v) (hlow : 0x10000 ≤ v) (hhigh : v < 0x110000) :
    Completes c none [UInt8.ofNat (v / 262144 % 8 + 0xF0), UInt8.ofNat (v / 4096 % 64 + 0x80),
      UInt8.ofNat (v / 64 % 64 + 0x80), UInt8.ofNat (v % 64 + 0x80)] := by
  have hb := toNat_ofNat_of_lt (n := v / 262144 % 8 + 0xF0) (by omega)
  have hcode : v / 262144 % 8 + 0xF0 - 0xF0 = v / 4096 / 64 := by omega
  have hfirst : (v / 262144 % 8 + 0xF0 = 0xF0) ↔ v / 262144 = 0 := by omega
  have hlast : (v / 262144 % 8 + 0xF0 = 0xF4) ↔ v / 262144 = 4 := by omega
  have hthird : Completes c (some ⟨v / 4096, 2, 0x80, 0xBF⟩)
      [UInt8.ofNat (v / 64 % 64 + 0x80), UInt8.ofNat (v % 64 + 0x80)] := by
    rw [show v / 4096 = v / 64 / 64 by omega]
    exact (completes_last hc).next (by omega) (by omega)
  have hsecond : Completes c (some ⟨v / 4096 / 64, 3, if v / 262144 = 0 then 0x90 else 0x80,
      if v / 262144 = 4 then 0x8F else 0xBF⟩) _ :=
    hthird.next (by split_ifs <;> omega) (by split_ifs <;> omega)
  apply hsecond.start
  unfold startChar
  simp only [hb]
  rw [if_neg (by omega), if_neg (by omega), if_neg (by omega), if_pos (by omega)]
  simp only [hcode, hfirst, hlast]

end Lengths

theorem completes_utf8EncodeChar (c : Char) : Completes c none (String.utf8EncodeChar c) := by
  have hbounds := char_bounds c
  have hc : c.toNat = c.val.toNat := rfl
  generalize hv : c.val.toNat = v at hbounds hc
  unfold String.utf8EncodeChar
  simp only [hv]
  split_ifs with h1 h2 h3
  · exact completes_one hc (by omega)
  · exact completes_two hc (by omega) (by omega)
  · exact completes_three hc (by omega) (by omega) (by omega)
  · exact completes_four hc (by omega) (by omega)

theorem continuations_utf8EncodeChar (c : Char) :
    ∀ b ∈ (String.utf8EncodeChar c).tail, isContinuation b := by
  have hcontinues : ∀ n, isContinuation (UInt8.ofNat (n % 64 + 0x80)) := by
    intro n
    have hb := toNat_ofNat_of_lt (n := n % 64 + 0x80) (by omega)
    unfold isContinuation
    omega
  intro b hb
  unfold String.utf8EncodeChar at hb
  simp only at hb
  split_ifs at hb
  · cases hb
  · simp only [List.tail_cons, List.mem_singleton] at hb
    exact hb ▸ hcontinues _
  · simp only [List.tail_cons, List.mem_cons, List.not_mem_nil, or_false] at hb
    rcases hb with rfl | rfl <;> exact hcontinues _
  · simp only [List.tail_cons, List.mem_cons, List.not_mem_nil, or_false] at hb
    rcases hb with rfl | rfl | rfl <;> exact hcontinues _

theorem toNat_of_mem_utf8EncodeChar {c : Char} {b : UInt8} (h : b ∈ String.utf8EncodeChar c)
    (hb : b.toNat < 0x80) : c.toNat = b.toNat := by
  have hc : c.toNat = c.val.toNat := rfl
  have hfirst : ∀ n k, 0x80 ≤ k → k + n < 256 → 0x80 ≤ (UInt8.ofNat (n + k)).toNat := by
    intro n k hk hlt
    rw [toNat_ofNat_of_lt (by omega)]
    omega
  generalize hv : c.val.toNat = v at hc
  unfold String.utf8EncodeChar at h
  simp only [hv] at h
  split_ifs at h with h1 h2 h3
  · rw [List.mem_singleton] at h
    rw [h, toNat_ofNat_of_lt (by omega), hc]
  · exfalso
    simp only [List.mem_cons, List.not_mem_nil, or_false] at h
    rcases h with rfl | rfl
    · have := hfirst (v / 64 % 0x20) 0xc0 (by omega) (by omega)
      omega
    · have := hfirst (v % 0x40) 0x80 (by omega) (by omega)
      omega
  · exfalso
    simp only [List.mem_cons, List.not_mem_nil, or_false] at h
    rcases h with rfl | rfl | rfl
    · have := hfirst (v / 4096 % 0x10) 0xe0 (by omega) (by omega)
      omega
    · have := hfirst (v / 64 % 0x40) 0x80 (by omega) (by omega)
      omega
    · have := hfirst (v % 0x40) 0x80 (by omega) (by omega)
      omega
  · exfalso
    simp only [List.mem_cons, List.not_mem_nil, or_false] at h
    rcases h with rfl | rfl | rfl | rfl
    · have := hfirst (v / 262144 % 0x08) 0xf0 (by omega) (by omega)
      omega
    · have := hfirst (v / 4096 % 0x40) 0x80 (by omega) (by omega)
      omega
    · have := hfirst (v / 64 % 0x40) 0x80 (by omega) (by omega)
      omega
    · have := hfirst (v % 0x40) 0x80 (by omega) (by omega)
      omega

end StringDecoder

open StringDecoder

/-- The characters of `buffer.toString("utf-8")`. -/
def decodeChars (bs : List UInt8) : List Char := (write none bs).2 ++ finish (write none bs).1

def encodeChars (cs : List Char) : List UInt8 := cs.flatMap String.utf8EncodeChar

def IsText (bs : List UInt8) : Prop := ∃ cs, bs = encodeChars cs

@[simp] theorem encodeChars_append (a b : List Char) :
    encodeChars (a ++ b) = encodeChars a ++ encodeChars b := List.flatMap_append

theorem length_le_encodeChars (cs : List Char) : cs.length ≤ (encodeChars cs).length := by
  induction cs with
  | nil => exact Nat.le_refl 0
  | cons c cs ih =>
    have hne : 0 < (String.utf8EncodeChar c).length :=
      List.length_pos_iff.mpr String.utf8EncodeChar_ne_nil
    show (c :: cs).length ≤ (String.utf8EncodeChar c ++ encodeChars cs).length
    rw [List.length_cons, List.length_append]
    omega

theorem write_encodeChars (cs : List Char) : write none (encodeChars cs) = (none, cs) := by
  induction cs with
  | nil => rfl
  | cons c cs ih =>
    show write none (String.utf8EncodeChar c ++ encodeChars cs) = _
    rw [write_append, (completes_utf8EncodeChar c).write, ih]
    rfl

@[simp] theorem decodeChars_encodeChars (cs : List Char) : decodeChars (encodeChars cs) = cs := by
  unfold decodeChars
  rw [write_encodeChars]
  exact List.append_nil cs

theorem encode_decode_iff {bs : List UInt8} : encodeChars (decodeChars bs) = bs ↔ IsText bs := by
  constructor
  · intro h
    exact ⟨_, h.symm⟩
  · rintro ⟨cs, rfl⟩
    rw [decodeChars_encodeChars]

theorem encodeChars_injective {a b : List Char} (h : encodeChars a = encodeChars b) : a = b := by
  rw [← decodeChars_encodeChars a, h, decodeChars_encodeChars]

theorem decodeChars_eq_nil {bs : List UInt8} (h : decodeChars bs = []) : bs = [] := by
  by_contra hne
  exact write_ne_nil hne h

theorem decodeChars_append_of_none {a b : List UInt8} {cs : List Char}
    (h : write none a = (none, cs)) : decodeChars (a ++ b) = cs ++ decodeChars b := by
  unfold decodeChars
  rw [write_append, h]
  exact List.append_assoc _ _ _

/-! ## Garbled texts -/

/-- The other text, with some characters that are not ASCII replaced by two or more replacement
characters each. -/
inductive Garbled : List Char → List Char → Prop
  | nil : Garbled [] []
  | keep (c : Char) {t g : List Char} : Garbled t g → Garbled (c :: t) (c :: g)
  | broken {c : Char} (hc : 128 ≤ c.toNat) (k : ℕ) {t g : List Char} : Garbled t g →
      Garbled (c :: t) (List.replicate (k + 2) replacementChar ++ g)

namespace Garbled

theorem refl (t : List Char) : Garbled t t := by
  induction t with
  | nil => exact .nil
  | cons c t ih => exact .keep c ih

theorem append {t t' g g' : List Char} (h : Garbled t g) (h' : Garbled t' g') :
    Garbled (t ++ t') (g ++ g') := by
  induction h with
  | nil => exact h'
  | keep c _ ih => exact .keep c ih
  | broken hc k _ ih =>
    rw [List.append_assoc]
    exact .broken hc k ih

theorem append_inv {t t' g : List Char} (h : Garbled (t ++ t') g) :
    ∃ g₁ g₂, g = g₁ ++ g₂ ∧ Garbled t g₁ ∧ Garbled t' g₂ := by
  induction t generalizing g with
  | nil => exact ⟨[], g, rfl, .nil, h⟩
  | cons c t ih =>
    cases h with
    | keep _ h =>
      obtain ⟨g₁, g₂, rfl, h₁, h₂⟩ := ih h
      exact ⟨c :: g₁, g₂, rfl, .keep c h₁, h₂⟩
    | broken hc k h =>
      obtain ⟨g₁, g₂, rfl, h₁, h₂⟩ := ih h
      exact ⟨_, g₂, (List.append_assoc _ _ _).symm, .broken hc k h₁, h₂⟩

theorem ascii {t g : List Char} (h : Garbled t g) (ht : ∀ c ∈ t, c.toNat < 128) : g = t := by
  induction h with
  | nil => rfl
  | keep c _ ih => rw [ih fun d hd => ht d (List.mem_cons_of_mem _ hd)]
  | broken hc _ _ _ => exact absurd (ht _ List.mem_cons_self) (Nat.not_lt.mpr hc)

theorem length_le {t g : List Char} (h : Garbled t g) : t.length ≤ g.length := by
  induction h with
  | nil => exact Nat.le_refl 0
  | keep c _ ih => exact Nat.succ_le_succ ih
  | broken _ k _ ih =>
    rw [List.length_cons, List.length_append, List.length_replicate]
    omega

theorem count_lt_or_eq {t g : List Char} (h : Garbled t g) :
    t.count replacementChar < g.count replacementChar ∨ g = t := by
  have hle : ∀ {t g : List Char}, Garbled t g →
      t.count replacementChar ≤ g.count replacementChar := by
    intro t g h
    induction h with
    | nil => exact Nat.le_refl 0
    | keep c _ ih =>
      rw [List.count_cons, List.count_cons]
      omega
    | @broken c _ k t g _ ih =>
      have hc : [c].count replacementChar ≤ 1 := List.count_le_length
      rw [List.count_cons, List.count_append, List.count_replicate_self]
      rw [List.count_singleton] at hc
      omega
  induction h with
  | nil => exact .inr rfl
  | keep c _ ih =>
    rcases ih with ih | rfl
    · rw [List.count_cons, List.count_cons]
      exact .inl (by omega)
    · exact .inr rfl
  | @broken c _ k t g h _ =>
    have hc : [c].count replacementChar ≤ 1 := List.count_le_length
    have hle := hle h
    rw [List.count_cons, List.count_append, List.count_replicate_self]
    rw [List.count_singleton] at hc
    exact .inl (by omega)

end Garbled

/-! ## Pieces of a text -/

theorem cut_flatMap {α β : Type} {f : α → List β} {t : List α} {p q : List β}
    (h : p ++ q = t.flatMap f) :
    ∃ t₁ t₂, t = t₁ ++ t₂ ∧
      (p = t₁.flatMap f ∧ q = t₂.flatMap f ∨
        ∃ a t₃ u w, t₂ = a :: t₃ ∧ f a = u ++ w ∧ u ≠ [] ∧ w ≠ [] ∧
          p = t₁.flatMap f ++ u ∧ q = w ++ t₃.flatMap f) := by
  induction t generalizing p with
  | nil =>
    obtain ⟨rfl, rfl⟩ := List.append_eq_nil_iff.mp h
    exact ⟨[], [], rfl, .inl ⟨rfl, rfl⟩⟩
  | cons a t ih =>
    rw [List.flatMap_cons] at h
    rcases List.append_eq_append_iff.mp h with ⟨w, ha, hq⟩ | ⟨p', hp, hrest⟩
    · by_cases hp : p = []
      · subst hp
        refine ⟨[], a :: t, rfl, .inl ⟨rfl, ?_⟩⟩
        rw [List.flatMap_cons]
        exact h
      by_cases hw : w = []
      · subst hw
        refine ⟨[a], t, rfl, .inl ⟨?_, hq⟩⟩
        rw [List.flatMap_cons, ha, List.flatMap_nil, List.append_nil, List.append_nil]
      · exact ⟨[], a :: t, rfl, .inr ⟨a, t, p, w, rfl, ha, hp, hw, rfl, hq⟩⟩
    · obtain ⟨t₁, t₂, rfl, hcut⟩ := ih hrest.symm
      refine ⟨a :: t₁, t₂, rfl, ?_⟩
      rcases hcut with ⟨rfl, hq⟩ | ⟨b, t₃, u, w, ht, hb, hu, hw, rfl, hq⟩
      · exact .inl ⟨by rw [hp, List.flatMap_cons], hq⟩
      · exact .inr ⟨b, t₃, u, w, ht, hb, hu, hw,
          by rw [hp, List.flatMap_cons, List.append_assoc], hq⟩

theorem continuations_of_append {c : Char} {u w : List UInt8}
    (h : String.utf8EncodeChar c = u ++ w) (hu : u ≠ []) : ∀ b ∈ w, isContinuation b := by
  obtain ⟨b, u, rfl⟩ := List.exists_cons_of_ne_nil hu
  intro b' hb'
  apply continuations_utf8EncodeChar c
  rw [h, List.cons_append, List.tail_cons]
  exact List.mem_append_right _ hb'

theorem toNat_of_append {c : Char} {u w : List UInt8} (h : String.utf8EncodeChar c = u ++ w)
    (hu : u ≠ []) (hw : w ≠ []) : 128 ≤ c.toNat := by
  by_contra hlt
  have hone : String.utf8EncodeChar c = [UInt8.ofNat c.val.toNat] := by
    unfold String.utf8EncodeChar
    rw [if_pos]
    have hc : c.toNat = c.val.toNat := rfl
    omega
  have hlength := congrArg List.length (hone.symm.trans h)
  have hu := List.length_pos_iff.mpr hu
  have hw := List.length_pos_iff.mpr hw
  rw [List.length_singleton, List.length_append] at hlength
  omega

theorem write_continuations_encodeChars {v : List UInt8} (hv : ∀ b ∈ v, isContinuation b)
    (t : List Char) :
    write none (v ++ encodeChars t) = (none, List.replicate v.length replacementChar ++ t) := by
  rw [write_append, write_continuations hv, write_encodeChars]

variable {ps : List (List UInt8)} {t : List Char}

/-- The text of the pieces: before it, what is left of a character that was broken earlier. If
nothing is garbled, every piece is a text. -/
theorem decode_pieces_from {v : List UInt8} (hv : ∀ b ∈ v, isContinuation b)
    (h : ps.flatten = v ++ encodeChars t) :
    ∃ g, ps.flatMap decodeChars = List.replicate v.length replacementChar ++ g ∧ Garbled t g ∧
      (v = [] → g = t → ∀ p ∈ ps, IsText p) := by
  induction ps generalizing v t with
  | nil =>
    obtain ⟨rfl, ht⟩ := List.append_eq_nil_iff.mp h.symm
    have ht : t = [] := encodeChars_injective ht
    subst ht
    exact ⟨[], rfl, .nil, nofun⟩
  | cons p ps ih =>
    rw [List.flatten_cons] at h
    rw [List.flatMap_cons]
    rcases List.append_eq_append_iff.mp h with ⟨v₂, rfl, hrest⟩ | ⟨p', rfl, hrest⟩
    · -- the piece ends with the character that was broken, or inside of it
      obtain ⟨g, hg, hgarbled, htext⟩ :=
        ih (fun b hb => hv b (List.mem_append_right _ hb)) hrest
      have hp : decodeChars p = List.replicate p.length replacementChar := by
        unfold decodeChars
        rw [write_continuations fun b hb => hv b (List.mem_append_left _ hb)]
        exact List.append_nil _
      refine ⟨g, ?_, hgarbled, fun hnil heq q hq => ?_⟩
      · rw [hg, hp, List.length_append, List.replicate_add, List.append_assoc]
      · obtain ⟨rfl, rfl⟩ := List.append_eq_nil_iff.mp hnil
        rcases List.mem_cons.mp hq with rfl | hq
        · exact ⟨[], rfl⟩
        · exact htext rfl heq q hq
    · obtain ⟨t₁, t₂, rfl, hcut⟩ := cut_flatMap hrest.symm
      rcases hcut with ⟨rfl, hps⟩ | ⟨c, t₃, u, w, rfl, hc, hu, hw, rfl, hps⟩
      · -- the piece ends between two characters
        obtain ⟨g, hg, hgarbled, htext⟩ :=
          ih (v := []) (t := t₂) nofun hps
        have hp : decodeChars (v ++ encodeChars t₁) =
            List.replicate v.length replacementChar ++ t₁ := by
          unfold decodeChars
          rw [write_continuations_encodeChars hv]
          exact List.append_nil _
        refine ⟨t₁ ++ g, ?_, (Garbled.refl t₁).append hgarbled, fun hnil heq q hq => ?_⟩
        · rw [hg]
          show decodeChars (v ++ encodeChars t₁) ++ _ = _
          rw [hp, List.append_assoc]
          rfl
        · subst hnil
          rcases List.mem_cons.mp hq with rfl | hq
          · exact ⟨t₁, rfl⟩
          · exact htext rfl (List.append_cancel_left heq) q hq
      · -- the piece ends inside of a character
        obtain ⟨g, hg, hgarbled, -⟩ := ih (continuations_of_append hc hu) hps
        obtain ⟨q, hq⟩ := (hc ▸ completes_utf8EncodeChar c).write_part hu hw
        have hp : decodeChars (v ++ (encodeChars t₁ ++ u)) =
            List.replicate v.length replacementChar ++ (t₁ ++ [replacementChar]) := by
          unfold decodeChars
          rw [← List.append_assoc, write_append, write_continuations_encodeChars hv, hq]
          show (_ ++ []) ++ [replacementChar] = _
          rw [List.append_nil, List.append_assoc]
        obtain ⟨b, w, rfl⟩ := List.exists_cons_of_ne_nil hw
        refine ⟨t₁ ++ (List.replicate (w.length + 2) replacementChar ++ g), ?_,
          (Garbled.refl t₁).append (.broken (toNat_of_append hc hu hw) w.length hgarbled),
          fun _ heq => ?_⟩
        · rw [hg]
          show decodeChars (v ++ (encodeChars t₁ ++ u)) ++ _ = _
          rw [hp]
          simp [List.replicate_succ]
        · exfalso
          have hlength := congrArg List.length (List.append_cancel_left heq)
          have hle := hgarbled.length_le
          rw [List.length_append, List.length_replicate, List.length_cons] at hlength
          omega

/-- The bytes of a text that are decoded piece by piece give the text, garbled where a character is
cut; if none is, every piece is a text. -/
theorem decode_pieces (h : ps.flatten = encodeChars t) :
    Garbled t (ps.flatMap decodeChars) ∧
      (ps.flatMap decodeChars = t → ∀ p ∈ ps, IsText p) := by
  obtain ⟨g, hg, hgarbled, htext⟩ :=
    decode_pieces_from (v := []) nofun h
  rw [hg]
  exact ⟨hgarbled, htext rfl⟩

theorem decode_texts (h : ps.flatten = encodeChars t) (hps : ∀ p ∈ ps, IsText p) :
    ps.flatMap decodeChars = t := by
  have hback : encodeChars (ps.flatMap decodeChars) = ps.flatten := by
    clear h
    induction ps with
    | nil => rfl
    | cons p ps ih =>
      rw [List.flatMap_cons, encodeChars_append, List.flatten_cons,
        encode_decode_iff.mpr (hps p List.mem_cons_self),
        ih fun q hq => hps q (List.mem_cons_of_mem _ hq)]
  exact encodeChars_injective (hback.trans h)

theorem isText_flatten (h : ∀ p ∈ ps, IsText p) : IsText ps.flatten := by
  induction ps with
  | nil => exact ⟨[], rfl⟩
  | cons p ps ih =>
    obtain ⟨cs, rfl⟩ := h p List.mem_cons_self
    obtain ⟨ds, hds⟩ := ih fun q hq => h q (List.mem_cons_of_mem _ hq)
    refine ⟨cs ++ ds, ?_⟩
    rw [List.flatten_cons, hds, encodeChars_append]

theorem isText_rest {a h : List UInt8} (ha : IsText a) (hcut : a ++ h = encodeChars t) :
    IsText h := by
  obtain ⟨cs, rfl⟩ := ha
  obtain ⟨t₁, t₂, rfl, hcase⟩ := cut_flatMap hcut
  rcases hcase with ⟨-, rfl⟩ | ⟨c, t₃, u, w, rfl, hc, hu, hw, heq, -⟩
  · exact ⟨t₂, rfl⟩
  · -- the decoder would have something left of the character that is cut
    exfalso
    obtain ⟨p, hp⟩ := (hc ▸ completes_utf8EncodeChar c).write_part hu hw
    have hnone := write_encodeChars cs
    rw [heq] at hnone
    have hsome : write none (encodeChars t₁ ++ u) = (some p, t₁ ++ []) := by
      rw [write_append, write_encodeChars, hp]
    exact absurd (hnone.symm.trans hsome) (by simp)

theorem write_end {a h : List UInt8} (hcut : a ++ h = encodeChars t) :
    ∃ cs, write none h = (none, cs) := by
  obtain ⟨t₁, t₂, rfl, hcase⟩ := cut_flatMap hcut
  rcases hcase with ⟨-, rfl⟩ | ⟨c, t₃, u, w, rfl, hc, hu, -, -, rfl⟩
  · exact ⟨t₂, write_encodeChars t₂⟩
  · exact ⟨_, write_continuations_encodeChars (continuations_of_append hc hu) t₃⟩

end TransformHub.Js
