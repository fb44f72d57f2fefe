import Mathlib.Data.Nat.Notation

/-!
# Code points

The elements of a text in a language whose texts may hold lone surrogates. A surrogate is no
character, so that such a text may have no encoding.
-/

namespace TransformHub

/-- A code point, which may be a surrogate. -/
structure CodePoint where
  val : ℕ
  lt : val < 0x110000
deriving DecidableEq

namespace CodePoint

def isSurrogate (p : CodePoint) : Bool := decide (0xD800 ≤ p.val) && decide (p.val ≤ 0xDFFF)

def ofChar (c : Char) : CodePoint := ⟨c.toNat, by
  rcases c.valid with h | ⟨-, h⟩
  · exact Nat.lt_trans h (by decide)
  · exact h⟩

/-- The character that a code point is. -/
def toChar? (p : CodePoint) : Option Char :=
  if p.isSurrogate then none else some (Char.ofNat p.val)

theorem isSurrogate_ofChar (c : Char) : (ofChar c).isSurrogate = false := by
  have hvalid : c.toNat < 0xD800 ∨ 0xDFFF < c.toNat ∧ c.toNat < 0x110000 := c.valid
  have hval : (ofChar c).val = c.toNat := rfl
  simp only [isSurrogate, hval, Bool.and_eq_false_iff, decide_eq_false_iff_not]
  omega

@[simp] theorem toChar?_ofChar (c : Char) : (ofChar c).toChar? = some c := by
  rw [toChar?, isSurrogate_ofChar, if_neg Bool.false_ne_true]
  exact congrArg some (Char.ofNat_toNat c)

theorem eq_ofChar_of_toChar? {p : CodePoint} {c : Char} (h : p.toChar? = some c) :
    p = ofChar c := by
  unfold toChar? at h
  split at h
  · cases h
  · rename_i hp
    have hvalid : p.val.isValidChar := by
      have hlt := p.lt
      simp only [isSurrogate, Bool.and_eq_true, decide_eq_true_eq] at hp
      show p.val < 0xD800 ∨ 0xDFFF < p.val ∧ p.val < 0x110000
      omega
    obtain rfl := Option.some.inj h
    have hval : (Char.ofNat p.val).toNat = p.val := by
      rw [Char.ofNat, dif_pos hvalid]
      rfl
    cases p
    simp only [ofChar, CodePoint.mk.injEq]
    exact hval.symm

/-- The characters of a text without surrogates. -/
def chars? (text : List CodePoint) : Option (List Char) := text.mapM toChar?

theorem chars?_eq_none_iff {text : List CodePoint} :
    chars? text = none ↔ ∃ p ∈ text, p.isSurrogate = true := by
  induction text with
  | nil => simp [chars?]
  | cons p text ih =>
    unfold chars? at ih ⊢
    simp only [List.mapM_cons, List.mem_cons, exists_eq_or_imp, ← ih]
    by_cases hp : p.isSurrogate = true
    · simp [toChar?, hp]
    · cases text.mapM toChar? <;> simp [toChar?, hp]

theorem eq_map_of_chars? {text : List CodePoint} {cs : List Char} (h : chars? text = some cs) :
    text = cs.map ofChar := by
  induction text generalizing cs with
  | nil =>
    cases h
    rfl
  | cons p text ih =>
    unfold chars? at ih h
    rw [List.mapM_cons] at h
    obtain ⟨c, hc, h⟩ := Option.bind_eq_some_iff.mp h
    obtain ⟨rest, hrest, h⟩ := Option.bind_eq_some_iff.mp h
    cases h
    rw [List.map_cons, ← ih hrest, ← eq_ofChar_of_toChar? hc]

theorem length_of_chars? {text : List CodePoint} {cs : List Char} (h : chars? text = some cs) :
    cs.length = text.length := by
  rw [eq_map_of_chars? h, List.length_map]

end CodePoint

end TransformHub
