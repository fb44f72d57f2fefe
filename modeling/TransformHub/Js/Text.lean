import Mathlib.Data.Int.Notation
import Mathlib.Data.List.Basic

/-!
# String operations of the modelled language

`startsWith`, `endsWith` and `trim` on the character lists of the strings.
-/

namespace TransformHub.Js

def startsWith (s p : String) : Bool := p.toList.isPrefixOf s.toList

def endsWith (s p : String) : Bool := p.toList.isSuffixOf s.toList

/-- The white space and line terminators that `trim` removes. -/
def isWhiteSpace (c : Char) : Bool :=
  c.toNat ∈ [0x9, 0xA, 0xB, 0xC, 0xD, 0x20, 0xA0, 0x1680, 0x2000, 0x2001, 0x2002, 0x2003, 0x2004,
    0x2005, 0x2006, 0x2007, 0x2008, 0x2009, 0x200A, 0x2028, 0x2029, 0x202F, 0x205F, 0x3000, 0xFEFF]

/-- Characters without the leading and trailing white space. -/
def trimChars (cs : List Char) : List Char :=
  ((cs.dropWhile isWhiteSpace).reverse.dropWhile isWhiteSpace).reverse

def trim (s : String) : String := String.ofList (trimChars s.toList)

/-- The number that digits are read as, with what stands before them. -/
def digitsValue (n : ℕ) (cs : List Char) : ℕ :=
  cs.foldl (fun m c => 10 * m + (c.toNat - '0'.toNat)) n

/-- `parseInt(s, 10)`: white space and a sign are skipped, and what follows the digits is not read.
`none` is `NaN`. -/
def parseInt (s : String) : Option ℤ :=
  let cs := s.toList.dropWhile isWhiteSpace
  let unsigned := if cs.head? = some '-' ∨ cs.head? = some '+' then cs.tail else cs
  match unsigned.takeWhile Char.isDigit with
  | [] => none
  | d :: ds =>
    let value : ℤ := digitsValue 0 (d :: ds)
    some (if cs.head? = some '-' then -value else value)

theorem startsWith_iff {s p : String} : startsWith s p = true ↔ p.toList <+: s.toList :=
  List.isPrefixOf_iff_prefix

theorem endsWith_iff {s p : String} : endsWith s p = true ↔ p.toList <:+ s.toList :=
  List.isSuffixOf_iff_suffix

theorem prefix_append_iff_of_notMem {c : Char} {xs ys t : List Char} (hc : c ∉ t) :
    xs ++ [c] <+: ys ++ t ↔ xs ++ [c] <+: ys := by
  refine ⟨fun h => ?_, fun h => h.trans (List.prefix_append ys t)⟩
  rcases List.prefix_or_prefix_of_prefix h (List.prefix_append ys t) with h' | ⟨u, hu⟩
  · exact h'
  · rcases List.eq_nil_or_concat u with rfl | ⟨u', d, rfl⟩
    · rw [List.append_nil] at hu
      exact hu ▸ List.prefix_rfl
    · have hlast : c = d := by
        have := congrArg List.getLast? hu
        simpa using this.symm
      rw [← hu, List.prefix_append_right_inj] at h
      exact absurd (h.subset (by simp [hlast])) hc

theorem endsWith_append (t p : String) : endsWith (t ++ p) p = true := by
  rw [endsWith_iff, String.toList_append]
  exact List.suffix_append _ _

theorem trimChars_of_ends {c d : Char} {cs : List Char} (hc : isWhiteSpace c = false)
    (hd : isWhiteSpace d = false) : trimChars (c :: (cs ++ [d])) = c :: (cs ++ [d]) := by
  unfold trimChars
  rw [List.dropWhile_cons_of_neg (by simp [hc]), ← List.cons_append, List.reverse_append,
    List.reverse_singleton, List.singleton_append, List.dropWhile_cons_of_neg (by simp [hd])]
  simp

theorem trim_of_ends {s : String} (c d : Char) (cs : List Char) (hs : s.toList = c :: (cs ++ [d]))
    (hc : isWhiteSpace c = false) (hd : isWhiteSpace d = false) : trim s = s := by
  unfold trim
  rw [hs, trimChars_of_ends hc hd, ← hs, String.ofList_toList]

end TransformHub.Js
