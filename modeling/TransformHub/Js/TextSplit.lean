import TransformHub.Js.Utf8Pieces

/-!
# Splitting a text

`s.split` with a separator of two different characters, and the first occurrence of that separator
twice in a row.
-/

namespace TransformHub.Js

section

variable (x y : Char)

/-- The characters occur one after the other. -/
def hasPair : List Char → Bool
  | [] => false
  | [_] => false
  | c :: d :: cs => (c = x && d = y) || hasPair (d :: cs)

/-- `s.split(p)`, for a separator `p` of two characters. -/
def splitPair : List Char → List (List Char)
  | [] => [[]]
  | [c] => [[c]]
  | c :: d :: cs =>
    if c = x ∧ d = y then [] :: splitPair cs
    else
      match splitPair (d :: cs) with
      | [] => [[c]]
      | part :: parts => (c :: part) :: parts

/-- What stands before and after the first `p + p` of a text, for a `p` of two characters. -/
def breakTwice : List Char → Option (List Char × List Char)
  | [] => none
  | c :: cs =>
    if c = x ∧ cs.take 3 = [y, x, y] then some ([], cs.drop 3)
    else (breakTwice cs).map fun found => (c :: found.1, found.2)

end

variable {x y : Char}

theorem hasPair_cons_cons (c d : Char) (cs : List Char) :
    hasPair x y (c :: d :: cs) = ((c = x && d = y) || hasPair x y (d :: cs)) := rfl

theorem splitPair_cons_cons (c d : Char) (cs : List Char) :
    splitPair x y (c :: d :: cs) =
      if c = x ∧ d = y then [] :: splitPair x y cs
      else
        match splitPair x y (d :: cs) with
        | [] => [[c]]
        | part :: parts => (c :: part) :: parts := rfl

theorem hasPair_cons_of_head {c : Char} {cs : List Char} (h : hasPair x y (c :: cs) = false)
    (hc : c = x) : cs.head? ≠ some y := by
  cases cs with
  | nil => simp
  | cons d cs =>
    rw [hasPair_cons_cons, Bool.or_eq_false_iff] at h
    intro hd
    rw [List.head?_cons, Option.some.injEq] at hd
    simp [hc, hd] at h

theorem hasPair_tail {c : Char} {cs : List Char} (h : hasPair x y (c :: cs) = false) :
    hasPair x y cs = false := by
  cases cs with
  | nil => rfl
  | cons d cs =>
    rw [hasPair_cons_cons, Bool.or_eq_false_iff] at h
    exact h.2

theorem hasPair_cons {c : Char} {cs : List Char} (hhead : c = x → cs.head? ≠ some y)
    (htail : hasPair x y cs = false) : hasPair x y (c :: cs) = false := by
  cases cs with
  | nil => rfl
  | cons d cs =>
    rw [hasPair_cons_cons, htail, Bool.or_false]
    by_cases hc : c = x
    · have hd := hhead hc
      rw [List.head?_cons, ne_eq, Option.some.injEq] at hd
      simp [hd]
    · simp [hc]

/-! ## Parts -/

theorem splitPair_ne_nil (s : List Char) : splitPair x y s ≠ [] := by
  fun_cases splitPair x y s <;> simp_all

theorem splitPair_of_free {s : List Char} (h : hasPair x y s = false) : splitPair x y s = [s] := by
  induction s with
  | nil => rfl
  | cons c cs ih =>
    have ih := ih (hasPair_tail h)
    cases cs with
    | nil => rfl
    | cons d cs =>
      rw [hasPair_cons_cons, Bool.or_eq_false_iff] at h
      have hne : ¬ (c = x ∧ d = y) := by
        rintro ⟨hc, hd⟩
        simp [hc, hd] at h
      rw [splitPair_cons_cons, if_neg hne, ih]

section

variable {s part : List Char} {parts : List (List Char)} (h : splitPair x y s = part :: parts)
include h

theorem head?_of_splitPair {c : Char} (hc : part.head? = some c) : s.head? = some c := by
  cases s with
  | nil =>
    cases h
    cases hc
  | cons d cs =>
    cases cs with
    | nil =>
      cases h
      exact hc
    | cons e cs =>
      rw [splitPair_cons_cons] at h
      split_ifs at h
      · cases h
        cases hc
      · split at h
        all_goals
          cases h
          exact hc

theorem hasPair_of_splitPair : hasPair x y part = false := by
  induction s generalizing part parts with
  | nil =>
    cases h
    rfl
  | cons c cs ih =>
    cases cs with
    | nil =>
      cases h
      rfl
    | cons d cs =>
      rw [splitPair_cons_cons] at h
      split_ifs at h with hpair
      · cases h
        rfl
      · split at h
        · cases h
          rfl
        · rename_i first rest hparts
          cases h
          refine hasPair_cons (fun hc hhead => ?_) (ih hparts)
          have hd := head?_of_splitPair hparts hhead
          rw [List.head?_cons, Option.some.injEq] at hd
          exact hpair ⟨hc, hd⟩

end

theorem splitPair_append (hxy : x ≠ y) {part rest : List Char} (h : hasPair x y part = false) :
    splitPair x y (part ++ x :: y :: rest) = part :: splitPair x y rest := by
  induction part with
  | nil =>
    show splitPair x y (x :: y :: rest) = _
    rw [splitPair_cons_cons, if_pos ⟨rfl, rfl⟩]
  | cons c cs ih =>
    have ih := ih (hasPair_tail h)
    have hhead := hasPair_cons_of_head h
    cases cs with
    | nil =>
      have hne : ¬ (c = x ∧ x = y) := fun hboth => hxy hboth.2
      show splitPair x y (c :: x :: y :: rest) = _
      rw [splitPair_cons_cons, if_neg hne]
      have ih : splitPair x y (x :: y :: rest) = [] :: splitPair x y rest := ih
      rw [ih]
    | cons d cs =>
      have hne : ¬ (c = x ∧ d = y) := by
        rintro ⟨hc, hd⟩
        exact hhead hc (by rw [List.head?_cons, hd])
      show splitPair x y (c :: d :: (cs ++ x :: y :: rest)) = _
      rw [splitPair_cons_cons, if_neg hne]
      have ih : splitPair x y (d :: (cs ++ x :: y :: rest)) = (d :: cs) :: splitPair x y rest :=
        ih
      rw [ih]

/-- Parts with the separator between them. -/
def joinPair (x y : Char) : List (List Char) → List Char
  | [] => []
  | [part] => part
  | part :: part' :: parts => part ++ x :: y :: joinPair x y (part' :: parts)

theorem splitPair_joinPair (hxy : x ≠ y) {parts : List (List Char)} (hne : parts ≠ [])
    (h : ∀ part ∈ parts, hasPair x y part = false) :
    splitPair x y (joinPair x y parts) = parts := by
  induction parts with
  | nil => exact absurd rfl hne
  | cons part parts ih =>
    have hpart := h part List.mem_cons_self
    cases parts with
    | nil => exact splitPair_of_free hpart
    | cons part' parts =>
      rw [joinPair, splitPair_append hxy hpart,
        ih (List.cons_ne_nil _ _) fun q hq => h q (List.mem_cons_of_mem _ hq)]

/-! ## The separator twice -/

theorem breakTwice_here (x y : Char) (rest : List Char) :
    breakTwice x y (x :: y :: x :: y :: rest) = some ([], rest) := by
  rw [breakTwice]
  simp

theorem breakTwice_skip {c : Char} {cs : List Char} (h : c = x → cs.head? ≠ some y) :
    breakTwice x y (c :: cs) =
      (breakTwice x y cs).map fun found => (c :: found.1, found.2) := by
  rw [breakTwice, if_neg]
  rintro ⟨hc, htake⟩
  apply h hc
  cases cs with
  | nil => cases htake
  | cons d cs =>
    rw [List.take_succ_cons, List.cons.injEq] at htake
    rw [List.head?_cons, htake.1]

theorem breakTwice_free {part rest : List Char} (h : hasPair x y part = false)
    (hrest : rest.head? ≠ some y) :
    breakTwice x y (part ++ rest) =
      (breakTwice x y rest).map fun found => (part ++ found.1, found.2) := by
  induction part with
  | nil =>
    show breakTwice x y rest = _
    cases breakTwice x y rest <;> rfl
  | cons c cs ih =>
    have hhead : c = x → (cs ++ rest).head? ≠ some y := by
      intro hc
      cases cs with
      | nil => exact hrest
      | cons d cs =>
        have hnot : (d :: cs).head? ≠ some y := hasPair_cons_of_head h hc
        exact hnot
    show breakTwice x y (c :: (cs ++ rest)) = _
    rw [breakTwice_skip hhead, ih (hasPair_tail h)]
    cases breakTwice x y rest <;> rfl

theorem breakTwice_once (hxy : x ≠ y) {rest : List Char} (h : rest.take 2 ≠ [x, y]) :
    breakTwice x y (x :: y :: rest) =
      (breakTwice x y rest).map fun found => (x :: y :: found.1, found.2) := by
  have hy : breakTwice x y (y :: rest) =
      (breakTwice x y rest).map fun found => (y :: found.1, found.2) :=
    breakTwice_skip fun hyx => absurd hyx.symm hxy
  rw [breakTwice, if_neg, hy]
  · cases breakTwice x y rest <;> rfl
  · rintro ⟨-, htake⟩
    rw [List.take_succ_cons, List.cons.injEq] at htake
    exact h htake.2

theorem length_of_breakTwice {s a b : List Char} (h : breakTwice x y s = some (a, b)) :
    3 ≤ s.length := by
  induction s generalizing a b with
  | nil => cases h
  | cons c cs ih =>
    rw [breakTwice] at h
    rw [List.length_cons]
    by_cases hhere : c = x ∧ cs.take 3 = [y, x, y]
    · have := congrArg List.length hhere.2
      simp only [List.length_take, List.length_cons, List.length_nil] at this
      omega
    · rw [if_neg hhere] at h
      obtain ⟨found, hfound, -⟩ := Option.map_eq_some_iff.mp h
      have := ih hfound
      omega

theorem breakTwice_append {s a b : List Char} (h : breakTwice x y s = some (a, b)) (t : List Char) :
    breakTwice x y (s ++ t) = some (a, b ++ t) := by
  induction s generalizing a b with
  | nil => cases h
  | cons c cs ih =>
    rw [breakTwice] at h
    show breakTwice x y (c :: (cs ++ t)) = _
    by_cases hhere : c = x ∧ cs.take 3 = [y, x, y]
    · rw [if_pos hhere] at h
      cases h
      have hlength : 3 ≤ cs.length := by
        have := congrArg List.length hhere.2
        simp only [List.length_take, List.length_cons, List.length_nil] at this
        omega
      rw [breakTwice, if_pos ⟨hhere.1, by rw [List.take_append_of_le_length hlength, hhere.2]⟩,
        List.drop_append_of_le_length hlength]
    · rw [if_neg hhere] at h
      obtain ⟨found, hfound, heq⟩ := Option.map_eq_some_iff.mp h
      cases heq
      have ih := ih hfound
      have hnot : ¬ (c = x ∧ (cs ++ t).take 3 = [y, x, y]) := by
        rintro ⟨hc, htake⟩
        have hlength : 3 ≤ cs.length := length_of_breakTwice hfound
        rw [List.take_append_of_le_length hlength] at htake
        exact hhere ⟨hc, htake⟩
      rw [breakTwice, if_neg hnot, ih]
      rfl

theorem take_two_append {part rest : List Char} (h : hasPair x y part = false) (hne : part ≠ [])
    (hrest : rest.head? ≠ some y) : (part ++ rest).take 2 ≠ [x, y] := by
  obtain ⟨c, cs, rfl⟩ := List.exists_cons_of_ne_nil hne
  cases cs with
  | nil =>
    intro htake
    cases rest with
    | nil => cases htake
    | cons d rest =>
      apply hrest
      rw [List.head?_cons]
      simp only [List.cons_append, List.nil_append, List.take_succ_cons, List.take_zero,
        List.cons.injEq, and_true] at htake
      rw [htake.2]
  | cons d cs =>
    intro htake
    simp only [List.cons_append, List.take_succ_cons, List.take_zero, List.cons.injEq,
      and_true] at htake
    exact hasPair_cons_of_head h htake.1 (by rw [List.head?_cons, htake.2])

theorem breakTwice_joinPair (hxy : x ≠ y) {parts : List (List Char)} (hne : parts ≠ [])
    (h : ∀ part ∈ parts, hasPair x y part = false ∧ part ≠ []) (rest : List Char) :
    breakTwice x y (joinPair x y parts ++ x :: y :: x :: y :: rest) =
      some (joinPair x y parts, rest) := by
  have hx : ∀ rest : List Char, (x :: rest).head? ≠ some y := by
    intro rest heq
    rw [List.head?_cons, Option.some.injEq] at heq
    exact hxy heq
  induction parts with
  | nil => exact absurd rfl hne
  | cons part parts ih =>
    obtain ⟨hpart, -⟩ := h part List.mem_cons_self
    cases parts with
    | nil =>
      rw [joinPair, breakTwice_free hpart (hx _), breakTwice_here]
      simp
    | cons part' parts =>
      have ih := ih (List.cons_ne_nil _ _) fun q hq => h q (List.mem_cons_of_mem _ hq)
      obtain ⟨hpart', hne'⟩ := h part' (List.mem_cons_of_mem _ List.mem_cons_self)
      have hnext : (joinPair x y (part' :: parts) ++ x :: y :: x :: y :: rest).take 2 ≠
          [x, y] := by
        cases parts with
        | nil => exact take_two_append hpart' hne' (hx _)
        | cons part'' parts =>
          rw [joinPair, List.append_assoc]
          exact take_two_append hpart' hne' (hx _)
      rw [joinPair, List.append_assoc, List.cons_append, List.cons_append,
        breakTwice_free hpart (hx _), breakTwice_once hxy hnext, ih]
      rfl

/-! ## Garbled texts -/

theorem Garbled.head_ascii {t g : List Char} (h : Garbled t g) {c : Char} (hc : c.toNat < 128) :
    g.head? = some c ↔ t.head? = some c := by
  cases h with
  | nil | keep d h => exact Iff.rfl
  | @broken d hd k t g h =>
    constructor
    · intro hhead
      rw [List.replicate_succ, List.cons_append, List.head?_cons, Option.some.injEq] at hhead
      rw [← hhead] at hc
      exact absurd hc (by decide)
    · intro hhead
      rw [List.head?_cons, Option.some.injEq] at hhead
      rw [hhead] at hd
      exact absurd hc (Nat.not_lt.mpr hd)

theorem hasPair_replicate (hx : x.toNat < 128) {k : ℕ} {g : List Char}
    (h : hasPair x y g = false) :
    hasPair x y (List.replicate k replacementChar ++ g) = false := by
  have hne : replacementChar ≠ x := by
    rintro rfl
    exact absurd hx (by decide)
  induction k with
  | zero => exact h
  | succ k ih =>
    rw [List.replicate_succ, List.cons_append]
    exact hasPair_cons (fun heq => absurd heq hne) ih

theorem Garbled.hasPair {t g : List Char} (hg : Garbled t g) (hx : x.toNat < 128)
    (hy : y.toNat < 128) (h : Js.hasPair x y t = false) : Js.hasPair x y g = false := by
  induction hg with
  | nil => rfl
  | keep c hg ih =>
    refine hasPair_cons (fun hc hhead => ?_) (ih (hasPair_tail h))
    exact hasPair_cons_of_head h hc ((hg.head_ascii hy).mp hhead)
  | broken hc k _ ih => exact hasPair_replicate hx (ih (hasPair_tail h))

end TransformHub.Js
