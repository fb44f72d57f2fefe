import Mathlib.Tactic.Ring

/-!
# Whole Numbers

The Numbers that are non-negative integers: 53 significant bits, and infinity above the largest.
-/

namespace TransformHub.Js

/-- A Number that is a non-negative integer; infinity is none. -/
abbrev WholeNumber := Option ℕ

namespace WholeNumber

/-- What the last of the 53 bits of an integer stands for. -/
def ulp (n : ℕ) : ℕ := 2 ^ (n.log2 - 52)

/-- The nearest factor, and the even one of two that are as near. -/
def nearest (n unit : ℕ) : ℕ :=
  if unit < 2 * (n % unit) ∨ 2 * (n % unit) = unit ∧ n / unit % 2 = 1 then n / unit + 1
  else n / unit

/-- Above the largest Number there is only infinity. -/
def finite (n : ℕ) : WholeNumber := if n.log2 < 1024 then some n else none

/-- The Number for an integer. -/
def round (n : ℕ) : WholeNumber := finite (nearest n (ulp n) * ulp n)

def add (a : WholeNumber) (n : ℕ) : WholeNumber := a.bind fun v => round (v + n)

def mul (a : WholeNumber) (n : ℕ) : WholeNumber := a.bind fun v => round (v * n)

/-! ## `toString` -/

/-- The multiple of a power of ten, as its factor, that is read as the Number. -/
def factor? (v power : ℕ) : Option ℕ :=
  let low := v / power
  let high := round ((low + 1) * power) = some v
  if round (low * power) = some v ∧ ¬ (high ∧ nearest v power = low + 1) then some low
  else if high then some (low + 1)
  else none

/-- The fewest digits that are read as the Number, with the zeros after them: not more of these
than the first argument. -/
def shortest : ℕ → ℕ → ℕ × ℕ
  | 0, v => (v, 0)
  | zeros + 1, v =>
    (factor? v (10 ^ (zeros + 1))).elim (shortest zeros v) fun digits => (digits, zeros + 1)

/-- The integer of these digits. -/
def shortestValue (v : ℕ) : ℕ :=
  let decimal := shortest (Nat.toDigits 10 v).length v
  decimal.1 * 10 ^ decimal.2

/-- The text of the digits of an integer with zeros after them. -/
def decimalText (value zeros : ℕ) : List Char :=
  let digits := Nat.toDigits 10 value
  if digits.length + zeros ≤ 21 then digits ++ List.replicate zeros '0'
  else
    digits.take 1 ++ (if digits.length = 1 then [] else '.' :: digits.drop 1) ++
      ("e+".toList ++ Nat.toDigits 10 (digits.length + zeros - 1))

def text : WholeNumber → List Char
  | none => "Infinity".toList
  | some v =>
    let decimal := shortest (Nat.toDigits 10 v).length v
    if v = 0 then ['0'] else decimalText decimal.1 decimal.2

/-! ## Rounding -/

variable {n v b : ℕ}

theorem log2_lt (h : n < 2 ^ 53) : n.log2 < 53 := by
  rcases Nat.eq_zero_or_pos n with rfl | hpos
  · decide
  · exact (Nat.log2_lt (Nat.ne_of_gt hpos)).mpr h

theorem ulp_of_lt (h : n < 2 ^ 53) : ulp n = 1 := by
  rw [ulp, Nat.sub_eq_zero_of_le (Nat.le_of_lt_succ (log2_lt h)), Nat.pow_zero]

theorem log2_le (h : 2 ^ 53 ≤ n) : 53 ≤ n.log2 :=
  (Nat.le_log2 (by omega)).mpr h

theorem nearest_of_dvd {unit : ℕ} (hpos : 0 < unit) (h : unit ∣ n) : nearest n unit * unit = n := by
  rw [nearest, Nat.mod_eq_zero_of_dvd h, if_neg (by omega), Nat.div_mul_cancel h]

theorem round_of_dvd (h : ulp n ∣ n) : round n = finite n := by
  rw [round, nearest_of_dvd (by exact Nat.two_pow_pos _) h]

theorem round_of_lt (h : n < 2 ^ 53) : round n = some n := by
  rw [round_of_dvd (by rw [ulp_of_lt h]; exact Nat.one_dvd n), finite, if_pos]
  exact Nat.lt_trans (log2_lt h) (by decide)

/-- Numbers of more than 53 bits are not rounded below them. -/
theorem le_of_round (h : round n = some v) (hn : 2 ^ 53 ≤ n) : 2 ^ 53 ≤ v := by
  have hlog := log2_le hn
  have hunit : 2 ^ 52 * ulp n = 2 ^ n.log2 := by
    rw [ulp, ← Nat.pow_add]
    congr 1
    omega
  have hle : 2 ^ n.log2 ≤ n := Nat.log2_self_le (by omega)
  have hfactor : 2 ^ 52 ≤ n / ulp n :=
    (Nat.le_div_iff_mul_le (Nat.two_pow_pos _)).mpr (hunit ▸ hle)
  have hnearest : 2 ^ 52 ≤ nearest n (ulp n) := by
    unfold nearest
    split_ifs <;> omega
  have hpow : 2 ^ 53 ≤ 2 ^ n.log2 := Nat.pow_le_pow_right (by decide) hlog
  rw [round, finite] at h
  split_ifs at h
  cases h
  exact Nat.le_trans (hunit ▸ hpow) (Nat.mul_le_mul_right _ hnearest)

theorem eq_of_round (h : round n = some v) (hv : v < 2 ^ 53) : n = v := by
  by_cases hn : n < 2 ^ 53
  · rw [round_of_lt hn] at h
    exact Option.some.inj h
  · exact absurd (le_of_round h (by omega)) (by omega)

theorem nearest_le (n : ℕ) : nearest n (ulp n) ≤ 2 ^ 53 := by
  have hlt : n / ulp n < 2 ^ 53 := by
    refine Nat.div_lt_of_lt_mul (Nat.lt_of_lt_of_le (Nat.lt_log2_self (n := n)) ?_)
    rw [ulp, ← Nat.pow_add]
    exact Nat.pow_le_pow_right (by decide) (by omega)
  unfold nearest
  split_ifs <;> omega

theorem ulp_dvd {zeros : ℕ} (hlog : n.log2 ≤ 52 + zeros) (h : 2 ^ zeros ∣ n) : ulp n ∣ n :=
  Nat.dvd_trans (Nat.pow_dvd_pow 2 (by omega)) h

/-- What is rounded has no more than 53 bits before its zeros. -/
theorem dvd_of_round (h : round n = some v) : ulp v ∣ v := by
  have hle := nearest_le n
  rw [round, finite] at h
  split_ifs at h
  cases h
  generalize nearest n (ulp n) = factor at hle ⊢
  have hunit : ulp n = 2 ^ (n.log2 - 52) := rfl
  rw [hunit]
  generalize n.log2 - 52 = zeros
  by_cases hcarry : factor = 2 ^ 53
  · rw [hcarry, ← Nat.pow_add]
    exact ulp_dvd (by rw [Nat.log2_two_pow]; omega) (Nat.dvd_refl _)
  · refine ulp_dvd (Nat.le_of_lt_succ ?_) (Nat.dvd_mul_left _ factor)
    rcases Nat.eq_zero_or_pos factor with rfl | hpos
    · simp
    · refine (Nat.log2_lt (Nat.ne_of_gt (Nat.mul_pos hpos (Nat.two_pow_pos _)))).mpr ?_
      have hpow : 2 ^ (52 + zeros).succ = 2 ^ 53 * 2 ^ zeros := by
        rw [← Nat.pow_add]
        congr 1
        omega
      rw [hpow]
      exact Nat.mul_lt_mul_of_pos_right (by omega) (Nat.two_pow_pos _)

theorem round_mul (h : v < 2 ^ 53) : round (v * 128) = some (v * 128) := by
  rcases Nat.eq_zero_or_pos v with rfl | hpos
  · rfl
  · have hlog : (v * 128).log2 < 60 := (Nat.log2_lt (by omega)).mpr (by omega)
    rw [round_of_dvd (@ulp_dvd (v * 128) 7 (by omega) (Nat.dvd_mul_left _ v)), finite,
      if_pos (by omega)]

/-- A Number times 128, with a digit in base 128 that is too small to count. -/
theorem round_shift (hdvd : ulp v ∣ v) (hv : 2 ^ 53 ≤ v) (hb : b < 128) :
    round (v * 128 + b) = finite (v * 128) := by
  have hlog := log2_le hv
  have hshift : (v * 128 + b).log2 = v.log2 + 7 := by
    have hlow : 2 ^ v.log2 ≤ v := Nat.log2_self_le (by omega)
    have hhigh : v < 2 ^ (v.log2 + 1) := Nat.lt_log2_self
    refine (Nat.log2_eq_iff (by omega)).mpr ⟨?_, ?_⟩
    · rw [Nat.pow_add]
      omega
    · rw [Nat.pow_add, Nat.pow_add]
      rw [Nat.pow_add] at hhigh
      omega
  have hulp : ulp (v * 128 + b) = ulp v * 128 := by
    rw [ulp, ulp, hshift, ← show 2 ^ 7 = 128 from rfl, ← Nat.pow_add]
    congr 1
    omega
  obtain ⟨factor, hfactor⟩ := hdvd
  have hunit : 2 ≤ ulp v := by
    rw [ulp, ← show 2 ^ 1 = 2 from rfl]
    exact Nat.pow_le_pow_right (by decide) (by omega)
  have hsplit : v * 128 + b = factor * (ulp v * 128) + b := by
    conv_lhs => rw [hfactor]
    ring
  have hdiv : (v * 128 + b) / (ulp v * 128) = factor := by
    rw [hsplit, Nat.add_comm, Nat.add_mul_div_right _ _ (by omega), Nat.div_eq_of_lt (by omega),
      Nat.zero_add]
  have hmod : (v * 128 + b) % (ulp v * 128) = b := by
    rw [hsplit, Nat.add_comm, Nat.add_mul_mod_self_right, Nat.mod_eq_of_lt (by omega)]
  rw [round, hulp, nearest, hmod, if_neg (by omega), hdiv]
  congr 1
  conv_rhs => rw [hfactor]
  ring

theorem mul_add (hdvd : ulp v ∣ v) (hv : 2 ^ 53 ≤ v) (hb : b < 128) :
    (mul (some v) 128).add b = mul (some v) 128 := by
  have hshift := @round_shift v 0 hdvd hv (by decide)
  rw [Nat.add_zero] at hshift
  rw [mul, Option.bind_some, hshift, finite]
  split_ifs with hlog
  · rw [add, Option.bind_some, round_shift hdvd hv hb, finite, if_pos hlog]
  · rfl

/-! ## Digits -/

theorem factor?_mul {power factor : ℕ} (hv : v < 2 ^ 53) (h : factor? v power = some factor) :
    factor * power = v := by
  unfold factor? at h
  dsimp only at h
  split_ifs at h with hlow hhigh
  · cases h
    exact eq_of_round hlow.1 hv
  · cases h
    exact eq_of_round hhigh hv

theorem shortest_mul (hv : v < 2 ^ 53) (zeros : ℕ) :
    (shortest zeros v).1 * 10 ^ (shortest zeros v).2 = v := by
  induction zeros with
  | zero => rw [shortest, Nat.pow_zero, Nat.mul_one]
  | succ zeros ih =>
    rw [shortest]
    cases h : factor? v (10 ^ (zeros + 1)) with
    | none => exact ih
    | some factor => exact factor?_mul hv h

theorem toDigits_mul (hv : 0 < v) (zeros : ℕ) :
    Nat.toDigits 10 (v * 10 ^ zeros) = Nat.toDigits 10 v ++ List.replicate zeros '0' := by
  induction zeros with
  | zero => simp
  | succ zeros ih =>
    have hzero := Nat.toDigits_append_toDigits (b := 10) (d := 0) (by decide)
      (Nat.mul_pos hv (Nat.pow_pos (n := zeros) (by decide : 0 < 10))) (by decide)
    rw [Nat.add_zero, Nat.mul_comm 10, Nat.mul_assoc, ← Nat.pow_succ] at hzero
    rw [← hzero, ih, List.append_assoc, Nat.toDigits_zero, List.replicate_succ']

theorem shortest_pos (hv : 0 < v) (zeros : ℕ) : 0 < (shortest zeros v).1 := by
  induction zeros with
  | zero => exact hv
  | succ zeros ih =>
    rw [shortest]
    cases h : factor? v (10 ^ (zeros + 1)) with
    | none => exact ih
    | some factor =>
      refine Nat.pos_of_ne_zero fun hzero => ?_
      have hzero : factor = 0 := hzero
      unfold factor? at h
      dsimp only at h
      split_ifs at h with hlow
      · rw [Option.some.inj h, hzero, Nat.zero_mul] at hlow
        exact Nat.ne_of_lt hv (Option.some.inj hlow.1)
      · exact Nat.succ_ne_zero _ ((Option.some.inj h).trans hzero)

theorem text_eq_iff (hv : 0 < v) :
    text (some v) = Nat.toDigits 10 n ↔ n < 10 ^ 21 ∧ shortestValue v = n := by
  have hpos := shortest_pos hv (Nat.toDigits 10 v).length
  unfold text shortestValue
  dsimp only
  rw [if_neg (Nat.ne_of_gt hv)]
  generalize shortest (Nat.toDigits 10 v).length v = decimal at hpos ⊢
  have hdigits := toDigits_mul hpos decimal.2
  have hlength := @Nat.length_toDigits_le_iff 10 (decimal.1 * 10 ^ decimal.2) 21 (by decide)
    (by decide)
  rw [hdigits, List.length_append, List.length_replicate] at hlength
  unfold decimalText
  dsimp only
  by_cases hshort : (Nat.toDigits 10 decimal.1).length + decimal.2 ≤ 21
  · rw [if_pos hshort, ← hdigits]
    refine ⟨fun heq => ?_, fun h => by rw [h.2]⟩
    have hvalue := congrArg (Nat.ofDigitChars 10 · 0) heq
    rw [Nat.ofDigitChars_toDigits (by decide) (by decide),
      Nat.ofDigitChars_toDigits (by decide) (by decide)] at hvalue
    exact ⟨hvalue ▸ hlength.mp hshort, hvalue⟩
  · rw [if_neg hshort]
    refine iff_of_false (fun heq => ?_) fun h => hshort (hlength.mpr (h.2 ▸ h.1))
    -- an exponent is no digit
    have hmem : 'e' ∈ Nat.toDigits 10 n := by
      rw [← heq]
      simp
    exact absurd (Nat.isDigit_of_mem_toDigits (by decide) (by decide) hmem) (by decide)

theorem text_of_lt (hv : v < 2 ^ 53) : text (some v) = Nat.toDigits 10 v := by
  rcases Nat.eq_zero_or_pos v with rfl | hpos
  · rfl
  · exact (text_eq_iff hpos).mpr ⟨by omega, shortest_mul hv _⟩

end WholeNumber

end TransformHub.Js
