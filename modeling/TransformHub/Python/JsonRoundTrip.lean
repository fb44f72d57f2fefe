import TransformHub.Python.JsonDecoder

/-!
# What the encoder writes is decoded

A value without a fault has a text that `scanOnce` reads up to its end, whatever delimiter follows.
-/

namespace TransformHub.Python

/-! ## Characters -/

theorem ofChar_injective {c d : Char} (h : CodePoint.ofChar c = CodePoint.ofChar d) : c = d := by
  have hchar := congrArg CodePoint.toChar? h
  rw [CodePoint.toChar?_ofChar, CodePoint.toChar?_ofChar] at hchar
  exact Option.some.inj hchar

theorem ofChars_injective {cs ds : List Char} (h : ofChars cs = ofChars ds) : cs = ds :=
  (List.map_inj_right fun _ _ => ofChar_injective).mp h

variable {cs : List Char}

theorem append_eq_ofChars {s t : Text} (h : s ++ t = ofChars cs) :
    ∃ as bs, cs = as ++ bs ∧ s = ofChars as ∧ t = ofChars bs := by
  obtain ⟨as, bs, rfl, has, hbs⟩ := List.append_eq_map_iff.mp h
  exact ⟨as, bs, rfl, has.symm, hbs.symm⟩

theorem chars_append_eq {as : List Char} {t : Text} (h : ofChars as ++ t = ofChars cs) :
    ∃ bs, cs = as ++ bs ∧ t = ofChars bs := by
  obtain ⟨as', bs, rfl, has, hbs⟩ := append_eq_ofChars h
  rw [ofChars_injective has]
  exact ⟨bs, rfl, hbs⟩

theorem append_chars_eq {bs : List Char} {t : Text} (h : t ++ ofChars bs = ofChars cs) :
    ∃ as, cs = as ++ bs ∧ t = ofChars as := by
  obtain ⟨as, bs', rfl, has, hbs⟩ := append_eq_ofChars h
  rw [ofChars_injective hbs]
  exact ⟨as, rfl, has⟩

/-- What may follow a value of the encoder. -/
def Delimited (rest : List Char) : Prop := ∀ c ∈ rest.head?, c = ',' ∨ c = ']' ∨ c = '}'

theorem delimited_nil : Delimited [] := by
  intro c hc
  cases hc

theorem delimited_cons {c : Char} (h : c = ',' ∨ c = ']' ∨ c = '}') (rest : List Char) :
    Delimited (c :: rest) := by
  intro d hd
  cases hd
  exact h

/-! ## Strings -/

theorem hexValue_hexDigit : ∀ n < 16, hexValue (hexDigit n) = some n := by
  decide

theorem scanPiece_unicode (s : List Char) :
    scanPiece ('\\' :: 'u' :: s) = match scanUnicode s with
      | some (p, rest) => .ok (some p, rest)
      | none => .error .jsonDecodeError :=
  rfl

theorem scanPiece_escapeChar (c : Char) (rest : List Char) :
    scanPiece (escapeChar c ++ rest) = .ok (some (CodePoint.ofChar c), rest) := by
  unfold escapeChar
  by_cases hback : c = '\\'
  · subst hback
    rfl
  · rw [if_neg hback]
    by_cases hquote : c = '"'
    · subst hquote
      rfl
    · rw [if_neg hquote]
      split_ifs with h1 h2 h3 h4 h5 h6
      · subst h1
        rfl
      · subst h2
        rfl
      · subst h3
        rfl
      · subst h4
        rfl
      · subst h5
        rfl
      · -- a control character is written as the four digits of its code
        have hhigh : hexValue (hexDigit (c.toNat / 16)) = some (c.toNat / 16) :=
          hexValue_hexDigit _ (by omega)
        have hlow : hexValue (hexDigit (c.toNat % 16)) = some (c.toNat % 16) :=
          hexValue_hexDigit _ (by omega)
        have hzero : hexValue '0' = some 0 := rfl
        have hfour : fourHex ('0' :: '0' :: hexDigit (c.toNat / 16) ::
            hexDigit (c.toNat % 16) :: rest) = some (⟨c.toNat, by omega⟩, rest) := by
          have hsum : 0 * 4096 + 0 * 256 + c.toNat / 16 * 16 + c.toNat % 16 = c.toNat := by omega
          simp only [fourHex, hhigh, hlow, hzero, Option.bind_eq_bind, Option.bind_some, hsum]
          rw [dif_pos (by omega)]
        have hpair : ∀ low, pairOf ⟨c.toNat, by omega⟩ low = none := by
          intro low
          refine dif_neg fun h => ?_
          have := h.1
          simp only at this
          omega
        have hunicode : scanUnicode ('0' :: '0' :: hexDigit (c.toNat / 16) ::
            hexDigit (c.toNat % 16) :: rest) = some (CodePoint.ofChar c, rest) := by
          unfold scanUnicode
          simp only [hfour]
          split
          · split
            · rfl
            · rw [hpair]
              rfl
          · rfl
        show scanPiece ('\\' :: 'u' :: '0' :: '0' :: hexDigit (c.toNat / 16) ::
          hexDigit (c.toNat % 16) :: rest) = _
        rw [scanPiece_unicode, hunicode]
      · show scanPiece (c :: rest) = _
        simp only [scanPiece, if_neg hquote, if_neg hback, if_neg h6]

theorem scanPieces_escapeChars (rest : List Char) : ∀ (cs : List Char) (n : ℕ), cs.length < n →
    scanPieces n (escapeChars cs ++ '"' :: rest) = .ok (ofChars cs, rest) := by
  intro cs
  induction cs with
  | nil =>
    intro n hn
    cases n with
    | zero => exact absurd hn (Nat.not_lt_zero _)
    | succ n => rfl
  | cons c cs ih =>
    intro n hn
    cases n with
    | zero => exact absurd hn (Nat.not_lt_zero _)
    | succ n =>
      have hread := ih n (Nat.lt_of_succ_lt_succ hn)
      rw [escapeChars, List.flatMap_cons, List.append_assoc, scanPieces, scanPiece_escapeChar]
      rw [escapeChars] at hread
      dsimp only [bind, Except.bind]
      rw [hread]
      rfl

theorem length_le_escapeChars (cs : List Char) : cs.length ≤ (escapeChars cs).length := by
  induction cs with
  | nil => exact Nat.le_refl 0
  | cons c cs ih =>
    have hpos : 0 < (escapeChar c).length := by
      unfold escapeChar
      split_ifs <;> simp
    rw [escapeChars, List.flatMap_cons, List.length_append, List.length_cons]
    have : cs.length ≤ (cs.flatMap escapeChar).length := ih
    omega

theorem scanString_escapeChars (cs rest : List Char) :
    scanString (escapeChars cs ++ '"' :: rest) = .ok (ofChars cs, rest) := by
  apply scanPieces_escapeChars
  have := length_le_escapeChars cs
  simp only [List.length_append, List.length_cons]
  omega

theorem flatMap_escape {t : Text} (h : t.flatMap escape = ofChars cs) :
    ∃ ds, t = ofChars ds ∧ cs = escapeChars ds := by
  induction t generalizing cs with
  | nil =>
    have hnil : ofChars [] = ofChars cs := h
    exact ⟨[], rfl, (ofChars_injective hnil).symm⟩
  | cons p t ih =>
    rw [List.flatMap_cons] at h
    obtain ⟨as, bs, rfl, has, hbs⟩ := append_eq_ofChars h
    obtain ⟨ds, rfl, rfl⟩ := ih hbs
    cases hp : p.toChar? with
    | none =>
      rw [escape, hp] at has
      -- a surrogate is no character
      have hmem : p ∈ ofChars as := by
        rw [← has]
        exact List.mem_singleton_self p
      obtain ⟨c, -, hc⟩ := List.mem_map.mp hmem
      rw [← hc, CodePoint.toChar?_ofChar] at hp
      cases hp
    | some c =>
      rw [escape, hp] at has
      refine ⟨c :: ds, ?_, ?_⟩
      · rw [CodePoint.eq_ofChar_of_toChar? hp]
        rfl
      · rw [← ofChars_injective has]
        rfl

theorem quote_eq_ofChars {t : Text} (h : quote t = ofChars cs) :
    ∃ ds, t = ofChars ds ∧ cs = '"' :: (escapeChars ds ++ ['"']) := by
  unfold quote at h
  obtain ⟨as, rfl, has⟩ := append_chars_eq h
  obtain ⟨bs, rfl, hbs⟩ := chars_append_eq has
  obtain ⟨ds, rfl, rfl⟩ := flatMap_escape hbs
  exact ⟨ds, rfl, rfl⟩

/-! ## Numbers -/

theorem digits_append {ds rest : List Char} (hds : ∀ c ∈ ds, c.isDigit = true)
    (hrest : ∀ c ∈ rest.head?, c.isDigit = false) : digits (ds ++ rest) = (ds, rest) := by
  unfold digits
  rw [List.takeWhile_append_of_pos hds, List.dropWhile_append_of_pos hds]
  cases rest with
  | nil => simp
  | cons c rest =>
    have hc : c.isDigit = false := hrest c rfl
    simp [hc]

/-- What follows a number is no part of it. -/
structure EndsNumber (rest : List Char) : Prop where
  digit : ∀ c ∈ rest.head?, c.isDigit = false
  point : rest.head? ≠ some '.'
  exponent : rest.head? ≠ some 'e' ∧ rest.head? ≠ some 'E'

variable {rest : List Char}

theorem endsNumber_of_delimited (h : Delimited rest) : EndsNumber rest := by
  cases rest with
  | nil => exact ⟨fun c hc => (Option.not_mem_none c hc).elim, by simp, by simp⟩
  | cons c rest => rcases h c rfl with rfl | rfl | rfl <;> exact ⟨by simp, by simp, by simp⟩

theorem scanExponent_text {e : Option (Option Char × List Char)}
    (he : ∀ d ∈ e, d.2 ≠ [] ∧ (∀ c ∈ d.2, c.isDigit = true) ∧ (d.1 = none ∨ d.1 = some '+' ∨ d.1 = some '-'))
    (hrest : EndsNumber rest) :
    scanExponent (NumberText.exponentText e ++ rest) = (e, rest) := by
  cases e with
  | none =>
    cases rest with
    | nil => rfl
    | cons c rest =>
      have hc : ¬ (c = 'e' ∨ c = 'E') := by
        rintro (rfl | rfl)
        · exact hrest.exponent.1 rfl
        · exact hrest.exponent.2 rfl
      simp only [NumberText.exponentText, List.nil_append, scanExponent, if_neg hc]
  | some d =>
    obtain ⟨mark, ds⟩ := d
    obtain ⟨hne, hdigits, hmark⟩ := he _ rfl
    simp only at hne hdigits hmark
    have hspan : digits (ds ++ rest) = (ds, rest) := digits_append hdigits hrest.digit
    have hscan : scanMark (mark.toList ++ (ds ++ rest)) = (mark, ds ++ rest) := by
      rcases hmark with rfl | rfl | rfl
      · cases ds with
        | nil => exact absurd rfl hne
        | cons d ds =>
          have hd : d.isDigit = true := hdigits d List.mem_cons_self
          show scanMark (d :: (ds ++ rest)) = _
          unfold scanMark
          split
          · rename_i heq
            cases heq
            exact absurd hd (by decide)
          · rename_i heq
            cases heq
            exact absurd hd (by decide)
          · rfl
      · rfl
      · rfl
    simp only [NumberText.exponentText, List.cons_append, List.append_assoc, scanExponent,
      true_or, if_true, hscan, hspan]
    cases ds with
    | nil => exact absurd rfl hne
    | cons d ds => rfl

theorem head?_exponentText {e : Option (Option Char × List Char)} (hrest : EndsNumber rest) :
    (∀ c ∈ (NumberText.exponentText e ++ rest).head?, c.isDigit = false) ∧
      (NumberText.exponentText e ++ rest).head? ≠ some '.' := by
  cases e with
  | none => exact ⟨hrest.digit, hrest.point⟩
  | some d =>
    refine ⟨fun c hc => ?_, ?_⟩
    · cases hc
      rfl
    · simp [NumberText.exponentText]

theorem scanFraction_text {ds tail : List Char} (hds : ∀ c ∈ ds, c.isDigit = true)
    (hdigit : ∀ c ∈ tail.head?, c.isDigit = false) (hpoint : tail.head? ≠ some '.') :
    scanFraction (NumberText.fractionText ds ++ tail) = (ds, tail) := by
  cases ds with
  | nil =>
    show scanFraction tail = _
    unfold scanFraction
    split
    · exact absurd rfl hpoint
    · rfl
  | cons d ds =>
    have hspan : digits ((d :: ds) ++ tail) = (d :: ds, tail) := digits_append hds hdigit
    rw [List.cons_append] at hspan
    simp only [NumberText.fractionText, List.cons_append, scanFraction, hspan]

theorem head?_fractionText {ds tail : List Char}
    (hdigit : ∀ c ∈ tail.head?, c.isDigit = false) :
    ∀ c ∈ (NumberText.fractionText ds ++ tail).head?, c.isDigit = false := by
  cases ds with
  | nil => exact hdigit
  | cons d ds =>
    intro c hc
    cases hc
    rfl

theorem scanWhole_text {ds tail : List Char} (hne : ds ≠ [])
    (hds : ∀ c ∈ ds, c.isDigit = true) (hzero : ds.head? = some '0' → ds = ['0'])
    (htail : ∀ c ∈ tail.head?, c.isDigit = false) :
    scanWhole (ds ++ tail) = some (ds, tail) := by
  cases ds with
  | nil => exact absurd rfl hne
  | cons d ds =>
    have hspan : digits ((d :: ds) ++ tail) = (d :: ds, tail) := digits_append hds htail
    rw [List.cons_append] at hspan
    by_cases hd : d = '0'
    · subst hd
      obtain ⟨rfl⟩ := List.cons.inj (hzero rfl) |>.2
      rfl
    · simp only [List.cons_append, scanWhole, if_neg hd, hspan]

theorem matchNumber_chars {t : NumberText} (ht : t.Valid) (hrest : EndsNumber rest) :
    matchNumber (t.chars ++ rest) = some (t, rest) := by
  obtain ⟨negative, whole, fraction, exponent⟩ := t
  have hexponent := head?_exponentText (e := exponent) hrest
  have hfraction : ∀ c ∈ (NumberText.fractionText fraction ++
      (NumberText.exponentText exponent ++ rest)).head?, c.isDigit = false :=
    head?_fractionText hexponent.1
  have hwhole := scanWhole_text ht.whole.1 ht.whole.2.1 ht.whole.2.2 hfraction
  have hscanned := scanFraction_text ht.fraction hexponent.1 hexponent.2
  cases negative with
  | true =>
    have hchars : (NumberText.mk true whole fraction exponent).chars ++ rest =
        '-' :: (whole ++ (NumberText.fractionText fraction ++
          (NumberText.exponentText exponent ++ rest))) := by
      simp [NumberText.chars]
    rw [hchars]
    simp only [matchNumber, hwhole, hscanned, scanExponent_text ht.exponent hrest]
  | false =>
    have hsign : ∀ r, whole ++ r ≠ [] ∧ (whole ++ r).head? ≠ some '-' := by
      intro r
      cases hcases : whole with
      | nil => exact absurd hcases ht.whole.1
      | cons d ds =>
        refine ⟨by simp, fun h => ?_⟩
        have hd : d.isDigit = true := ht.whole.2.1 d (by simp [hcases])
        cases h
        exact absurd hd (by decide)
    have hchars : (NumberText.mk false whole fraction exponent).chars ++ rest =
        whole ++ (NumberText.fractionText fraction ++
          (NumberText.exponentText exponent ++ rest)) := by
      simp [NumberText.chars]
    rw [hchars]
    unfold matchNumber
    split
    rename_i n s heq
    split at heq
    · rename_i hminus
      exact absurd (congrArg List.head? hminus) (hsign _).2
    · cases heq
      simp only [hwhole, hscanned, scanExponent_text ht.exponent hrest]

/-! ## Integers -/

theorem head?_toDigits (n : ℕ) : (Nat.toDigits 10 n).head? = some '0' → n = 0 := by
  induction n using Nat.strongRecOn with
  | ind n ih =>
    intro h
    rw [Nat.toDigits_eq_if (by decide)] at h
    split at h
    · exact Nat.digitChar_eq_zero.mp (Option.some.inj h)
    · rename_i hn
      rw [List.head?_append_of_ne_nil _ Nat.toDigits_ne_nil] at h
      have hzero : n / 10 = 0 := ih (n / 10) (by omega) h
      omega

def intText (i : Int) : NumberText := ⟨decide (i < 0), Nat.toDigits 10 i.natAbs, [], none⟩

theorem chars_intText (i : Int) : (intText i).chars = intChars i := by
  unfold intText intChars NumberText.chars
  by_cases h : i < 0 <;> simp [h, NumberText.fractionText, NumberText.exponentText]

theorem valid_intText (i : Int) : (intText i).Valid where
  whole := by
    refine ⟨Nat.toDigits_ne_nil, fun c hc => ?_, fun h => ?_⟩
    · exact Nat.isDigit_of_mem_toDigits (by decide) (by decide) hc
    · show Nat.toDigits 10 i.natAbs = ['0']
      rw [head?_toDigits _ h]
      rfl
  fraction := fun c hc => (List.not_mem_nil hc).elim
  exponent := fun e he => (Option.not_mem_none e he).elim

section Values

variable {F : Type} {fl : Floats F}

theorem numberValue_intText {i : Int} (h : intFault i = none) :
    numberValue fl (intText i) = .ok (.int i) := by
  have hlength : ¬ maxStrDigits < (Nat.toDigits 10 i.natAbs).length := by
    unfold intFault at h
    split at h
    · cases h
    · assumption
  have hsign : (if decide (i < 0) = true then -(i.natAbs : Int) else i.natAbs) = i := by
    split <;> rename_i hi <;> simp only [decide_eq_true_eq] at hi <;> omega
  have hint : ¬ (intText i).isFloat = true := Bool.false_ne_true
  unfold numberValue
  rw [if_neg hint]
  show (if maxStrDigits < (Nat.toDigits 10 i.natAbs).length then _ else _) = _
  rw [if_neg hlength]
  simp only [intText, Nat.ofDigitChars_ten_toDigits, hsign]

/-! ## Values that are no lists and no dictionaries -/

theorem find?_constants {t : NumberText} (ht : t.Valid) (rest : List Char) :
    (constants (F := F)).find? (fun e => e.1.isPrefixOf (t.chars ++ rest)) = none := by
  obtain ⟨negative, whole, fraction, exponent⟩ := t
  cases hwhole : whole with
  | nil => exact absurd hwhole ht.whole.1
  | cons d ds =>
    have hd : d.isDigit = true := ht.whole.2.1 d (by simp [hwhole])
    have hne : ∀ c : Char, c.isDigit = false → (c == d) = false := by
      intro c hc
      rw [beq_eq_false_iff_ne]
      rintro rfl
      rw [hd] at hc
      cases hc
    cases negative <;>
      simp [constants, NumberText.chars, List.isPrefixOf, hne]

variable {depth : ℕ}

theorem scanOnce_number {t : NumberText} {v : Value F} (ht : t.Valid)
    (hv : numberValue fl t = .ok v) (hrest : Delimited rest) :
    scanOnce fl depth (t.chars ++ rest) = .ok (v, rest) := by
  have hmatch := matchNumber_chars ht (endsNumber_of_delimited hrest)
  have hfind := find?_constants (F := F) ht rest
  have hhead : ∀ c, c = '"' ∨ c = '[' ∨ c = '{' → (t.chars ++ rest).head? ≠ some c := by
    intro c hc
    obtain ⟨negative, whole, fraction, exponent⟩ := t
    cases hwhole : whole with
    | nil => exact absurd hwhole ht.whole.1
    | cons d ds =>
      have hd : d.isDigit = true := ht.whole.2.1 d (by simp [hwhole])
      cases negative with
      | true =>
        intro h
        cases h
        revert hc
        decide
      | false =>
        intro h
        cases h
        rcases hc with rfl | rfl | rfl <;> exact absurd hd (by decide)
  have hleaf : scanLeaf fl (t.chars ++ rest) = .ok (v, rest) := by
    unfold scanLeaf
    rw [if_neg (hhead '"' (.inl rfl)), hfind]
    simp only [hmatch, hv]
    rfl
  have hlist := hhead '[' (.inr (.inl rfl))
  have hdict := hhead '{' (.inr (.inr rfl))
  cases depth with
  | zero =>
    unfold scanOnce
    rw [if_neg (not_or.mpr ⟨hlist, hdict⟩), hleaf]
  | succ depth =>
    unfold scanOnce
    rw [if_neg hlist, if_neg hdict, hleaf]

theorem scanOnce_string (ds rest : List Char) :
    scanOnce fl depth ('"' :: (escapeChars ds ++ '"' :: rest)) =
      .ok (.str (ofChars ds), rest) := by
  have hleaf : scanLeaf fl ('"' :: (escapeChars ds ++ '"' :: rest)) =
      .ok (.str (ofChars ds), rest) := by
    unfold scanLeaf
    rw [if_pos List.head?_cons]
    simp only [List.tail_cons, scanString_escapeChars]
    rfl
  cases depth with
  | zero =>
    unfold scanOnce
    rw [if_neg (by simp), hleaf]
  | succ depth =>
    unfold scanOnce
    rw [if_neg (by simp), if_neg (by simp), hleaf]

theorem scanOnce_bad {depth : ℕ} {c : Char} (hc : isWhitespace c = true ∨ c = ']' ∨ c = '}')
    (rest : List Char) : scanOnce fl depth (c :: rest) = .error .jsonDecodeError := by
  have hcases : c = ' ' ∨ c = '\t' ∨ c = '\n' ∨ c = '\r' ∨ c = ']' ∨ c = '}' := by
    rcases hc with hc | hc | hc
    · simp only [isWhitespace, Bool.or_eq_true, decide_eq_true_eq] at hc
      tauto
    · exact .inr (.inr (.inr (.inr (.inl hc))))
    · exact .inr (.inr (.inr (.inr (.inr hc))))
  rcases hcases with rfl | rfl | rfl | rfl | rfl | rfl <;> cases depth <;> rfl

/-! ## Lists and dictionaries -/

/-- The scanner `item` reads `a` where `t` is written, up to the end of `t`. -/
def ReadsBy {α : Type} (item : List Char → Except Error (α × List Char)) (t : Text) (a : α) :
    Prop :=
  ∀ cs rest, t = ofChars cs → Delimited rest → item (cs ++ rest) = .ok (a, rest)

/-- Nothing that `item` reads begins with a blank or a closing bracket. -/
def Starts {α : Type} (item : List Char → Except Error (α × List Char)) : Prop :=
  ∀ c rest, isWhitespace c = true ∨ c = ']' ∨ c = '}' →
    item (c :: rest) = .error .jsonDecodeError

section Items

variable {α : Type} {item : List Char → Except Error (α × List Char)} {close : Char}

theorem skipWhitespace_of_item (hitem : Starts item) {s : List Char} {x : α × List Char}
    (h : item s = .ok x) : skipWhitespace s = s := by
  cases s with
  | nil => rfl
  | cons c s =>
    have hc : isWhitespace c = false := by
      by_contra hc
      rw [Bool.not_eq_false] at hc
      rw [hitem c s (.inl hc)] at h
      cases h
    simp [skipWhitespace, hc]

theorem skipWhitespace_delimiter {c : Char} (hc : c = ',' ∨ c = ']' ∨ c = '}')
    (rest : List Char) : skipWhitespace (c :: rest) = c :: rest := by
  rcases hc with rfl | rfl | rfl <;> rfl

theorem length_le_joined (ts : List Text) : ts.length ≤ (joined ts).length + 1 := by
  induction ts with
  | nil => exact Nat.zero_le _
  | cons t ts ih =>
    cases ts with
    | nil => simp [joined]
    | cons t' ts =>
      simp only [joined, List.length_append, List.length_cons] at ih ⊢
      have : (ofChars [',']).length = 1 := rfl
      omega

theorem scanItems_joined (hstarts : Starts item) (hclose : close = ']' ∨ close = '}') {t : Text}
    {ts : List Text} {a : α} {as : List α} (ht : ReadsBy item t a)
    (hts : List.Forall₂ (ReadsBy item) ts as) {cs rest : List Char} {n : ℕ}
    (hcs : joined (t :: ts) = ofChars cs) (hn : ts.length < n) :
    scanItems item close n (cs ++ close :: rest) = .ok (a :: as, rest) := by
  induction hts generalizing t a cs n with
  | nil =>
    cases n with
    | zero => exact absurd hn (Nat.not_lt_zero _)
    | succ n =>
      have hdelimited : Delimited (close :: rest) := delimited_cons (.inr hclose) rest
      have hskip := skipWhitespace_delimiter (.inr hclose) rest
      unfold scanItems
      rw [ht cs (close :: rest) hcs hdelimited]
      simp only [bind, Except.bind, pure, Except.pure, hskip, List.head?_cons, if_true,
        List.tail_cons]
  | @cons t' a' ts as ht' hts ih =>
    cases n with
    | zero => exact absurd hn (Nat.not_lt_zero _)
    | succ n =>
      obtain ⟨as₁, bs, rfl, has, hbs⟩ := append_eq_ofChars
        (show (t ++ ofChars [',']) ++ joined (t' :: ts) = ofChars cs from hcs)
      obtain ⟨cs₁, rfl, hcs₁⟩ := append_chars_eq has
      have hread := ih ht' hbs (Nat.lt_of_succ_lt_succ hn)
      have hdelimited : Delimited (',' :: (bs ++ close :: rest)) :=
        delimited_cons (.inl rfl) _
      have hcomma : (',' : Char) ≠ close := by rcases hclose with rfl | rfl <;> decide
      have hnext : skipWhitespace (bs ++ close :: rest) = bs ++ close :: rest := by
        cases hitem : item (bs ++ close :: rest) with
        | ok x => exact skipWhitespace_of_item hstarts hitem
        | error e =>
          -- the loop has read this text
          cases n with
          | zero => exact absurd hn (by simp)
          | succ n =>
            unfold scanItems at hread
            rw [hitem] at hread
            cases hread
      have hsplit : cs₁ ++ [','] ++ bs ++ close :: rest =
          cs₁ ++ ',' :: (bs ++ close :: rest) := by
        simp
      rw [hsplit]
      unfold scanItems
      rw [ht cs₁ _ hcs₁ hdelimited]
      simp only [bind, Except.bind, pure, Except.pure,
        @skipWhitespace_delimiter ',' (.inl rfl), List.head?_cons, Option.some.injEq,
        if_neg hcomma, if_true, List.tail_cons, hnext, hread]

theorem scanBody_joined (hstarts : Starts item) (hclose : close = ']' ∨ close = '}')
    {ts : List Text} {as : List α} (hts : List.Forall₂ (ReadsBy item) ts as)
    {cs rest : List Char} (hcs : joined ts = ofChars cs) :
    scanBody item close (cs ++ close :: rest) = .ok (as, rest) := by
  cases hts with
  | nil =>
    obtain rfl : cs = [] := (ofChars_injective (show ofChars [] = ofChars cs from hcs)).symm
    unfold scanBody
    simp only [List.nil_append, skipWhitespace_delimiter (.inr hclose), List.head?_cons,
      if_true, List.tail_cons]
  | @cons t a ts as ht hts =>
    have hlength : ts.length < (cs ++ close :: rest).length := by
      have hjoined := length_le_joined (t :: ts)
      rw [hcs, List.length_cons] at hjoined
      simp only [ofChars, List.length_map] at hjoined
      simp only [List.length_append, List.length_cons]
      omega
    have hread : scanItems item close (cs ++ close :: rest).length (cs ++ close :: rest) = _ :=
      scanItems_joined hstarts hclose ht hts hcs hlength
    have hok : ∃ x, item (cs ++ close :: rest) = .ok x := by
      cases hitem : item (cs ++ close :: rest) with
      | ok x => exact ⟨x, rfl⟩
      | error e =>
        cases hn : (cs ++ close :: rest).length with
        | zero => simp at hn
        | succ n =>
          rw [hn] at hread
          unfold scanItems at hread
          rw [hitem] at hread
          cases hread
    obtain ⟨x, hx⟩ := hok
    have hskip := skipWhitespace_of_item hstarts hx
    have hhead : (cs ++ close :: rest).head? ≠ some close := by
      intro h
      cases hs : cs ++ close :: rest with
      | nil => simp at hs
      | cons c s =>
        rw [hs] at h hx
        cases h
        rw [hstarts close s (.inr hclose)] at hx
        cases hx
    unfold scanBody
    simp only [hskip, if_neg hhead, hread]

end Items

theorem starts_scanOnce (depth : ℕ) : Starts (scanOnce fl depth) :=
  fun _ rest hc => scanOnce_bad hc rest

theorem starts_scanPair (scan : List Char → Except Error (Value F × List Char)) :
    Starts (scanPair scan) := by
  intro c rest hc
  have hquote : (c :: rest).head? ≠ some '"' := by
    rw [List.head?_cons]
    intro h
    cases h
    rcases hc with hc | hc | hc <;> exact absurd hc (by decide)
  unfold scanPair
  rw [if_neg hquote]

/-! ## Values -/

theorem readsBy_int {i : Int} (h : intFault i = none) :
    ReadsBy (scanOnce fl depth) (ofChars (intChars i)) (.int i) := by
  intro cs rest hcs hrest
  rw [← ofChars_injective hcs, ← chars_intText]
  exact scanOnce_number (valid_intText i) (numberValue_intText h) hrest

theorem readsBy_float (x : F) : ∃ v, ReadsBy (scanOnce fl depth) (ofChars (fl.repr x).chars) v := by
  have hvalue : ∃ v, numberValue fl (fl.repr x) = .ok v := by
    unfold numberValue
    rw [if_pos (fl.isFloat x)]
    cases fl.ofText (fl.repr x) with
    | none | some y => exact ⟨_, rfl⟩
  obtain ⟨v, hv⟩ := hvalue
  refine ⟨v, fun cs rest hcs hrest => ?_⟩
  rw [← ofChars_injective hcs]
  exact scanOnce_number (fl.valid x) hv hrest

theorem readsBy_constant {name : List Char} {v : Value F} (h : (name, v) ∈ constants.take 3) :
    ReadsBy (scanOnce fl depth) (ofChars name) v := by
  intro cs rest hcs _
  rw [← ofChars_injective hcs]
  simp only [constants, List.take_succ_cons, List.take_zero, List.mem_cons, Prod.mk.injEq,
    List.not_mem_nil, or_false] at h
  rcases h with ⟨rfl, rfl⟩ | ⟨rfl, rfl⟩ | ⟨rfl, rfl⟩ <;> cases depth <;> rfl

theorem readsBy_quote (t : Text) : ReadsBy (scanOnce fl depth) (quote t) (.str t) := by
  intro cs rest hcs _
  obtain ⟨ds, rfl, rfl⟩ := quote_eq_ofChars hcs
  have hread : scanOnce fl depth ('"' :: (escapeChars ds ++ '"' :: rest)) = _ :=
    scanOnce_string ds rest
  simpa using hread

theorem readsBy_pair {scan : List Char → Except Error (Value F × List Char)} {key t : Text}
    {v : Value F} (hscan : Starts scan) (h : ReadsBy scan t v) :
    ReadsBy (scanPair scan) (quote key ++ ofChars [':'] ++ t) (key, v) := by
  intro cs rest hcs hrest
  obtain ⟨as, bs, rfl, has, hbs⟩ := append_eq_ofChars hcs
  obtain ⟨as₁, rfl, has₁⟩ := append_chars_eq has
  obtain ⟨ds, rfl, rfl⟩ := quote_eq_ofChars has₁
  have hread := h bs rest hbs hrest
  have htext : '"' :: (escapeChars ds ++ ['"']) ++ [':'] ++ bs ++ rest =
      '"' :: (escapeChars ds ++ '"' :: ':' :: (bs ++ rest)) := by
    simp
  have hcolon : skipWhitespace (':' :: (bs ++ rest)) = ':' :: (bs ++ rest) := rfl
  rw [htext]
  unfold scanPair
  rw [if_pos List.head?_cons]
  simp only [List.tail_cons, scanString_escapeChars, bind, Except.bind, pure, Except.pure, hcolon,
    List.head?_cons, if_true, skipWhitespace_of_item hscan hread, hread]

theorem readsBy_list {ts : List Text} {vs : List (Value F)}
    (h : List.Forall₂ (ReadsBy (scanOnce fl depth)) ts vs) :
    ReadsBy (scanOnce fl (depth + 1)) (ofChars ['['] ++ joined ts ++ ofChars [']'])
      (.list vs) := by
  intro cs rest hcs _
  obtain ⟨as, rfl, has⟩ := append_chars_eq hcs
  obtain ⟨bs, rfl, hbs⟩ := chars_append_eq has
  have hread : scanBody (scanOnce fl depth) ']' (bs ++ ']' :: rest) = .ok (vs, rest) :=
    scanBody_joined (starts_scanOnce depth) (.inl rfl) h hbs
  have htext : ['['] ++ bs ++ [']'] ++ rest = '[' :: (bs ++ ']' :: rest) := by simp
  rw [htext]
  unfold scanOnce
  rw [if_pos List.head?_cons]
  simp only [List.tail_cons, hread]
  rfl

theorem readsBy_dict {ts : List Text} {items : List (Text × Value F)}
    (h : List.Forall₂ (ReadsBy (scanPair (scanOnce fl depth))) ts items) :
    ReadsBy (scanOnce fl (depth + 1)) (ofChars ['{'] ++ joined ts ++ ofChars ['}'])
      (.dict (dictOf items)) := by
  intro cs rest hcs _
  obtain ⟨as, rfl, has⟩ := append_chars_eq hcs
  obtain ⟨bs, rfl, hbs⟩ := chars_append_eq has
  have hread : scanBody (scanPair (scanOnce fl depth)) '}' (bs ++ '}' :: rest) =
      .ok (items, rest) :=
    scanBody_joined (starts_scanPair _) (.inr rfl) h hbs
  have htext : ['{'] ++ bs ++ ['}'] ++ rest = '{' :: (bs ++ '}' :: rest) := by simp
  rw [htext]
  unfold scanOnce
  rw [if_neg (by simp), if_pos List.head?_cons]
  simp only [List.tail_cons, hread]
  rfl

mutual

theorem readsBy_text : ∀ (depth : ℕ) (v : Value F), fault depth v = none →
    ∃ w, ReadsBy (scanOnce fl depth) (v.text fl) w
  | _, .none, _ => ⟨.none, readsBy_constant (by simp [constants])⟩
  | _, .bool true, _ => ⟨.bool true, readsBy_constant (by simp [constants, boolChars])⟩
  | _, .bool false, _ => ⟨.bool false, readsBy_constant (by simp [constants, boolChars])⟩
  | _, .int i, h => ⟨.int i, readsBy_int h⟩
  | _, .float x, _ => readsBy_float x
  | _, .nonFinite, h => by cases h
  | _, .str t, _ => ⟨.str t, readsBy_quote t⟩
  | 0, .list _, h => by cases h
  | depth + 1, .list elems, h => by
      obtain ⟨vs, hvs⟩ := readsBy_elems depth elems h
      exact ⟨.list vs, readsBy_list hvs⟩
  | 0, .dict _, h => by cases h
  | depth + 1, .dict items, h => by
      obtain ⟨read, hread⟩ := readsBy_items depth items h
      exact ⟨.dict (dictOf read), readsBy_dict hread⟩
  | 0, .circular, h => by cases h
  | _ + 1, .circular, h => by cases h
  | _, .other _, h => by cases h
termination_by structural _ v => v

theorem readsBy_elems : ∀ (depth : ℕ) (vs : List (Value F)), faultElems depth vs = none →
    ∃ ws, List.Forall₂ (ReadsBy (scanOnce fl depth)) (textElems fl vs) ws
  | _, [], _ => ⟨[], .nil⟩
  | depth, v :: vs, h => by
      rw [faultElems, Option.or_eq_none_iff] at h
      obtain ⟨w, hw⟩ := readsBy_text depth v h.1
      obtain ⟨ws, hws⟩ := readsBy_elems depth vs h.2
      exact ⟨w :: ws, .cons hw hws⟩
termination_by structural _ vs => vs

theorem readsBy_items : ∀ (depth : ℕ) (items : List (Key F × Value F)),
    faultItems depth items = none →
    ∃ read, List.Forall₂ (ReadsBy (scanPair (scanOnce fl depth))) (textItems fl items) read
  | _, [], _ => ⟨[], .nil⟩
  | depth, (k, v) :: items, h => by
      rw [faultItems, Option.or_eq_none_iff, Option.or_eq_none_iff] at h
      obtain ⟨w, hw⟩ := readsBy_text depth v h.2.1
      obtain ⟨read, hread⟩ := readsBy_items depth items h.2.2
      exact ⟨(k.text fl, w) :: read, .cons (readsBy_pair (starts_scanOnce depth) hw) hread⟩
termination_by structural _ items => items

end

end Values

end TransformHub.Python
