import TransformHub.Python.JsonRoundTrip

/-!
# What the text of a value contains

A surrogate exactly where a string or a key of the value has one, and no end of a line.
-/

namespace TransformHub.Python

def SingleLine (t : Text) : Prop :=
  CodePoint.ofChar '\n' ∉ t ∧ CodePoint.ofChar '\r' ∉ t

def Encodable (t : Text) : Prop := ∀ p ∈ t, p.isSurrogate = false

theorem SingleLine.append {s t : Text} (hs : SingleLine s) (ht : SingleLine t) :
    SingleLine (s ++ t) :=
  ⟨fun h => (List.mem_append.mp h).elim hs.1 ht.1, fun h => (List.mem_append.mp h).elim hs.2 ht.2⟩

theorem singleLine_ofChars {cs : List Char} (hn : '\n' ∉ cs) (hr : '\r' ∉ cs) :
    SingleLine (ofChars cs) := by
  have hmem : ∀ c, CodePoint.ofChar c ∈ ofChars cs → c ∈ cs := by
    intro c h
    obtain ⟨d, hd, heq⟩ := List.mem_map.mp h
    exact ofChar_injective heq ▸ hd
  exact ⟨fun h => hn (hmem _ h), fun h => hr (hmem _ h)⟩

theorem encodable_append {s t : Text} : Encodable (s ++ t) ↔ Encodable s ∧ Encodable t :=
  List.forall_mem_append

theorem encodable_ofChars (cs : List Char) : Encodable (ofChars cs) := by
  intro p hp
  obtain ⟨c, -, rfl⟩ := List.mem_map.mp hp
  exact CodePoint.isSurrogate_ofChar c

theorem joined_all {P : Text → Prop} (happend : ∀ {s t}, P s → P t → P (s ++ t))
    (hnil : P []) (hcomma : P (ofChars [','])) {ts : List Text} (h : ∀ t ∈ ts, P t) :
    P (joined ts) := by
  induction ts with
  | nil => exact hnil
  | cons t ts ih =>
    have ht := h t List.mem_cons_self
    cases ts with
    | nil => exact ht
    | cons t' ts =>
      have hts := ih fun s hs => h s (List.mem_cons_of_mem _ hs)
      exact happend (happend ht hcomma) hts

theorem mem_joined {t : Text} {ts : List Text} (ht : t ∈ ts) {p : CodePoint} (hp : p ∈ t) :
    p ∈ joined ts := by
  induction ts with
  | nil => cases ht
  | cons s ts ih =>
    cases ts with
    | nil =>
      rw [List.mem_singleton] at ht
      exact ht ▸ hp
    | cons s' ts =>
      show p ∈ s ++ ofChars [','] ++ joined (s' :: ts)
      rcases List.mem_cons.mp ht with rfl | ht
      · exact List.mem_append_left _ (List.mem_append_left _ hp)
      · exact List.mem_append_right _ (ih ht)

/-! ## Strings -/

theorem notMem_escapeChar (c : Char) : '\n' ∉ escapeChar c ∧ '\r' ∉ escapeChar c := by
  have hdigit : ∀ n < 16, hexDigit n ≠ '\n' ∧ hexDigit n ≠ '\r' := by decide
  unfold escapeChar
  split_ifs with h1 h2 h3 h4 h5 h6 h7 h8
  · decide
  · decide
  · decide
  · decide
  · decide
  · decide
  · decide
  · have hhigh := hdigit (c.toNat / 16) (by omega)
    have hlow := hdigit (c.toNat % 16) (by omega)
    simp [hhigh.1.symm, hhigh.2.symm, hlow.1.symm, hlow.2.symm]
  · simp only [List.mem_singleton]
    exact ⟨fun h => h5 h.symm, fun h => h6 h.symm⟩

theorem singleLine_escape (p : CodePoint) : SingleLine (escape p) := by
  unfold escape
  split
  · exact singleLine_ofChars (notMem_escapeChar _).1 (notMem_escapeChar _).2
  · rename_i hp
    have hne : ∀ c, CodePoint.ofChar c ∉ [p] := by
      intro c hmem
      rw [List.mem_singleton] at hmem
      rw [← hmem, CodePoint.toChar?_ofChar] at hp
      cases hp
    exact ⟨hne _, hne _⟩

theorem singleLine_quote (t : Text) : SingleLine (quote t) := by
  have hinner : SingleLine (t.flatMap escape) := by
    refine ⟨fun h => ?_, fun h => ?_⟩
    · obtain ⟨p, -, hp⟩ := List.mem_flatMap.mp h
      exact (singleLine_escape p).1 hp
    · obtain ⟨p, -, hp⟩ := List.mem_flatMap.mp h
      exact (singleLine_escape p).2 hp
  have hquote : SingleLine (ofChars ['"']) := singleLine_ofChars (by decide) (by decide)
  exact (hquote.append hinner).append hquote

theorem encodable_escape (p : CodePoint) : Encodable (escape p) ↔ p.isSurrogate = false := by
  unfold escape
  split
  · rename_i c hc
    rw [CodePoint.eq_ofChar_of_toChar? hc]
    exact ⟨fun _ => CodePoint.isSurrogate_ofChar c, fun _ => encodable_ofChars _⟩
  · simp [Encodable]

theorem encodable_quote (t : Text) : Encodable (quote t) ↔ Encodable t := by
  have hinner : Encodable (t.flatMap escape) ↔ Encodable t := by
    constructor
    · intro h p hp
      apply (encodable_escape p).mp
      intro q hq
      exact h q (List.mem_flatMap.mpr ⟨p, hp, hq⟩)
    · intro h q hq
      obtain ⟨p, hp, hq⟩ := List.mem_flatMap.mp hq
      exact (encodable_escape p).mpr (h p hp) q hq
  rw [quote, encodable_append, encodable_append, hinner]
  exact ⟨fun h => h.1.2, fun h => ⟨⟨encodable_ofChars _, h⟩, encodable_ofChars _⟩⟩

/-! ## Numbers and keys -/

theorem notMem_digits {ds : List Char} (hds : ∀ c ∈ ds, c.isDigit = true) {c : Char}
    (hc : c.isDigit = false) : c ∉ ds := by
  intro hmem
  rw [hds c hmem] at hc
  cases hc

theorem notMem_chars {t : NumberText} (ht : t.Valid) {c : Char} (hdigit : c.isDigit = false)
    (hc : c ≠ '-' ∧ c ≠ '+' ∧ c ≠ '.' ∧ c ≠ 'e') : c ∉ t.chars := by
  obtain ⟨negative, whole, fraction, exponent⟩ := t
  obtain ⟨hminus, hplus, hpoint, he⟩ := hc
  have hwhole : c ∉ whole := notMem_digits ht.whole.2.1 hdigit
  have hfraction : c ∉ NumberText.fractionText fraction := by
    cases fraction with
    | nil => exact List.not_mem_nil
    | cons d ds =>
      intro hmem
      rcases List.mem_cons.mp hmem with rfl | hmem
      · exact hpoint rfl
      · exact notMem_digits ht.fraction hdigit hmem
  have hexponent : c ∉ NumberText.exponentText exponent := by
    cases exponent with
    | none => exact List.not_mem_nil
    | some e =>
      obtain ⟨-, hdigits, hmark⟩ := ht.exponent e rfl
      intro hmem
      rcases List.mem_cons.mp hmem with rfl | hmem
      · exact he rfl
      · rcases List.mem_append.mp hmem with hmem | hmem
        · rcases hmark with hmark | hmark | hmark <;> rw [hmark] at hmem
          · cases hmem
          · exact hplus (List.mem_singleton.mp hmem)
          · exact hminus (List.mem_singleton.mp hmem)
        · exact notMem_digits hdigits hdigit hmem
  unfold NumberText.chars
  simp only [List.mem_append, hwhole, hfraction, hexponent, or_false]
  split
  · simpa using hminus
  · exact List.not_mem_nil

theorem singleLine_number {t : NumberText} (ht : t.Valid) : SingleLine (ofChars t.chars) :=
  singleLine_ofChars (notMem_chars ht (by decide) (by decide))
    (notMem_chars ht (by decide) (by decide))

theorem singleLine_bool (b : Bool) : SingleLine (ofChars (boolChars b)) := by
  cases b <;> exact singleLine_ofChars (by decide) (by decide)

section Values

variable {F : Type} (fl : Floats F)

def Key.texts : Key F → List Text
  | .str t => [t]
  | _ => []

theorem encodable_key (k : Key F) : Encodable (k.text fl) ↔ ∀ t ∈ k.texts, Encodable t := by
  cases k with
  | str t => simp [Key.text, Key.texts]
  | int i | float x => simp [Key.text, Key.texts, encodable_ofChars]
  | nonFinite => simp [Key.text, Key.texts, Encodable]
  | bool b => simp [Key.text, Key.texts, encodable_ofChars]
  | none =>
    have hnull : Encodable (ofString "null") := encodable_ofChars _
    simp [Key.text, Key.texts, hnull]
  | other n => simp [Key.text, Key.texts, Encodable]

mutual

/-- The strings of a value and of its keys. -/
def Value.texts : Value F → List Text
  | .str t => [t]
  | .list elems => textsOfElems elems
  | .dict items => textsOfItems items
  | _ => []
termination_by structural v => v

def textsOfElems : List (Value F) → List Text
  | [] => []
  | v :: vs => v.texts ++ textsOfElems vs
termination_by structural vs => vs

def textsOfItems : List (Key F × Value F) → List Text
  | [] => []
  | (k, v) :: items => k.texts ++ v.texts ++ textsOfItems items
termination_by structural items => items

end

mutual

theorem singleLine_text : ∀ v : Value F, SingleLine (v.text fl)
  | .none => singleLine_ofChars (by decide) (by decide)
  | .bool b => singleLine_bool b
  | .int i => by
      rw [Value.text, ← chars_intText]
      exact singleLine_number (valid_intText i)
  | .float x => singleLine_number (fl.valid x)
  | .nonFinite => ⟨List.not_mem_nil, List.not_mem_nil⟩
  | .str t => singleLine_quote t
  | .list elems => by
      rw [Value.text]
      apply SingleLine.append
      · apply SingleLine.append (singleLine_ofChars (by decide) (by decide))
        exact joined_all SingleLine.append ⟨List.not_mem_nil, List.not_mem_nil⟩
          (singleLine_ofChars (by decide) (by decide)) (singleLine_elems elems)
      · exact singleLine_ofChars (by decide) (by decide)
  | .dict items => by
      rw [Value.text]
      apply SingleLine.append
      · apply SingleLine.append (singleLine_ofChars (by decide) (by decide))
        exact joined_all SingleLine.append ⟨List.not_mem_nil, List.not_mem_nil⟩
          (singleLine_ofChars (by decide) (by decide)) (singleLine_items items)
      · exact singleLine_ofChars (by decide) (by decide)
  | .circular => ⟨List.not_mem_nil, List.not_mem_nil⟩
  | .other _ => ⟨List.not_mem_nil, List.not_mem_nil⟩
termination_by structural v => v

theorem singleLine_elems : ∀ (vs : List (Value F)), ∀ t ∈ textElems fl vs, SingleLine t
  | [], t, ht => (List.not_mem_nil ht).elim
  | v :: vs, t, ht => by
      rw [textElems] at ht
      rcases List.mem_cons.mp ht with rfl | ht
      · exact singleLine_text v
      · exact singleLine_elems vs t ht
termination_by structural vs => vs

theorem singleLine_items :
    ∀ (items : List (Key F × Value F)), ∀ t ∈ textItems fl items, SingleLine t
  | [], t, ht => (List.not_mem_nil ht).elim
  | (k, v) :: items, t, ht => by
      rw [textItems] at ht
      rcases List.mem_cons.mp ht with rfl | ht
      · exact ((singleLine_quote _).append (singleLine_ofChars (by decide) (by decide))).append
          (singleLine_text v)
      · exact singleLine_items items t ht
termination_by structural items => items

end

theorem encodable_joined {ts : List Text} : Encodable (joined ts) ↔ ∀ t ∈ ts, Encodable t := by
  constructor
  · intro h t ht p hp
    exact h p (mem_joined ht hp)
  · intro h
    refine joined_all (fun hs ht => encodable_append.mpr ⟨hs, ht⟩) ?_ (encodable_ofChars _) h
    exact fun p hp => (List.not_mem_nil hp).elim

theorem encodable_brackets (left right : List Char) {t : Text} :
    Encodable (ofChars left ++ t ++ ofChars right) ↔ Encodable t := by
  rw [encodable_append, encodable_append]
  exact ⟨fun h => h.1.2, fun h => ⟨⟨encodable_ofChars _, h⟩, encodable_ofChars _⟩⟩

mutual

theorem encodable_text : ∀ v : Value F, Encodable (v.text fl) ↔ ∀ t ∈ v.texts, Encodable t
  | .none => by
      have h : Encodable (ofString "null") := encodable_ofChars _
      simp [Value.text, Value.texts, h]
  | .bool b => by simp [Value.text, Value.texts, encodable_ofChars]
  | .int i => by simp [Value.text, Value.texts, encodable_ofChars]
  | .float x => by simp [Value.text, Value.texts, encodable_ofChars]
  | .nonFinite => by simp [Value.text, Value.texts, Encodable]
  | .str t => by simp [Value.text, Value.texts, encodable_quote]
  | .list elems => by
      rw [Value.text, Value.texts, encodable_brackets, encodable_joined]
      exact encodable_elems elems
  | .dict items => by
      rw [Value.text, Value.texts, encodable_brackets, encodable_joined]
      exact encodable_items items
  | .circular => by simp [Value.text, Value.texts, Encodable]
  | .other _ => by simp [Value.text, Value.texts, Encodable]
termination_by structural v => v

theorem encodable_elems : ∀ vs : List (Value F),
    (∀ t ∈ textElems fl vs, Encodable t) ↔ ∀ t ∈ textsOfElems vs, Encodable t
  | [] => by simp [textElems, textsOfElems]
  | v :: vs => by
      rw [textElems, textsOfElems, List.forall_mem_cons, List.forall_mem_append, encodable_text v,
        encodable_elems vs]
termination_by structural vs => vs

theorem encodable_items : ∀ items : List (Key F × Value F),
    (∀ t ∈ textItems fl items, Encodable t) ↔ ∀ t ∈ textsOfItems items, Encodable t
  | [] => by simp [textItems, textsOfItems]
  | (k, v) :: items => by
      have hcolon : Encodable (ofChars [':']) := encodable_ofChars _
      rw [textItems, textsOfItems, List.forall_mem_cons, List.forall_mem_append,
        List.forall_mem_append, encodable_append, encodable_append, encodable_quote,
        encodable_key, encodable_text v, encodable_items items]
      simp only [hcolon, and_true]
termination_by structural items => items

end

end Values

end TransformHub.Python
