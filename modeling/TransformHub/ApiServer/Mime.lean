import Mathlib.Data.List.TakeWhile
import TransformHub.Js.Text

/-!
# Content negotiation

`mimeCompare` and `mimeAccepts` work on the texts of a header and of the served types.
-/

namespace TransformHub.ApiServer

/-- What `.` of a regular expression does not match. -/
def isLineTerminator (c : Char) : Bool :=
  c == '\n' || c == '\r' || c == '\u2028' || c == '\u2029'

/-- `mime.replace(/\*.*$/, "")`. -/
def mimeFrag : List Char → List Char
  | [] => []
  | c :: cs => if c == '*' && !cs.any isLineTerminator then [] else c :: mimeFrag cs

/-- `mimeCompare`. An empty text that is found is not returned. -/
def mimeCompare (served : List (List Char)) : List (List Char) → Option (List Char)
  | [] => none
  | item :: accepted =>
    let mime := item.takeWhile (· != ';')
    if served.contains mime then some mime
    else if mime.contains '*' then
      match served.find? (mimeFrag mime).isPrefixOf with
      | some (c :: cs) => some (c :: cs)
      | _ => mimeCompare served accepted
    else mimeCompare served accepted

/-- `mimeAccepts`; `none` is `undefined`. -/
def mimeAccepts (accepted : Option (List Char)) (served : List (List Char)) :
    Except String (Option (List Char)) :=
  match accepted with
  | none | some [] => .ok served.head?
  | some accepted =>
    match mimeCompare served (accepted.splitOn ',') with
    | some (c :: cs) => .ok (some (c :: cs))
    | _ => .error "ERR_INVALID_CONTENT_TYPE"

/-- The types that `checkAccepts` serves. -/
def checkedTypes (text json : Bool) : List (List Char) :=
  if text && json then ["text/x-ndjson".toList, "application/x-ndjson".toList]
  else if json then ["application/x-ndjson".toList]
  else if text then ["text/plain".toList]
  else ["application/octet-stream".toList]

def checkAccepts (acc : Option (List Char)) (text json : Bool) :
    Except String (Option (List Char)) := mimeAccepts acc (checkedTypes text json)

/-! ## Headers -/

def isNameChar (c : Char) : Bool := !([',', ';', '/', '*', ' ', '\t'].contains c)

structure Name where
  chars : List Char
  nonempty : chars ≠ []
  plain : chars.all isNameChar
  deriving DecidableEq

structure MediaType where
  type : Name
  subtype : Name
  deriving DecidableEq

def MediaType.chars (t : MediaType) : List Char := t.type.chars ++ '/' :: t.subtype.chars

inductive MediaRange
  | exact (t : MediaType)
  | subtypes (type : Name)
  | all

namespace MediaRange

def chars : MediaRange → List Char
  | exact t => t.chars
  | subtypes type => type.chars ++ ['/', '*']
  | all => ['*', '/', '*']

/-- The range matches the type. -/
def Matches : MediaRange → MediaType → Bool
  | exact t, u => t == u
  | subtypes type, u => type == u.type
  | all, _ => true

def isExact : MediaRange → Bool
  | exact _ => true
  | _ => false

end MediaRange

/-- A character of optional white space. -/
inductive Blank
  | space
  | tab

def Blank.char : Blank → Char
  | space => ' '
  | tab => '\t'

/-- A parameter. A comma would end the range that it belongs to. -/
structure Parameter where
  before : List Blank
  after : List Blank
  text : List Char
  undivided : ',' ∉ text

def Parameter.chars (p : Parameter) : List Char :=
  p.before.map Blank.char ++ ';' :: (p.after.map Blank.char ++ p.text)

/-- A media range of a header, with its parameters and the white space around them. -/
structure RangeItem where
  before : List Blank
  range : MediaRange
  parameters : List Parameter
  after : List Blank

namespace RangeItem

def chars (i : RangeItem) : List Char :=
  i.before.map Blank.char ++ i.range.chars ++ i.parameters.flatMap Parameter.chars ++
    i.after.map Blank.char

/-- The white space directly after the range. -/
def gap (i : RangeItem) : List Blank :=
  match i.parameters with
  | [] => i.after
  | p :: _ => p.before

def bare (i : RangeItem) : RangeItem :=
  { i with
    before := []
    parameters := i.parameters.map fun p => { p with before := [], after := [] }
    after := [] }

/-- No white space stands before the range, nor directly after one without a wildcard. -/
def Unspoiled (i : RangeItem) : Bool :=
  i.before.isEmpty && (!i.range.isExact || i.gap.isEmpty)

end RangeItem

def header (items : List RangeItem) : List Char := [','].intercalate (items.map RangeItem.chars)

/-- The served type that the first range that matches one selects. -/
def selected (served : List MediaType) (items : List RangeItem) : Option MediaType :=
  items.findSome? fun i => served.find? i.range.Matches

/-- What is promised of the negotiation about a header. -/
structure Negotiates (served : List MediaType) (items : List RangeItem) : Prop where
  /-- What is returned is a served type that the first range to match any of them matches. -/
  returned : ∀ t, mimeAccepts (some (header items)) (served.map MediaType.chars) = .ok t →
    ∃ u ∈ served, t = some u.chars ∧ ∃ before i after, items = before ++ i :: after ∧
      i.range.Matches u ∧ ∀ j ∈ before, ∀ v ∈ served, ¬ j.range.Matches v
  throws : (∃ e, mimeAccepts (some (header items)) (served.map MediaType.chars) = .error e) ↔
    ∀ i ∈ items, ∀ u ∈ served, ¬ i.range.Matches u
  blanks : mimeAccepts (some (header items)) (served.map MediaType.chars) =
    mimeAccepts (some (header (items.map RangeItem.bare))) (served.map MediaType.chars)

/-! ## The texts of types and ranges -/

theorem isNameChar_of_mem {n : Name} {c : Char} (h : c ∈ n.chars) : isNameChar c :=
  List.all_eq_true.mp n.plain c h

theorem Name.notMem (n : Name) {c : Char} (h : isNameChar c = false) : c ∉ n.chars := by
  intro hmem
  rw [isNameChar_of_mem hmem] at h
  cases h

theorem Name.exists_cons (n : Name) : ∃ c cs, n.chars = c :: cs ∧ isNameChar c := by
  obtain ⟨c, cs, hcs⟩ := List.exists_cons_of_ne_nil n.nonempty
  exact ⟨c, cs, hcs, isNameChar_of_mem (hcs ▸ List.mem_cons_self)⟩

theorem Name.ext_chars {n m : Name} (h : n.chars = m.chars) : n = m := by
  cases n
  cases m
  cases h
  rfl

theorem Blank.isNameChar_char (b : Blank) : isNameChar b.char = false := by cases b <;> rfl

theorem Name.append_slash {n m : Name} {s t : List Char}
    (h : n.chars ++ '/' :: s = m.chars ++ '/' :: t) : n = m ∧ s = t := by
  have hname (n : Name) (s : List Char) :
      (n.chars ++ '/' :: s).takeWhile (· != '/') = n.chars := by
    rw [List.takeWhile_append_of_pos, List.takeWhile_cons_of_neg (by simp), List.append_nil]
    intro c hc
    have hne : c ≠ '/' := fun hslash => n.notMem (by rfl) (hslash ▸ hc)
    simpa using hne
  have heq : n = m := Name.ext_chars (by rw [← hname n s, h, hname m t])
  subst heq
  exact ⟨rfl, by simpa using h⟩

theorem MediaType.chars_inj {t u : MediaType} (h : t.chars = u.chars) : t = u := by
  obtain ⟨htype, hsubtype⟩ := Name.append_slash h
  cases t
  cases u
  cases htype
  cases Name.ext_chars hsubtype
  rfl

theorem MediaType.mem_chars {t : MediaType} {c : Char} (h : c ∈ t.chars) :
    c = '/' ∨ isNameChar c := by
  rw [MediaType.chars, List.mem_append, List.mem_cons] at h
  rcases h with h | h | h
  · exact .inr (isNameChar_of_mem h)
  · exact .inl h
  · exact .inr (isNameChar_of_mem h)

theorem MediaType.notMem {t : MediaType} {c : Char} (h : isNameChar c = false) (hc : c ≠ '/') :
    c ∉ t.chars := by
  intro hmem
  rcases t.mem_chars hmem with h' | h'
  · exact hc h'
  · rw [h'] at h
    cases h

theorem MediaType.exists_cons (t : MediaType) : ∃ c cs, t.chars = c :: cs ∧ isNameChar c := by
  obtain ⟨c, cs, hcs, hc⟩ := t.type.exists_cons
  exact ⟨c, cs ++ '/' :: t.subtype.chars, by rw [MediaType.chars, hcs, List.cons_append], hc⟩

theorem MediaType.not_prefix_blank {t : MediaType} {b : Blank} {s : List Char} :
    ¬ b.char :: s <+: t.chars := by
  obtain ⟨c, cs, hcs, hc⟩ := t.exists_cons
  rw [hcs, List.cons_prefix_cons]
  rintro ⟨rfl, -⟩
  rw [b.isNameChar_char] at hc
  cases hc

theorem MediaRange.mem_chars {r : MediaRange} {c : Char} (h : c ∈ r.chars) :
    c = '/' ∨ c = '*' ∨ isNameChar c := by
  cases r with
  | exact t => exact (t.mem_chars h).imp_right .inr
  | subtypes type =>
    rw [MediaRange.chars, List.mem_append] at h
    rcases h with h | h
    · exact .inr (.inr (isNameChar_of_mem h))
    · simpa [or_assoc] using Or.inl h
  | all =>
    simp only [MediaRange.chars, List.mem_cons, List.not_mem_nil, or_false] at h
    tauto

theorem MediaRange.chars_ne_nil (r : MediaRange) : r.chars ≠ [] := by
  cases r <;> simp [MediaRange.chars, MediaType.chars]

/-! ## The text of an item -/

theorem blank_of_mem {bs : List Blank} {c : Char} (h : c ∈ bs.map Blank.char) :
    c = ' ' ∨ c = '\t' := by
  obtain ⟨b, -, rfl⟩ := List.mem_map.mp h
  cases b
  · exact .inl rfl
  · exact .inr rfl

theorem RangeItem.takeWhile_chars (i : RangeItem) :
    i.chars.takeWhile (· != ';') = i.before.map Blank.char ++ i.range.chars ++
      i.gap.map Blank.char := by
  have hblank (bs : List Blank) : ∀ c ∈ bs.map Blank.char, (c != ';') = true := by
    intro c hc
    rcases blank_of_mem hc with rfl | rfl <;> rfl
  have hrange : ∀ c ∈ i.range.chars, (c != ';') = true := by
    intro c hc
    rcases i.range.mem_chars hc with rfl | rfl | h
    · rfl
    · rfl
    · have hne : c ≠ ';' := by
        rintro rfl
        cases h
      simpa using hne
  rw [RangeItem.chars, List.append_assoc _ _ (i.after.map Blank.char), List.append_assoc,
    List.takeWhile_append_of_pos (hblank _), List.takeWhile_append_of_pos hrange,
    List.append_assoc, RangeItem.gap]
  congr 2
  cases i.parameters with
  | nil =>
    rw [List.flatMap_nil, List.nil_append]
    exact List.takeWhile_eq_self_iff.mpr (hblank _)
  | cons p ps =>
    rw [List.flatMap_cons, Parameter.chars, List.append_assoc, List.append_assoc,
      List.takeWhile_append_of_pos (hblank _), List.cons_append,
      List.takeWhile_cons_of_neg (by simp), List.append_nil]

theorem RangeItem.comma_notMem (i : RangeItem) : ',' ∉ i.chars := by
  have hblank (bs : List Blank) : ',' ∉ bs.map Blank.char := by
    intro hc
    rcases blank_of_mem hc with h | h <;> cases h
  have hrange : ',' ∉ i.range.chars := by
    intro hc
    rcases i.range.mem_chars hc with h | h | h <;> cases h
  have hparameters : ',' ∉ i.parameters.flatMap Parameter.chars := by
    intro hc
    obtain ⟨p, -, hp⟩ := List.mem_flatMap.mp hc
    simp only [Parameter.chars, List.mem_append, List.mem_cons] at hp
    rcases hp with h | h | h | h
    · exact hblank _ h
    · cases h
    · exact hblank _ h
    · exact p.undivided h
  simp only [RangeItem.chars, List.mem_append, not_or]
  exact ⟨⟨⟨hblank _, hrange⟩, hparameters⟩, hblank _⟩

/-! ## The comparison -/

theorem mimeFrag_append {s t : List Char} (hs : '*' ∉ s) (ht : t.any isLineTerminator = false) :
    mimeFrag (s ++ '*' :: t) = s := by
  induction s with
  | nil => simp [mimeFrag, ht]
  | cons c cs ih =>
    rw [List.mem_cons, not_or] at hs
    have hc : (c == '*') = false := beq_false_of_ne (Ne.symm hs.1)
    rw [List.cons_append, mimeFrag, hc, Bool.false_and, if_neg Bool.false_ne_true, ih hs.2]

theorem any_isLineTerminator_blanks (bs : List Blank) :
    (bs.map Blank.char).any isLineTerminator = false := by
  rw [List.any_eq_false]
  intro c hc
  rcases blank_of_mem hc with rfl | rfl <;> decide

theorem isPrefixOf_chars (type : Name) (u : MediaType) :
    (type.chars ++ ['/']).isPrefixOf u.chars = (type == u.type) := by
  rw [Bool.eq_iff_iff, List.isPrefixOf_iff_prefix, beq_iff_eq, MediaType.chars]
  constructor
  · rintro ⟨s, hs⟩
    rw [List.append_assoc, List.singleton_append] at hs
    exact (Name.append_slash hs).1
  · rintro rfl
    exact ⟨u.subtype.chars, by simp⟩

theorem find_mimeFrag (served : List MediaType) (before : List Blank) (stem : List Char)
    {r : MediaRange} (hstem : ∀ u : MediaType, stem.isPrefixOf u.chars = r.Matches u) :
    (served.map MediaType.chars).find? (before.map Blank.char ++ stem).isPrefixOf =
      if before.isEmpty then (served.find? r.Matches).map MediaType.chars else none := by
  cases before with
  | nil =>
    rw [List.find?_map, List.isEmpty_nil, if_pos rfl]
    congr 2
    funext u
    exact hstem u
  | cons b bs =>
    rw [List.isEmpty_cons, if_neg Bool.false_ne_true, List.find?_eq_none]
    intro s hs
    obtain ⟨u, -, rfl⟩ := List.mem_map.mp hs
    rw [List.isPrefixOf_iff_prefix]
    exact MediaType.not_prefix_blank

theorem contains_exact (served : List MediaType) (before gap : List Blank) (t : MediaType) :
    (served.map MediaType.chars).contains
      (before.map Blank.char ++ t.chars ++ gap.map Blank.char) =
      (before.isEmpty && gap.isEmpty && served.contains t) := by
  rw [Bool.eq_iff_iff, List.contains_iff_mem, Bool.and_eq_true, Bool.and_eq_true,
    List.contains_iff_mem, List.isEmpty_iff, List.isEmpty_iff]
  constructor
  · intro hmem
    obtain ⟨u, hu, heq⟩ := List.mem_map.mp hmem
    have hbefore : before = [] := by
      cases before with
      | nil => rfl
      | cons b bs => exact absurd ⟨_, heq.symm⟩ (MediaType.not_prefix_blank (t := u) (b := b))
    have hgap : gap = [] := by
      cases gap with
      | nil => rfl
      | cons b bs =>
        have hb : b.char ∈ u.chars := by simp [heq]
        have hslash : b.char ≠ '/' := by cases b <;> decide
        exact absurd hb (u.notMem b.isNameChar_char hslash)
    subst hbefore hgap
    rw [List.map_nil, List.nil_append, List.append_nil] at heq
    exact ⟨⟨rfl, rfl⟩, u.chars_inj heq ▸ hu⟩
  · rintro ⟨⟨rfl, rfl⟩, ht⟩
    simpa using List.mem_map_of_mem ht

theorem find_eq (served : List MediaType) (t : MediaType) :
    served.find? (t == ·) = if served.contains t then some t else none := by
  induction served with
  | nil => rfl
  | cons u served ih =>
    by_cases htu : t = u
    · subst htu
      simp
    · have hne : (t == u) = false := beq_false_of_ne htu
      rw [List.find?_cons, hne, ih, List.contains_cons, hne, Bool.false_or]

/-- What the code takes of an item: nothing, where white space spoils it. -/
def RangeItem.taken (served : List MediaType) (i : RangeItem) : Option MediaType :=
  if i.Unspoiled then served.find? i.range.Matches else none

theorem mimeCompare_wildcard {served accepted : List (List Char)} {item mime : List Char}
    (hmime : item.takeWhile (· != ';') = mime) (hstar : '*' ∈ mime)
    (hserved : mime ∉ served) (hne : [] ∉ served) :
    mimeCompare served (item :: accepted) =
      (served.find? (mimeFrag mime).isPrefixOf).or (mimeCompare served accepted) := by
  have hserved : served.contains mime = false := by simpa using hserved
  rw [mimeCompare, hmime, hserved, List.contains_iff_mem.mpr hstar]
  cases hfound : served.find? (mimeFrag mime).isPrefixOf with
  | none => rfl
  | some s =>
    cases s with
    | nil => exact absurd (List.mem_of_find?_eq_some hfound) hne
    | cons c cs => rfl

theorem mimeCompare_item (served : List MediaType) (i : RangeItem) (accepted : List (List Char)) :
    mimeCompare (served.map MediaType.chars) (i.chars :: accepted) =
      ((i.taken served).map MediaType.chars).or
        (mimeCompare (served.map MediaType.chars) accepted) := by
  have hmime := i.takeWhile_chars
  have hne : [] ∉ served.map MediaType.chars := by
    intro hmem
    obtain ⟨u, -, hu⟩ := List.mem_map.mp hmem
    obtain ⟨c, cs, hcs, -⟩ := u.exists_cons
    rw [hu] at hcs
    cases hcs
  have hwild : '*' ∈ i.range.chars → i.chars.takeWhile (· != ';') ∉ served.map MediaType.chars := by
    intro hstar hmem
    obtain ⟨u, -, hu⟩ := List.mem_map.mp hmem
    refine u.notMem (c := '*') rfl (by decide) ?_
    rw [hu, hmime]
    simp [hstar]
  have hlookup (stem : List Char) (rest : List Char) (hchars : i.range.chars = stem ++ '*' :: rest)
      (hstar : '*' ∉ stem) (hrest : rest.any isLineTerminator = false)
      (hexact : i.range.isExact = false)
      (hstem : ∀ u : MediaType, stem.isPrefixOf u.chars = i.range.Matches u) :
      mimeCompare (served.map MediaType.chars) (i.chars :: accepted) =
        ((i.taken served).map MediaType.chars).or
          (mimeCompare (served.map MediaType.chars) accepted) := by
    have hin : '*' ∈ i.range.chars := by simp [hchars]
    rw [mimeCompare_wildcard rfl (by rw [hmime]; simp [hin]) (hwild hin) hne, hmime, hchars]
    have hblank : '*' ∉ i.before.map Blank.char := by
      intro hc
      rcases blank_of_mem hc with h | h <;> cases h
    have hfrag : mimeFrag (i.before.map Blank.char ++ (stem ++ '*' :: rest) ++
        i.gap.map Blank.char) = i.before.map Blank.char ++ stem := by
      rw [← mimeFrag_append (s := i.before.map Blank.char ++ stem)
        (t := rest ++ i.gap.map Blank.char)]
      · simp
      · simp only [List.mem_append, not_or]
        exact ⟨hblank, hstar⟩
      · rw [List.any_append, hrest, any_isLineTerminator_blanks, Bool.or_self]
    rw [hfrag, find_mimeFrag served i.before stem hstem, RangeItem.taken, RangeItem.Unspoiled,
      hexact]
    cases i.before <;> simp
  cases hrange : i.range with
  | exact t =>
    rw [hrange] at hmime
    have hstar : '*' ∉ i.chars.takeWhile (· != ';') := by
      rw [hmime]
      simp only [MediaRange.chars, List.mem_append, not_or]
      refine ⟨⟨?_, t.notMem rfl (by decide)⟩, ?_⟩
      all_goals
        intro hc
        rcases blank_of_mem hc with h | h <;> cases h
    have htaken : i.taken served =
        if i.before.isEmpty && i.gap.isEmpty && served.contains t then some t else none := by
      have hfind : served.find? (MediaRange.exact t).Matches =
          if served.contains t then some t else none := find_eq served t
      rw [RangeItem.taken, RangeItem.Unspoiled, hrange, hfind]
      cases i.before.isEmpty <;> cases i.gap.isEmpty <;> rfl
    have hcontains := contains_exact served i.before i.gap t
    have hnotstar : (i.chars.takeWhile (· != ';')).contains '*' = false := by simpa using hstar
    rw [mimeCompare, hnotstar, hmime, MediaRange.chars, hcontains, htaken]
    cases hcase : i.before.isEmpty && i.gap.isEmpty && served.contains t with
    | false => rfl
    | true =>
      rw [Bool.and_eq_true, Bool.and_eq_true, List.isEmpty_iff, List.isEmpty_iff] at hcase
      simp [hcase.1.1, hcase.1.2]
  | subtypes type =>
    refine hlookup (type.chars ++ ['/']) [] (by rw [hrange]; simp [MediaRange.chars]) ?_ rfl
      (by rw [hrange]; rfl) fun u => by rw [isPrefixOf_chars, hrange]; rfl
    simpa using type.notMem (c := '*') rfl
  | all =>
    exact hlookup [] ['/', '*'] (by rw [hrange]; rfl) List.not_mem_nil rfl
      (by rw [hrange]; rfl) fun u => by rw [hrange]; rfl

theorem mimeCompare_items (served : List MediaType) (items : List RangeItem) :
    mimeCompare (served.map MediaType.chars) (items.map RangeItem.chars) =
      (selected served (items.filter RangeItem.Unspoiled)).map MediaType.chars := by
  induction items with
  | nil => rfl
  | cons i items ih =>
    rw [List.map_cons, mimeCompare_item, ih, RangeItem.taken, List.filter_cons]
    cases i.Unspoiled with
    | false => rfl
    | true =>
      rw [if_pos rfl, if_pos rfl, selected, selected, List.findSome?_cons]
      cases served.find? i.range.Matches <;> rfl

theorem RangeItem.chars_ne_nil (i : RangeItem) : i.chars ≠ [] := by
  simp [RangeItem.chars, i.range.chars_ne_nil]

theorem splitOn_header {items : List RangeItem} (h : items ≠ []) :
    (header items).splitOn ',' = items.map RangeItem.chars := by
  refine List.splitOn_intercalate ',' ?_ (by simpa using h)
  intro s hs
  obtain ⟨i, -, rfl⟩ := List.mem_map.mp hs
  exact i.comma_notMem

theorem header_ne_nil {items : List RangeItem} (h : items ≠ []) : header items ≠ [] := by
  intro hnil
  have hsplit := splitOn_header h
  rw [hnil] at hsplit
  cases items with
  | nil => exact h rfl
  | cons i items => exact i.chars_ne_nil (List.cons.inj hsplit).1.symm

theorem mimeAccepts_header (served : List MediaType) {items : List RangeItem} (h : items ≠ []) :
    mimeAccepts (some (header items)) (served.map MediaType.chars) =
      match selected served (items.filter RangeItem.Unspoiled) with
      | some u => .ok (some u.chars)
      | none => .error "ERR_INVALID_CONTENT_TYPE" := by
  obtain ⟨c, cs, hcs⟩ := List.exists_cons_of_ne_nil (header_ne_nil h)
  have hsplit := splitOn_header h
  rw [hcs] at hsplit ⊢
  rw [mimeAccepts, hsplit, mimeCompare_items]
  · cases selected served (items.filter RangeItem.Unspoiled) with
    | none => rfl
    | some u =>
      obtain ⟨d, ds, hds, -⟩ := u.exists_cons
      show _ = Except.ok (some u.chars)
      rw [Option.map_some, hds]
  · rintro ⟨⟩

theorem selected_bare (served : List MediaType) (items : List RangeItem) :
    selected served ((items.map RangeItem.bare).filter RangeItem.Unspoiled) =
      selected served items := by
  have hbare : ∀ j ∈ items.map RangeItem.bare, j.Unspoiled = true := by
    intro j hj
    obtain ⟨i, -, rfl⟩ := List.mem_map.mp hj
    rw [RangeItem.Unspoiled, RangeItem.gap, RangeItem.bare]
    cases i.parameters <;> simp
  rw [List.filter_eq_self.mpr hbare, selected, List.findSome?_map]
  rfl

theorem selected_eq_none {served : List MediaType} {items : List RangeItem} :
    selected served items = none ↔ ∀ i ∈ items, ∀ u ∈ served, ¬ i.range.Matches u := by
  simp [selected, List.findSome?_eq_none_iff, List.find?_eq_none]

/-- The negotiation keeps what is promised exactly if the header has a range, and the ranges that white
space spoils do not change which served type is selected. -/
theorem negotiates_iff_unspoiled (served : List MediaType) (items : List RangeItem) :
    Negotiates served items ↔ items ≠ [] ∧
      selected served (items.filter RangeItem.Unspoiled) = selected served items := by
  constructor
  · intro hneg
    have hne : items ≠ [] := by
      rintro rfl
      obtain ⟨e, he⟩ := hneg.throws.mpr (by simp)
      cases he
    have hblanks := hneg.blanks
    rw [mimeAccepts_header served hne, mimeAccepts_header served (by simpa using hne),
      selected_bare] at hblanks
    refine ⟨hne, ?_⟩
    generalize selected served (items.filter RangeItem.Unspoiled) = s at hblanks ⊢
    cases s with
    | none =>
      cases hall : selected served items with
      | none => rfl
      | some u => rw [hall] at hblanks; cases hblanks
    | some t =>
      cases hall : selected served items with
      | none => rw [hall] at hblanks; cases hblanks
      | some u =>
        rw [hall] at hblanks
        exact congrArg some (MediaType.chars_inj (Option.some.inj (Except.ok.inj hblanks)))
  · rintro ⟨hne, hselected⟩
    have haccepts := mimeAccepts_header served hne
    rw [hselected] at haccepts
    refine ⟨?_, ?_, ?_⟩
    · intro t ht
      rw [haccepts] at ht
      cases hall : selected served items with
      | none => rw [hall] at ht; cases ht
      | some u =>
        rw [hall] at ht
        obtain ⟨before, i, after, hitems, hfind, hbefore⟩ := List.findSome?_eq_some_iff.mp hall
        refine ⟨u, List.mem_of_find?_eq_some hfind, (Except.ok.inj ht).symm, before, i, after,
          hitems, List.find?_some hfind, ?_⟩
        intro j hj
        exact List.find?_eq_none.mp (hbefore j hj)
    · rw [haccepts, ← selected_eq_none]
      cases selected served items <;> simp
    · rw [haccepts, mimeAccepts_header served (by simpa using hne), selected_bare]

def jsonType : MediaType :=
  ⟨⟨"application".toList, by decide, by decide⟩, ⟨"json".toList, by decide, by decide⟩⟩

/-- `text/html, application/json`. -/
def spacedItems : List RangeItem :=
  [⟨[], .exact ⟨⟨"text".toList, by decide, by decide⟩, ⟨"html".toList, by decide, by decide⟩⟩,
      [], []⟩,
    ⟨[.space], .exact jsonType, [], []⟩]

/-- The second range of `text/html, application/json` is not recognised. -/
theorem spacedItems_not_negotiates : ¬ Negotiates [jsonType] spacedItems := by
  intro hneg
  refine hneg.throws.mp ⟨"ERR_INVALID_CONTENT_TYPE", rfl⟩ ⟨[.space], .exact jsonType, [], []⟩ ?_
    jsonType List.mem_cons_self rfl
  exact List.mem_cons_of_mem _ List.mem_cons_self

end TransformHub.ApiServer
