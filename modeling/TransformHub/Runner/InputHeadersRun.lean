import Mathlib.Algebra.GroupWithZero.Nat
import TransformHub.Runner.InputHeaders
import Mathlib.Data.List.Perm.Basic

/-!
# When an input is split into its headers and its body

The pieces that the loop reads cut the input anywhere.
-/

namespace TransformHub.Runner.InputStream

open Js OrderedMap

/-! ## Headers -/

theorem count_lists {ts gs : List (List Char)} (h : List.Forall₂ Garbled ts gs) :
    (ts.map (List.count replacementChar)).sum < (gs.map (List.count replacementChar)).sum ∨
      gs = ts := by
  induction h with
  | nil => exact .inr rfl
  | @cons t g ts gs hg _ ih =>
    rw [List.map_cons, List.map_cons, List.sum_cons, List.sum_cons]
    rcases hg.count_lt_or_eq with hlt | rfl
    · rcases ih with ih | rfl <;> exact .inl (by omega)
    · rcases ih with ih | rfl
      · exact .inl (by omega)
      · exact .inr rfl

/-- The other header has as many replacement characters as it had. -/
def KeepsReplacements (toLowerCase : List Char → List Char) : Prop :=
  ∀ cs, (toLowerCase cs).count replacementChar = cs.count replacementChar

def HeaderBlock.Distinct (toLowerCase : List Char → List Char) (block : HeaderBlock) : Prop :=
  (block.lines.map fun line => toLowerCase line.name).Nodup

/-- The maps answer alike for every name. -/
def SameHeaders (a b : HeadersMap) : Prop := ∀ name, a.get? name = b.get? name

section Headers

variable {toLowerCase : List Char → List Char} {block block' : HeaderBlock}

/-- No value has the separator of names and values in it. -/
def HeaderBlock.PlainValues (block : HeaderBlock) : Prop :=
  ∀ line ∈ block.lines, hasPair ':' ' ' line.value = false

theorem sameHeaders_of_plain (hlines : block'.lines = block.lines) (hplain : block.PlainValues) :
    SameHeaders (.ofEntries (block'.pairs toLowerCase)) (block.headers toLowerCase) := by
  have hpairs : block'.pairs toLowerCase =
      block.lines.map fun line => (toLowerCase line.name, some line.value) := by
    unfold HeaderBlock.pairs
    rw [hlines]
    refine List.map_congr_left fun line hline => ?_
    rw [firstPart_of_free (hplain line hline)]
  intro name
  rw [hpairs]
  rfl

theorem pairs_perm (hdistinct : block.Distinct toLowerCase)
    (hlength : block'.lines.length = block.lines.length)
    (hsame : SameHeaders (.ofEntries (block'.pairs toLowerCase)) (block.headers toLowerCase)) :
    (block.lines.map fun line => (toLowerCase line.name, some line.value)).Perm
      (block'.pairs toLowerCase) := by
  have hkeys : ((block.lines.map fun line => (toLowerCase line.name, some line.value)).map
      Prod.fst).Nodup := by
    rw [List.map_map]
    exact hdistinct
  have hsubset : (block.lines.map fun line => (toLowerCase line.name, some line.value)) ⊆
      block'.pairs toLowerCase := by
    rintro ⟨name, value⟩ hpair
    rw [← entries_ofEntries hkeys, mem_entries_iff] at hpair
    have hget := (hsame name).trans hpair
    have hall : (ofEntries (block'.pairs toLowerCase)).All
        fun key val => (key, val) ∈ block'.pairs toLowerCase := .ofEntries fun e he => he
    exact hall (name, value) (mem_entries_iff.mpr hget)
  refine (List.subperm_of_subset (hkeys.of_map _) hsubset).perm_of_length_le ?_
  apply Nat.le_of_eq
  unfold HeaderBlock.pairs
  rw [List.length_map, List.length_map, hlength]

theorem lines_of_sameHeaders (hlower : KeepsReplacements toLowerCase)
    (hdistinct : block.Distinct toLowerCase)
    (hgarbles : List.Forall₂ HeaderLine.Garbles block.lines block'.lines)
    (hsame : SameHeaders (.ofEntries (block'.pairs toLowerCase)) (block.headers toLowerCase)) :
    block'.lines = block.lines ∧ block.PlainValues := by
  have hperm := pairs_perm hdistinct hgarbles.length_eq.symm hsame
  have hplain : block.PlainValues := by
    intro line hline
    have hmem : (toLowerCase line.name, some line.value) ∈ block'.pairs toLowerCase :=
      hperm.subset (List.mem_map.mpr ⟨line, hline, rfl⟩)
    obtain ⟨line', -, heq⟩ := List.mem_map.mp hmem
    rw [Prod.mk.injEq, Option.some.injEq] at heq
    rw [← heq.2]
    exact hasPair_firstPart _
  have hvalues' : ∀ line' ∈ block'.lines, firstPart line'.value = line'.value := by
    intro line' hline'
    obtain ⟨i, hi, rfl⟩ := List.getElem_of_mem hline'
    have hi' : i < block.lines.length := hgarbles.length_eq ▸ hi
    have hg := List.Forall₂.get hgarbles hi' hi
    exact firstPart_of_free (hg.value.hasPair (by decide) (by decide)
      (hplain _ (List.get_mem _ _)))
  have hnames : block'.lines.map HeaderLine.name = block.lines.map HeaderLine.name := by
    have hlists : List.Forall₂ Garbled (block.lines.map HeaderLine.name)
        (block'.lines.map HeaderLine.name) := by
      rw [List.forall₂_map_left_iff, List.forall₂_map_right_iff]
      exact hgarbles.imp fun _ _ hg => hg.name
    refine (count_lists hlists).resolve_left (Nat.not_lt.mpr (Nat.le_of_eq ?_))
    have hsum := (hperm.map fun pair => pair.1.count replacementChar).sum_nat
    simp only [HeaderBlock.pairs, List.map_map, Function.comp_def, hlower _] at hsum
    simpa only [List.map_map, Function.comp_def] using hsum.symm
  have hvalues : block'.lines.map HeaderLine.value = block.lines.map HeaderLine.value := by
    have hlists : List.Forall₂ Garbled (block.lines.map HeaderLine.value)
        (block'.lines.map HeaderLine.value) := by
      rw [List.forall₂_map_left_iff, List.forall₂_map_right_iff]
      exact hgarbles.imp fun _ _ hg => hg.value
    refine (count_lists hlists).resolve_left (Nat.not_lt.mpr (Nat.le_of_eq ?_))
    have hsum := (hperm.map fun pair => (pair.2.getD []).count replacementChar).sum_nat
    simp only [HeaderBlock.pairs, List.map_map, Function.comp_def, Option.getD_some] at hsum
    rw [List.map_map, List.map_map]
    refine Eq.trans (congrArg List.sum (List.map_congr_left fun line' hline' => ?_)) hsum.symm
    rw [Function.comp_apply, hvalues' line' hline']
  refine ⟨?_, hplain⟩
  have hzip : ∀ lines lines' : List HeaderLine,
      lines'.map HeaderLine.name = lines.map HeaderLine.name →
      lines'.map HeaderLine.value = lines.map HeaderLine.value → lines' = lines := by
    intro lines lines' hn hv
    induction lines generalizing lines' with
    | nil => exact List.map_eq_nil_iff.mp hn
    | cons line lines ih =>
      cases lines' with
      | nil => cases hn
      | cons line' lines' =>
        rw [List.map_cons, List.map_cons, List.cons.injEq] at hn hv
        obtain ⟨name, value⟩ := line
        obtain ⟨name', value'⟩ := line'
        obtain ⟨hname, hn⟩ := hn
        obtain ⟨hvalue, hv⟩ := hv
        simp only at hname hvalue
        rw [ih lines' hn hv, hname, hvalue]
  exact hzip _ _ hnames hvalues

end Headers

theorem HeaderLine.chars_injective {line line' : HeaderLine} (h : line.WellFormed)
    (h' : line'.WellFormed) (heq : line.chars = line'.chars) : line = line' := by
  have hparts := congrArg (splitPair ':' ' ') heq
  unfold HeaderLine.chars at heq hparts
  rw [splitPair_append (by decide) h.name, splitPair_append (by decide) h'.name,
    List.cons.injEq] at hparts
  obtain ⟨name, value⟩ := line
  obtain ⟨name', value'⟩ := line'
  obtain ⟨hname, -⟩ := hparts
  simp only at hname heq
  subst hname
  rw [List.append_cancel_left_eq, List.cons.injEq, List.cons.injEq] at heq
  rw [heq.2.2]

theorem HeaderBlock.lines_of_chars {block block' : HeaderBlock} (h : block'.chars = block.chars) :
    block'.lines = block.lines := by
  have hraw : block'.rawHeaders = block.rawHeaders := List.append_cancel_right h
  have hsplit : ∀ b : HeaderBlock,
      splitPair '\r' '\n' b.rawHeaders = b.lines.map HeaderLine.chars := by
    intro b
    refine splitPair_joinPair (by decide) (by simpa using b.nonempty) fun part hpart => ?_
    obtain ⟨line, hline, rfl⟩ := List.mem_map.mp hpart
    exact (b.wellFormed line hline).single
  have hmap : block'.lines.map HeaderLine.chars = block.lines.map HeaderLine.chars := by
    rw [← hsplit, ← hsplit, hraw]
  have hlists : ∀ lines lines' : List HeaderLine, (∀ line ∈ lines, line.WellFormed) →
      (∀ line ∈ lines', line.WellFormed) →
      lines'.map HeaderLine.chars = lines.map HeaderLine.chars → lines' = lines := by
    intro lines lines' hl hl' heq
    induction lines generalizing lines' with
    | nil => exact List.map_eq_nil_iff.mp heq
    | cons line lines ih =>
      cases lines' with
      | nil => cases heq
      | cons line' lines' =>
        rw [List.map_cons, List.map_cons, List.cons.injEq] at heq
        rw [HeaderLine.chars_injective (hl' line' List.mem_cons_self) (hl line List.mem_cons_self)
            heq.1,
          ih lines' (fun l hmem => hl l (List.mem_cons_of_mem _ hmem))
            (fun l hmem => hl' l (List.mem_cons_of_mem _ hmem)) heq.2]
  exact hlists _ _ block.wellFormed block'.wellFormed hmap

/-! ## What the loop has read -/

theorem breakTwice_incomplete {block : HeaderBlock} {ps : List (List UInt8)} {q : List UInt8}
    (h : ps.flatten ++ q = block.bytes) (hq : q ≠ []) :
    breakTwice '\r' '\n' (ps.flatMap decodeChars) = none := by
  have hwhole : (ps ++ [q]).flatten = encodeChars block.chars := by
    rw [List.flatten_append, List.flatten_singleton]
    exact h
  obtain ⟨block', hblock', -⟩ := garbled_block (decode_pieces hwhole).1
  rw [List.flatMap_append, List.flatMap_singleton] at hblock'
  cases hfound : breakTwice '\r' '\n' (ps.flatMap decodeChars) with
  | none => rfl
  | some found =>
    exfalso
    have hend := breakTwice_block block' []
    rw [List.append_nil, ← hblock', breakTwice_append hfound, Option.some.injEq,
      Prod.mk.injEq] at hend
    exact hq (decodeChars_eq_nil (List.append_eq_nil_iff.mp hend.2).2)

theorem text_complete {block : HeaderBlock} {ps : List (List UInt8)} {p r : List UInt8}
    (h : ps.flatten ++ p = block.bytes) :
    ∃ block' : HeaderBlock, List.Forall₂ HeaderLine.Garbles block.lines block'.lines ∧
      ps.flatMap decodeChars ++ decodeChars (p ++ r) = block'.chars ++ decodeChars r ∧
      (block'.lines = block.lines ↔ ∀ q ∈ ps, IsText q) := by
  have hwhole : (ps ++ [p]).flatten = encodeChars block.chars := by
    rw [List.flatten_append, List.flatten_singleton]
    exact h
  obtain ⟨hgarbled, htexts⟩ := decode_pieces hwhole
  obtain ⟨block', hblock', hlines⟩ := garbled_block hgarbled
  obtain ⟨cs, hcs⟩ := write_end (a := ps.flatten) (h := p) h
  have hp : decodeChars p = cs := by
    unfold decodeChars
    rw [hcs]
    exact List.append_nil cs
  refine ⟨block', hlines, ?_, ?_⟩
  · rw [decodeChars_append_of_none hcs, ← hblock', List.flatMap_append, List.flatMap_singleton, hp,
      List.append_assoc]
  · constructor
    · intro heq q hq
      refine htexts ?_ q (List.mem_append_left _ hq)
      rw [hblock']
      unfold HeaderBlock.chars HeaderBlock.rawHeaders
      rw [heq]
    · intro hps
      have hall : ∀ q ∈ ps ++ [p], IsText q := by
        intro q hq
        rcases List.mem_append.mp hq with hq | hq
        · exact hps q hq
        · rw [List.mem_singleton.mp hq]
          exact isText_rest (isText_flatten hps) h
      have hchars := (decode_texts hwhole hall).symm.trans hblock'
      exact HeaderBlock.lines_of_chars hchars.symm

/-! ## Runs -/

/-- An input as it is to be split: the promise is resolved once the block is read, with its headers,
and what is read from the stream after that is the body. -/
structure Split (toLowerCase : List Char → List Char) (block : HeaderBlock) (body : List UInt8)
    (s : InputReader) : Prop where
  resolves : s.resolved = none → s.pieces.flatten.length < block.bytes.length ∧
    (s.called = true → s.listening = true)
  headers : ∀ headers, s.resolved = some headers → SameHeaders headers (block.headers toLowerCase)
  body : s.resolved.isSome → s.delivered ++ s.buffered ++ s.pending = body

/-- The step reads the stream. -/
def InputReader.reads (s : InputReader) : InputAction → Bool
  | .call => !s.called
  | .readable => s.listening
  | _ => false

/-- What a step that reads something leaves intact: the piece that ends the block is read when no
earlier piece has cut a character, brings a text along, and no value has a `: `; a piece that is
read after that is a text, and no part of the body was read before it. -/
def Intact (block : HeaderBlock) (s : InputReader) (a : InputAction) : Prop :=
  s.reads a = true → s.buffered ≠ [] →
    match s.resolved with
    | none =>
      block.bytes.length ≤ (s.pieces.flatten ++ s.buffered).length →
        (∀ p ∈ s.pieces, IsText p) ∧
          IsText ((s.pieces.flatten ++ s.buffered).drop block.bytes.length) ∧ block.PlainValues
    | some _ => s.pieces.flatten.length = block.bytes.length ∧ IsText s.buffered

/-- What holds of the reader in every run whose steps leave the input intact. -/
structure Good (block : HeaderBlock) (body : List UInt8) (s : InputReader) : Prop where
  fresh : s.called = false → s.pieces = [] ∧ s.resolved = none ∧ s.listening = false
  waiting : s.resolved = none → s.buffer = s.pieces.flatMap decodeChars ∧ s.delivered = [] ∧
    s.pieces.flatten ++ (s.buffered ++ s.pending) = block.bytes ++ body
  left : s.resolved.isSome → s.listening = true →
    ∃ r, s.pieces.flatten = block.bytes ++ r ∧ s.buffer = block.chars ++ decodeChars r

section Step

variable {toLowerCase : List Char → List Char} {block : HeaderBlock} {body : List UInt8}
  {s : InputReader}

/-- The reader when a piece has been read that does not end the block. -/
def InputReader.goesOn (s : InputReader) : InputReader :=
  { s with
    buffered := []
    buffer := s.buffer ++ decodeChars s.buffered
    pieces := s.pieces ++ [s.buffered] }

theorem onReadable_empty (h : s.buffered = []) : s.onReadable toLowerCase = s := by
  unfold InputReader.onReadable
  rw [h]

theorem onReadable_none (hne : s.buffered ≠ [])
    (h : breakTwice '\r' '\n' (s.buffer ++ decodeChars s.buffered) = none) :
    s.onReadable toLowerCase = s.goesOn := by
  unfold InputReader.onReadable InputReader.goesOn
  split
  next hempty => exact absurd hempty hne
  next => simp only [h]

theorem onReadable_some (hne : s.buffered ≠ []) {raw rest : List Char}
    (h : breakTwice '\r' '\n' (s.buffer ++ decodeChars s.buffered) = some (raw, rest)) :
    s.onReadable toLowerCase =
      { s.goesOn with
        listening := false
        buffered := encodeChars rest
        resolved := s.resolved.or (some (parseHeaders toLowerCase raw)) } := by
  unfold InputReader.onReadable InputReader.goesOn
  split
  next hempty => exact absurd hempty hne
  next => simp only [h]

theorem Good.incomplete (h : Good block body s) (hwait : s.resolved = none) (hne : s.buffered ≠ [])
    (hshort : (s.pieces.flatten ++ s.buffered).length < block.bytes.length) :
    s.onReadable toLowerCase = s.goesOn := by
  obtain ⟨hbuffer, -, hbytes⟩ := h.waiting hwait
  apply onReadable_none hne
  rw [← List.append_assoc] at hbytes
  obtain ⟨q, hq, -⟩ | ⟨q, hq, -⟩ := List.append_eq_append_iff.mp hbytes
  · have hflat : (s.pieces ++ [s.buffered]).flatten ++ q = block.bytes := by
      rw [List.flatten_append, List.flatten_singleton]
      exact hq.symm
    have hq' : q ≠ [] := by
      rintro rfl
      rw [List.append_nil] at hq
      rw [hq] at hshort
      exact Nat.lt_irrefl _ hshort
    have hnone := breakTwice_incomplete hflat hq'
    rwa [List.flatMap_append, List.flatMap_singleton, ← hbuffer] at hnone
  · rw [hq, List.length_append] at hshort
    omega

theorem Good.complete (toLowerCase : List Char → List Char) (h : Good block body s)
    (hwait : s.resolved = none) (hne : s.buffered ≠ [])
    (hread : s.pieces.flatten.length < block.bytes.length)
    (hlong : block.bytes.length ≤ (s.pieces.flatten ++ s.buffered).length) :
    ∃ (block' : HeaderBlock) (r : List UInt8),
      List.Forall₂ HeaderLine.Garbles block.lines block'.lines ∧
        (block'.lines = block.lines ↔ ∀ q ∈ s.pieces, IsText q) ∧
        s.pieces.flatten ++ s.buffered = block.bytes ++ r ∧ body = r ++ s.pending ∧
        s.buffer ++ decodeChars s.buffered = block'.chars ++ decodeChars r ∧
        s.onReadable toLowerCase =
          { s.goesOn with
            listening := false
            buffered := encodeChars (decodeChars r)
            resolved := some (.ofEntries (block'.pairs toLowerCase)) } := by
  obtain ⟨hbuffer, -, hbytes⟩ := h.waiting hwait
  have hbytes' := hbytes
  rw [← List.append_assoc] at hbytes'
  obtain ⟨r, hr, hbody⟩ : ∃ r, s.pieces.flatten ++ s.buffered = block.bytes ++ r ∧
      body = r ++ s.pending := by
    obtain ⟨q, hq, hrest⟩ | ⟨q, hq, hrest⟩ := List.append_eq_append_iff.mp hbytes'
    · rw [hq, List.length_append] at hlong
      have hnil : q = [] := List.length_eq_zero_iff.mp (by omega)
      subst hnil
      exact ⟨[], by rw [hq, List.append_nil, List.append_nil], hrest.symm⟩
    · exact ⟨q, hq, hrest⟩
  -- the part of the piece that is still of the block
  obtain ⟨p, hp, hbuffered⟩ : ∃ p, s.pieces.flatten ++ p = block.bytes ∧ s.buffered = p ++ r := by
    obtain ⟨q, hq, hrest⟩ | ⟨q, hq, -⟩ := List.append_eq_append_iff.mp hr
    · exact ⟨q, hq.symm, hrest⟩
    · rw [hq, List.length_append] at hread
      omega
  obtain ⟨block', hgarbles, htext, hlines⟩ := text_complete (r := r) hp
  rw [← hbuffer, ← hbuffered] at htext
  refine ⟨block', r, hgarbles, hlines, hr, hbody, htext, ?_⟩
  have hfound : breakTwice '\r' '\n' (s.buffer ++ decodeChars s.buffered) =
      some (block'.rawHeaders, decodeChars r) := by
    rw [htext]
    exact breakTwice_block block' _
  rw [onReadable_some hne hfound, hwait, parseHeaders_block]
  rfl

theorem Good.again (toLowerCase : List Char → List Char) (h : Good block body s)
    (hfound : s.resolved.isSome) (hlisten : s.listening = true) (hne : s.buffered ≠ []) :
    ∃ r, s.pieces.flatten = block.bytes ++ r ∧
      s.onReadable toLowerCase =
        { s.goesOn with
          listening := false
          buffered := encodeChars (decodeChars r ++ decodeChars s.buffered) } := by
  obtain ⟨r, hr, hbuffer⟩ := h.left hfound hlisten
  refine ⟨r, hr, ?_⟩
  have hbreak : breakTwice '\r' '\n' (s.buffer ++ decodeChars s.buffered) =
      some (block.rawHeaders, decodeChars r ++ decodeChars s.buffered) := by
    rw [hbuffer, List.append_assoc]
    exact breakTwice_block block _
  rw [onReadable_some hne hbreak]
  obtain ⟨headers, hheaders⟩ := Option.isSome_iff_exists.mp hfound
  rw [hheaders]
  simp only [InputReader.goesOn, Option.or]
  rw [hheaders]

theorem again_iff {r x : List UInt8} :
    encodeChars (decodeChars r ++ decodeChars x) = x ↔ r = [] ∧ IsText x := by
  constructor
  · intro heq
    have htext : decodeChars r ++ decodeChars x = decodeChars x := by
      conv_rhs => rw [← heq, decodeChars_encodeChars]
    have hnil := decodeChars_eq_nil (List.append_left_eq_self.mp htext)
    exact ⟨hnil, _, heq.symm⟩
  · rintro ⟨rfl, htext⟩
    exact encode_decode_iff.mpr htext

/-! ### One step -/

theorem split_complete_iff {headers : HeadersMap} {t : InputReader} {r : List UInt8}
    (hbody : body = r ++ t.pending) (hresolved : t.resolved = some headers)
    (hdelivered : t.delivered = []) (hbuffered : t.buffered = encodeChars (decodeChars r)) :
    Split toLowerCase block body t ↔
      SameHeaders headers (block.headers toLowerCase) ∧ IsText r := by
  have hgiven : t.delivered ++ t.buffered ++ t.pending = body ↔ IsText r := by
    rw [hdelivered, hbuffered, hbody, List.nil_append, List.append_cancel_right_eq]
    exact encode_decode_iff
  constructor
  · intro hsplit
    exact ⟨hsplit.headers headers hresolved,
      hgiven.mp (hsplit.body (by rw [hresolved]; rfl))⟩
  · rintro ⟨hsame, htext⟩
    refine ⟨fun hnone => ?_, fun headers' hheaders' => ?_, fun _ => hgiven.mpr htext⟩
    · rw [hresolved] at hnone
      cases hnone
    · rw [hresolved] at hheaders'
      cases hheaders'
      exact hsame

/-- The reader after it has read is attached or not, and is called. -/
structure AfterRead (t t' : InputReader) : Prop where
  pending : t'.pending = t.pending
  buffered : t'.buffered = t.buffered
  buffer : t'.buffer = t.buffer
  resolved : t'.resolved = t.resolved
  delivered : t'.delivered = t.delivered
  pieces : t'.pieces = t.pieces
  called : t'.called = true

theorem step_unread {t' : InputReader} (h : Good block body s)
    (hsplit : Split toLowerCase block body s)
    (hafter : AfterRead s t') (hlisten : s.resolved = none → t'.listening = true)
    (hleft : s.resolved.isSome → t'.listening = true → s.listening = true) :
    Good block body t' ∧ Split toLowerCase block body t' := by
  refine ⟨⟨fun hcalled => ?_, fun hwait => ?_, fun hfound hl => ?_⟩,
    ⟨fun hwait => ?_, fun headers hheaders => ?_, fun hfound => ?_⟩⟩
  · rw [hafter.called] at hcalled
    cases hcalled
  · rw [hafter.resolved] at hwait
    rw [hafter.buffer, hafter.pieces, hafter.delivered, hafter.buffered, hafter.pending]
    exact h.waiting hwait
  · rw [hafter.resolved] at hfound
    rw [hafter.buffer, hafter.pieces]
    exact h.left hfound (hleft hfound hl)
  · rw [hafter.resolved] at hwait
    rw [hafter.pieces]
    exact ⟨(hsplit.resolves hwait).1, fun _ => hlisten hwait⟩
  · rw [hafter.resolved] at hheaders
    exact hsplit.headers headers hheaders
  · rw [hafter.resolved] at hfound
    rw [hafter.delivered, hafter.buffered, hafter.pending]
    exact hsplit.body hfound

theorem step_incomplete {t' : InputReader} (h : Good block body s) (hwait : s.resolved = none)
    (hshort : (s.pieces.flatten ++ s.buffered).length < block.bytes.length)
    (hafter : AfterRead s.goesOn t') (hlisten : t'.listening = true) :
    Good block body t' ∧ Split toLowerCase block body t' := by
  obtain ⟨hbuffer, hdelivered, hbytes⟩ := h.waiting hwait
  have hresolved : t'.resolved = none := hafter.resolved.trans hwait
  have hpieces : t'.pieces.flatten = s.pieces.flatten ++ s.buffered := by
    rw [hafter.pieces]
    simp [InputReader.goesOn]
  refine ⟨⟨fun hcalled => ?_, fun _ => ⟨?_, ?_, ?_⟩, fun hfound => ?_⟩,
    ⟨fun _ => ⟨?_, fun _ => hlisten⟩, fun headers hheaders => ?_, fun hfound => ?_⟩⟩
  · rw [hafter.called] at hcalled
    cases hcalled
  · rw [hafter.buffer, hafter.pieces]
    simp [InputReader.goesOn, hbuffer]
  · exact hafter.delivered.trans hdelivered
  · rw [hpieces, hafter.buffered, hafter.pending, List.append_assoc]
    exact hbytes
  · rw [hresolved] at hfound
    cases hfound
  · rw [hpieces]
    exact hshort
  · rw [hresolved] at hheaders
    cases hheaders
  · rw [hresolved] at hfound
    cases hfound

theorem HeaderBlock.bytes_ne_nil (block : HeaderBlock) : block.bytes ≠ [] := by
  intro hnil
  have hlength := length_le_encodeChars block.chars
  unfold HeaderBlock.bytes at hnil
  rw [hnil] at hlength
  unfold HeaderBlock.chars at hlength
  simp at hlength

section

variable {a : InputAction} {t' : InputReader} (h : Good block body s)
  (hsplit : Split toLowerCase block body s) (hreads : s.reads a = true)
include h hsplit hreads

theorem step_complete (hwait : s.resolved = none)
    (hne : s.buffered ≠ [])
    (hlong : block.bytes.length ≤ (s.pieces.flatten ++ s.buffered).length)
    (hafter : AfterRead (s.onReadable toLowerCase) t')
    (hcall : t'.listening = true → (s.onReadable toLowerCase).listening = true ∨ s.pieces = []) :
    (Intact block s a → Good block body t' ∧ Split toLowerCase block body t') ∧
      (KeepsReplacements toLowerCase → block.Distinct toLowerCase →
        Split toLowerCase block body t' → Intact block s a) := by
  obtain ⟨block', r, hgarbles, hlines, hbytes, hbody, htext, hread⟩ :=
    Good.complete toLowerCase h hwait hne (hsplit.resolves hwait).1 hlong
  have hintact : Intact block s a ↔
      (∀ p ∈ s.pieces, IsText p) ∧ IsText r ∧ block.PlainValues := by
    unfold Intact
    rw [hwait, hbytes, List.drop_left]
    constructor
    · intro hintact
      exact hintact hreads hne (hbytes ▸ hlong)
    · intro hall _ _ _
      exact hall
  rw [hread] at hafter hcall
  have hresolved := hafter.resolved
  have hiff : Split toLowerCase block body t' ↔
      SameHeaders (.ofEntries (block'.pairs toLowerCase)) (block.headers toLowerCase) ∧ IsText r :=
    split_complete_iff (by rw [hbody, hafter.pending]; rfl) hresolved
      (hafter.delivered.trans (h.waiting hwait).2.1) hafter.buffered
  rw [hintact, hiff]
  constructor
  · rintro ⟨htexts, hr, hplain⟩
    have hsame := hlines.mpr htexts
    refine ⟨⟨fun hcalled => ?_, fun hwait' => ?_, fun _ hlisten => ?_⟩,
      sameHeaders_of_plain hsame hplain, hr⟩
    · rw [hafter.called] at hcalled
      cases hcalled
    · rw [hresolved] at hwait'
      cases hwait'
    · -- the listener stays only where the block was complete at the call
      rcases hcall hlisten with hfalse | hnil
      · cases hfalse
      · refine ⟨r, ?_, ?_⟩
        · rw [hafter.pieces, ← hbytes]
          simp [InputReader.goesOn]
        · have hchars : block'.chars = block.chars := by
            unfold HeaderBlock.chars HeaderBlock.rawHeaders
            rw [hsame]
          rw [hafter.buffer]
          show s.buffer ++ decodeChars s.buffered = _
          rw [htext, hchars]
  · rintro hlower hdistinct ⟨hsame, hr⟩
    obtain ⟨hequal, hplain⟩ := lines_of_sameHeaders hlower hdistinct hgarbles hsame
    exact ⟨hlines.mp hequal, hr, hplain⟩

theorem step_again
    (hfound : s.resolved.isSome) (hlisten : s.listening = true) (hne : s.buffered ≠ [])
    (hafter : AfterRead (s.onReadable toLowerCase) t')
    (hcall : t'.listening = true → (s.onReadable toLowerCase).listening = true ∨ s.pieces = []) :
    (Intact block s a ↔ Split toLowerCase block body t') ∧
      (Intact block s a → Good block body t') := by
  obtain ⟨r, hr, hread⟩ := Good.again toLowerCase h hfound hlisten hne
  obtain ⟨headers, hheaders⟩ := Option.isSome_iff_exists.mp hfound
  have hintact : Intact block s a ↔ r = [] ∧ IsText s.buffered := by
    have hnil : s.pieces.flatten.length = block.bytes.length ↔ r = [] := by
      rw [hr, List.length_append, Nat.add_eq_left, List.length_eq_zero_iff]
    unfold Intact
    rw [hheaders, ← hnil]
    constructor
    · intro hintact
      exact hintact hreads hne
    · intro hall _ _
      exact hall
  rw [hread] at hafter hcall
  have hresolved : t'.resolved = some headers := hafter.resolved.trans hheaders
  constructor
  · rw [hintact, ← again_iff]
    have hbody := hsplit.body hfound
    have hgiven : t'.delivered ++ t'.buffered ++ t'.pending = body ↔
        encodeChars (decodeChars r ++ decodeChars s.buffered) = s.buffered := by
      rw [hafter.delivered, hafter.buffered, hafter.pending, ← hbody]
      show s.delivered ++ _ ++ s.pending = _ ↔ _
      rw [List.append_cancel_right_eq, List.append_cancel_left_eq]
    rw [← hgiven]
    constructor
    · intro hgiven
      refine ⟨fun hnone => ?_, fun headers' hheaders' => ?_, fun _ => hgiven⟩
      · rw [hresolved] at hnone
        cases hnone
      · rw [hresolved, ← hheaders] at hheaders'
        exact hsplit.headers headers' hheaders'
    · intro hsplit'
      exact hsplit'.body (by rw [hresolved]; rfl)
  · intro _
    refine ⟨fun hcalled => ?_, fun hnone => ?_, fun _ hlisten' => ?_⟩
    · rw [hafter.called] at hcalled
      cases hcalled
    · rw [hresolved] at hnone
      cases hnone
    · rcases hcall hlisten' with hfalse | hnil
      · cases hfalse
      · rw [hnil] at hr
        exact absurd (List.append_eq_nil_iff.mp hr.symm).1 block.bytes_ne_nil

theorem step_read (hattached : s.resolved.isSome → s.listening = true)
    (hafter : AfterRead (s.onReadable toLowerCase) t')
    (hlisten : s.resolved = none → (s.onReadable toLowerCase).resolved = none →
      t'.listening = true)
    (hcall : t'.listening = true → (s.onReadable toLowerCase).listening = true ∨ s.pieces = []) :
    (Intact block s a → Good block body t' ∧ Split toLowerCase block body t') ∧
      (KeepsReplacements toLowerCase → block.Distinct toLowerCase →
        Split toLowerCase block body t' → Intact block s a) := by
  by_cases hempty : s.buffered = []
  · have hread : s.onReadable toLowerCase = s := onReadable_empty hempty
    rw [hread] at hafter hlisten
    refine ⟨fun _ => ?_, fun _ _ _ _ hne => absurd hempty hne⟩
    exact step_unread h hsplit hafter (fun hwait => hlisten hwait hwait)
      fun hfound _ => hattached hfound
  cases hresolved : s.resolved with
  | none =>
    by_cases hlong : block.bytes.length ≤ (s.pieces.flatten ++ s.buffered).length
    · exact step_complete h hsplit hreads hresolved hempty hlong hafter hcall
    · have hshort := Nat.lt_of_not_le hlong
      have hread : s.onReadable toLowerCase = s.goesOn := h.incomplete hresolved hempty hshort
      rw [hread] at hafter hlisten
      refine ⟨fun _ => step_incomplete h hresolved hshort hafter (hlisten hresolved hresolved),
        fun _ _ _ _ _ => ?_⟩
      rw [hresolved]
      exact fun hle => absurd hle hlong
  | some headers =>
    have hfound : s.resolved.isSome := by
      rw [hresolved]
      rfl
    obtain ⟨hiff, hgood⟩ := step_again h hsplit hreads hfound (hattached hfound) hempty hafter hcall
    exact ⟨fun hintact => ⟨hgood hintact, hiff.mp hintact⟩, fun _ _ => hiff.mpr⟩

end

theorem onReadable_called (s : InputReader) : (s.onReadable toLowerCase).called = s.called := by
  unfold InputReader.onReadable
  split
  · rfl
  · simp only
    split <;> rfl

theorem onReadable_listening (s : InputReader)
    (h : s.resolved = none) (hafter : (s.onReadable toLowerCase).resolved = none) :
    (s.onReadable toLowerCase).listening = s.listening := by
  unfold InputReader.onReadable at hafter ⊢
  split at hafter
  · rfl
  · simp only at hafter ⊢
    split at hafter
    · rename_i hnone
      simp only
    · rw [h] at hafter
      cases hafter

theorem Good.step (h : Good block body s) (hsplit : Split toLowerCase block body s)
    (a : InputAction) :
    (Intact block s a →
        Good block body (s.next toLowerCase a) ∧ Split toLowerCase block body (s.next toLowerCase a)) ∧
      (KeepsReplacements toLowerCase → block.Distinct toLowerCase →
        Split toLowerCase block body (s.next toLowerCase a) → Intact block s a) := by
  have hquiet : s.reads a = false → Intact block s a := by
    intro hreads hreads'
    rw [hreads] at hreads'
    cases hreads'
  cases a with
  | arrive n =>
    refine ⟨fun _ => ⟨⟨h.fresh, fun hwait => ?_, h.left⟩, hsplit.resolves, hsplit.headers,
      fun hfound => ?_⟩, fun _ _ _ => hquiet rfl⟩
    · obtain ⟨hbuffer, hdelivered, hbytes⟩ := h.waiting hwait
      refine ⟨hbuffer, hdelivered, ?_⟩
      show s.pieces.flatten ++ (s.buffered ++ s.pending.take n ++ s.pending.drop n) = _
      rw [List.append_assoc s.buffered, List.take_append_drop]
      exact hbytes
    · show s.delivered ++ (s.buffered ++ s.pending.take n) ++ s.pending.drop n = _
      rw [List.append_assoc, List.append_assoc s.buffered, List.take_append_drop,
        ← List.append_assoc]
      exact hsplit.body hfound
  | call =>
    cases hcalled : s.called with
    | true =>
      have hsame : s.next toLowerCase .call = s := by
        unfold InputReader.next
        rw [if_pos hcalled]
      rw [hsame]
      exact ⟨fun _ => ⟨h, hsplit⟩, fun _ _ _ => hquiet (by simp [InputReader.reads, hcalled])⟩
    | false =>
      obtain ⟨hpieces, hwait, -⟩ := h.fresh hcalled
      have hnext : s.next toLowerCase .call =
          { s.onReadable toLowerCase with called := true, listening := true } := by
        unfold InputReader.next
        simp [hcalled]
      rw [hnext]
      refine step_read h hsplit (by simp [InputReader.reads, hcalled]) (fun hfound => ?_)
        ⟨rfl, rfl, rfl, rfl, rfl, rfl, rfl⟩ (fun _ _ => rfl) fun _ => .inr hpieces
      rw [hwait] at hfound
      cases hfound
  | readable =>
    cases hlisten : s.listening with
    | false =>
      have hsame : s.next toLowerCase .readable = s := by
        unfold InputReader.next
        simp [hlisten]
      rw [hsame]
      exact ⟨fun _ => ⟨h, hsplit⟩, fun _ _ _ => hquiet hlisten⟩
    | true =>
      have hcalled : s.called = true := by
        by_contra hfalse
        have hnot := (h.fresh (Bool.eq_false_iff.mpr hfalse)).2.2
        rw [hlisten] at hnot
        cases hnot
      have hnext : s.next toLowerCase .readable = s.onReadable toLowerCase := by
        unfold InputReader.next
        simp [hlisten]
      rw [hnext]
      refine step_read h hsplit hlisten (fun _ => hlisten)
        ⟨rfl, rfl, rfl, rfl, rfl, rfl, (onReadable_called s).trans hcalled⟩
        (fun hwait hafter => ?_) .inl
      exact (onReadable_listening s hwait hafter).trans hlisten
  | read =>
    cases hresolved : s.resolved with
    | none =>
      have hsame : s.next toLowerCase .read = s := by
        unfold InputReader.next
        rw [hresolved]
      rw [hsame]
      exact ⟨fun _ => ⟨h, hsplit⟩, fun _ _ _ => hquiet rfl⟩
    | some headers =>
      have hnext : s.next toLowerCase .read =
          { s with delivered := s.delivered ++ s.buffered, buffered := [] } := by
        unfold InputReader.next
        rw [hresolved]
      rw [hnext]
      refine ⟨fun _ => ⟨⟨h.fresh, fun hwait => ?_, h.left⟩, fun hwait => ?_, hsplit.headers,
        fun hfound => ?_⟩, fun _ _ _ => hquiet rfl⟩
      · exact absurd (hresolved.symm.trans hwait) (by simp)
      · exact absurd (hresolved.symm.trans hwait) (by simp)
      · show s.delivered ++ s.buffered ++ [] ++ s.pending = _
        rw [List.append_nil]
        exact hsplit.body hfound

end Step

/-! ### Runs -/

theorem good_new (block : HeaderBlock) (body : List UInt8) :
    Good block body (.new (block.bytes ++ body)) where
  fresh := fun _ => ⟨rfl, rfl, rfl⟩
  waiting := fun _ => ⟨rfl, rfl, rfl⟩
  left := nofun

theorem split_new (toLowerCase : List Char → List Char) (block : HeaderBlock) (body : List UInt8) :
    Split toLowerCase block body (.new (block.bytes ++ body)) where
  resolves := fun _ => ⟨List.length_pos_iff.mpr block.bytes_ne_nil, nofun⟩
  headers := nofun
  body := nofun

/-- In every run that leaves the input intact it is split into its headers and its body; if the
lines can be told apart it is split in no other run. -/
theorem input_split_iff (toLowerCase : List Char → List Char) (block : HeaderBlock)
    (body : List UInt8) (as : List InputAction) :
    (System.Meets (InputReader.next toLowerCase) (Intact block) (.new (block.bytes ++ body)) as →
        System.Always (InputReader.next toLowerCase) (Split toLowerCase block body)
          (.new (block.bytes ++ body)) as) ∧
      (KeepsReplacements toLowerCase → block.Distinct toLowerCase →
        (System.Always (InputReader.next toLowerCase) (Split toLowerCase block body)
            (.new (block.bytes ++ body)) as ↔
          System.Meets (InputReader.next toLowerCase) (Intact block)
            (.new (block.bytes ++ body)) as)) := by
  constructor
  · exact System.always_of_meets (I := Good block body)
      (fun s a hgood hsplit hintact => (hgood.step hsplit a).1 hintact) (good_new block body)
      (split_new toLowerCase block body) as
  · intro hlower hdistinct
    refine System.always_iff_meets (I := Good block body) (A := fun _ => True)
      (fun s a _ hgood hsplit => ?_) (fun s a _ hgood hsplit hintact => ?_) (good_new block body)
      (split_new toLowerCase block body) as fun _ _ => trivial
    · exact ⟨(hgood.step hsplit a).2 hlower hdistinct,
        fun hintact => ((hgood.step hsplit a).1 hintact).2⟩
    · exact ((hgood.step hsplit a).1 hintact).1

/-! ### One line -/

def languageBlock : HeaderBlock where
  lines := [⟨['A'], ['b']⟩]
  nonempty := by decide
  wellFormed := by
    intro line hline
    rw [List.mem_singleton.mp hline]
    exact ⟨rfl, rfl⟩

theorem toLower_eq_replacementChar (c : Char) :
    c.toLower = replacementChar ↔ c = replacementChar := by
  unfold Char.toLower
  split
  next h =>
    constructor
    · intro hc
      have hval := congrArg (fun c : Char => c.toNat) hc
      obtain ⟨hlow, hhigh⟩ := h
      simp only [ge_iff_le, UInt32.le_iff_toNat_le] at hlow hhigh
      have hsum : (c.val + ('a'.val - 'A'.val)).toNat = replacementChar.toNat := hval
      rw [UInt32.toNat_add] at hsum
      simp [replacementChar] at hsum hlow hhigh
      omega
    · rintro rfl
      revert h
      decide
  next => rfl

theorem keepsReplacements_toLower : KeepsReplacements (List.map Char.toLower) := by
  intro cs
  induction cs with
  | nil => rfl
  | cons c cs ih =>
    rw [List.map_cons, List.count_cons, List.count_cons, ih]
    simp only [beq_iff_eq, toLower_eq_replacementChar]

/-- A body byte that is no text is replaced, and a body that is there at the call is read twice. -/
theorem binaryBody_not_split :
    ¬ System.Always (InputReader.next (List.map Char.toLower))
        (Split (List.map Char.toLower) languageBlock [0xFF])
        (.new (languageBlock.bytes ++ [0xFF])) [.call, .arrive 9, .readable] ∧
      ¬ System.Always (InputReader.next (List.map Char.toLower))
        (Split (List.map Char.toLower) languageBlock [120])
        (.new (languageBlock.bytes ++ [120])) [.arrive 9, .call, .readable] := by
  constructor
  all_goals
    intro hall
    have hbody := hall.2.2.2.body rfl
    revert hbody
    decide

theorem input_split_pieces :
    System.Always (InputReader.next (List.map Char.toLower))
        (Split (List.map Char.toLower) languageBlock [120])
        (.new (languageBlock.bytes ++ [120])) [.arrive 5, .call, .arrive 4, .readable, .read] ∧
      ¬ System.Meets (InputReader.next (List.map Char.toLower)) (Intact languageBlock)
        (.new (languageBlock.bytes ++ [120])) [.arrive 9, .call, .readable] := by
  constructor
  · apply (input_split_iff _ _ _ _).1
    refine ⟨fun hreads => ?_, fun _ _ => ?_, fun hreads => ?_, fun _ _ _ => ?_, fun hreads => ?_,
      trivial⟩
    · cases hreads
    · -- the block is not complete
      exact fun hlong => absurd hlong (by decide)
    · cases hreads
    · refine ⟨fun p hp => ⟨['A', ':', ' ', 'b', '\r'], ?_⟩, ⟨['x'], by decide⟩, fun line hline => ?_⟩
      · rw [List.mem_singleton.mp hp]
        decide
      · rw [List.mem_singleton.mp hline]
        rfl
    · cases hreads
  · have hdistinct : languageBlock.Distinct (List.map Char.toLower) := List.nodup_singleton _
    rw [← (input_split_iff _ _ _ _).2 keepsReplacements_toLower hdistinct]
    intro hall
    have hbody := hall.2.2.2.body rfl
    revert hbody
    decide

end TransformHub.Runner.InputStream
