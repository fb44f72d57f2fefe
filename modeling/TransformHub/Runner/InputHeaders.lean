import TransformHub.Js.TextSplit
import TransformHub.Lib.OrderedMap
import TransformHub.Lib.Transition

/-!
# Headers of the input stream

`readInputStreamHeaders` of `input-stream.ts`, which is the same in the runner and in the Node
runner: the header block of an input is read, and the rest of what was read is put back before the
body.
-/

namespace TransformHub.Runner.InputStream

open Js

/-! ## Header blocks -/

/-- A line `Name: value`. -/
structure HeaderLine where
  name : List Char
  value : List Char

namespace HeaderLine

def chars (line : HeaderLine) : List Char := line.name ++ ':' :: ' ' :: line.value

/-- The line is one line, and its name ends at the first `: `. -/
structure WellFormed (line : HeaderLine) : Prop where
  name : hasPair ':' ' ' line.name = false
  single : hasPair '\r' '\n' line.chars = false

end HeaderLine

structure HeaderBlock where
  lines : List HeaderLine
  nonempty : lines ≠ []
  wellFormed : ∀ line ∈ lines, line.WellFormed

namespace HeaderBlock

variable (block : HeaderBlock)

def rawHeaders : List Char := joinPair '\r' '\n' (block.lines.map HeaderLine.chars)

/-- The block with the CRLF CRLF that ends it. -/
def chars : List Char := block.rawHeaders ++ ['\r', '\n', '\r', '\n']

def bytes : List UInt8 := encodeChars block.chars

end HeaderBlock

/-- The values by name, in the order of the lines; a value may be `undefined`. -/
abbrev HeadersMap := OrderedMap (List Char) (Option (List Char))

section

variable (toLowerCase : List Char → List Char)

/-- The headers of a block: lower-cased names with their values. -/
def HeaderBlock.headers (block : HeaderBlock) : HeadersMap :=
  .ofEntries (block.lines.map fun line => (toLowerCase line.name, some line.value))

/-- `headerStr.split(": ")`, of which the first two parts are taken. -/
def parseHeader (headerStr : List Char) : List Char × Option (List Char) :=
  match splitPair ':' ' ' headerStr with
  | [] => (toLowerCase [], none)
  | [key] => (toLowerCase key, none)
  | key :: val :: _ => (toLowerCase key, some val)

/-- The headers that are read from the text before the end of the block. -/
def parseHeaders (rawHeaders : List Char) : HeadersMap :=
  .ofEntries ((splitPair '\r' '\n' rawHeaders).map (parseHeader toLowerCase))

end

/-! ## The stream and its reader -/

structure InputReader where
  /-- what has not arrived yet -/
  pending : List UInt8
  /-- what has arrived and has not been read -/
  buffered : List UInt8
  called : Bool
  /-- the text read so far -/
  buffer : List Char
  /-- `onReadable` is attached -/
  listening : Bool
  resolved : Option HeadersMap
  /-- what has been read from the stream after that -/
  delivered : List UInt8
  /-- the pieces that the loop has read; not in the code -/
  pieces : List (List UInt8)

inductive InputAction where
  /-- the next `n` bytes arrive -/
  | arrive (n : ℕ)
  /-- `readInputStreamHeaders` is called -/
  | call
  /-- the stream emits `readable` -/
  | readable
  /-- what the stream holds is read, once the promise is resolved -/
  | read

namespace InputReader

def new (bytes : List UInt8) : InputReader where
  pending := bytes
  buffered := []
  called := false
  buffer := []
  listening := false
  resolved := none
  delivered := []
  pieces := []

variable (toLowerCase : List Char → List Char) (s : InputReader)

def onReadable : InputReader :=
  match s.buffered with
  | [] => s
  | chunk =>
    let buffer := s.buffer ++ decodeChars chunk
    let s : InputReader :=
      { s with buffered := [], buffer := buffer, pieces := s.pieces ++ [chunk] }
    match breakTwice '\r' '\n' buffer with
    | none => s
    | some (rawHeaders, bodyBeginning) =>
      { s with
        listening := false
        buffered := encodeChars bodyBeginning
        -- a promise is resolved once
        resolved := s.resolved.or (some (parseHeaders toLowerCase rawHeaders)) }

def next : InputAction → InputReader
  | .arrive n => { s with buffered := s.buffered ++ s.pending.take n, pending := s.pending.drop n }
  | .call =>
    -- the listener is attached after the first read
    if s.called then s else { s.onReadable toLowerCase with called := true, listening := true }
  | .readable => if s.listening then s.onReadable toLowerCase else s
  | .read =>
    match s.resolved with
    | none => s
    | some _ => { s with delivered := s.delivered ++ s.buffered, buffered := [] }

end InputReader

/-! ## Garbled blocks -/

/-- The line with characters of its name and its value garbled. -/
structure HeaderLine.Garbles (line line' : HeaderLine) : Prop where
  name : Garbled line.name line'.name
  value : Garbled line.value line'.value

theorem HeaderLine.Garbles.chars {line line' : HeaderLine} (h : line.Garbles line') :
    Garbled line.chars line'.chars :=
  h.name.append (.keep ':' (.keep ' ' h.value))

theorem HeaderLine.Garbles.wellFormed {line line' : HeaderLine} (h : line.Garbles line')
    (hline : line.WellFormed) : line'.WellFormed :=
  ⟨h.name.hasPair (by decide) (by decide) hline.name,
    h.chars.hasPair (by decide) (by decide) hline.single⟩

theorem HeaderLine.chars_ne_nil (line : HeaderLine) : line.chars ≠ [] :=
  List.append_ne_nil_of_right_ne_nil _ (List.cons_ne_nil _ _)

theorem garbled_line {line : HeaderLine} {g : List Char} (h : Garbled line.chars g) :
    ∃ line', g = HeaderLine.chars line' ∧ line.Garbles line' := by
  obtain ⟨name, rest, rfl, hname, hrest⟩ := h.append_inv
  have hrest : Garbled ([':', ' '] ++ line.value) rest := hrest
  obtain ⟨colon, value, rfl, hcolon, hvalue⟩ := hrest.append_inv
  have hcolon := hcolon.ascii (by simp)
  subst hcolon
  exact ⟨⟨name, value⟩, rfl, hname, hvalue⟩

theorem garbled_lines {lines : List HeaderLine} {g : List Char}
    (h : Garbled (joinPair '\r' '\n' (lines.map HeaderLine.chars)) g) :
    ∃ lines', g = joinPair '\r' '\n' (lines'.map HeaderLine.chars) ∧
      List.Forall₂ HeaderLine.Garbles lines lines' := by
  induction lines generalizing g with
  | nil =>
    cases h
    exact ⟨[], rfl, .nil⟩
  | cons line lines ih =>
    cases lines with
    | nil =>
      have h : Garbled line.chars g := h
      obtain ⟨line', rfl, hline⟩ := garbled_line h
      exact ⟨[line'], rfl, .cons hline .nil⟩
    | cons next lines =>
      obtain ⟨first, rest, rfl, hfirst, hrest⟩ := Garbled.append_inv (t := line.chars) h
      have hrest : Garbled (['\r', '\n'] ++
          joinPair '\r' '\n' ((next :: lines).map HeaderLine.chars)) rest := hrest
      obtain ⟨crlf, tail, rfl, hcrlf, htail⟩ := hrest.append_inv
      have hcrlf := hcrlf.ascii (by simp)
      subst hcrlf
      obtain ⟨line', rfl, hline⟩ := garbled_line hfirst
      obtain ⟨lines', rfl, hlines⟩ := ih htail
      refine ⟨line' :: lines', ?_, .cons hline hlines⟩
      cases hlines with
      | cons _ _ => rfl

theorem garbled_block {block : HeaderBlock} {g : List Char} (h : Garbled block.chars g) :
    ∃ block' : HeaderBlock, g = block'.chars ∧
      List.Forall₂ HeaderLine.Garbles block.lines block'.lines := by
  obtain ⟨raw, ending, rfl, hraw, hending⟩ := h.append_inv
  have hending := hending.ascii (by simp)
  subst hending
  obtain ⟨lines', rfl, hlines⟩ := garbled_lines hraw
  refine ⟨⟨lines', ?_, ?_⟩, rfl, hlines⟩
  · rintro rfl
    exact block.nonempty (List.forall₂_nil_right_iff.mp hlines)
  · intro line' hline'
    obtain ⟨i, hi, rfl⟩ := List.getElem_of_mem hline'
    have hlength := hlines.length_eq
    have hgarbles := List.Forall₂.get hlines (i := i) (hlength ▸ hi) hi
    exact hgarbles.wellFormed (block.wellFormed _ (List.get_mem _ _))

/-! ## Reading a block -/

theorem breakTwice_block (block : HeaderBlock) (rest : List Char) :
    breakTwice '\r' '\n' (block.chars ++ rest) = some (block.rawHeaders, rest) := by
  have hparts : ∀ part ∈ block.lines.map HeaderLine.chars,
      hasPair '\r' '\n' part = false ∧ part ≠ [] := by
    intro part hpart
    obtain ⟨line, hline, rfl⟩ := List.mem_map.mp hpart
    exact ⟨(block.wellFormed line hline).single, line.chars_ne_nil⟩
  have hne : block.lines.map HeaderLine.chars ≠ [] := by simpa using block.nonempty
  unfold HeaderBlock.chars
  rw [List.append_assoc]
  exact breakTwice_joinPair (by decide) hne hparts rest

/-- What is taken for the value of a line: the value up to a `: ` in it. -/
def firstPart (value : List Char) : List Char := (splitPair ':' ' ' value).headD []

theorem firstPart_of_free {value : List Char} (h : hasPair ':' ' ' value = false) :
    firstPart value = value := by
  rw [firstPart, splitPair_of_free h]
  rfl

theorem hasPair_firstPart (value : List Char) : hasPair ':' ' ' (firstPart value) = false := by
  unfold firstPart
  cases hparts : splitPair ':' ' ' value with
  | nil => rfl
  | cons part parts => exact hasPair_of_splitPair hparts

section

variable (toLowerCase : List Char → List Char)

theorem parseHeader_line {line : HeaderLine} (h : line.WellFormed) :
    parseHeader toLowerCase line.chars = (toLowerCase line.name, some (firstPart line.value)) := by
  unfold parseHeader HeaderLine.chars firstPart
  rw [splitPair_append (by decide) h.name]
  cases hparts : splitPair ':' ' ' line.value with
  | nil => exact absurd hparts (splitPair_ne_nil _)
  | cons part parts => rfl

def HeaderBlock.pairs (block : HeaderBlock) : List (List Char × Option (List Char)) :=
  block.lines.map fun line => (toLowerCase line.name, some (firstPart line.value))

theorem parseHeaders_block (block : HeaderBlock) :
    parseHeaders toLowerCase block.rawHeaders = .ofEntries (block.pairs toLowerCase) := by
  have hparts : ∀ part ∈ block.lines.map HeaderLine.chars, hasPair '\r' '\n' part = false := by
    intro part hpart
    obtain ⟨line, hline, rfl⟩ := List.mem_map.mp hpart
    exact (block.wellFormed line hline).single
  have hne : block.lines.map HeaderLine.chars ≠ [] := by simpa using block.nonempty
  unfold parseHeaders HeaderBlock.rawHeaders HeaderBlock.pairs
  rw [splitPair_joinPair (by decide) hne hparts, List.map_map]
  congr 1
  exact List.map_congr_left fun line hline =>
    parseHeader_line toLowerCase (block.wellFormed line hline)

end

end TransformHub.Runner.InputStream
