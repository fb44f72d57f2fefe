import TransformHub.Lib.Cutter
import TransformHub.Lib.Lines
import TransformHub.Runner.MonitoringCodec

/-!
# The input stream of a Python runner

`make_input_stream` of `input_stream.py`, over a reader that gives the stream in chunks: what the
generator yields, and the error that ends it.
-/

namespace TransformHub.Runner.InputStream

open Python
open MonitoringCodec (decodeUtf8)

/-- What `reader.read` gives before the end of the stream. -/
structure Chunk where
  bytes : List UInt8
  nonempty : bytes ≠ []

def streamOf (chunks : List Chunk) : List UInt8 := chunks.flatMap Chunk.bytes

def unsplit (stream : List UInt8) : List Chunk :=
  if h : stream = [] then [] else [⟨stream, h⟩]

/-- An item of a stream: a value, or `bytes`. -/
inductive Item (F : Type) where
  | value (v : Value F)
  | bytes (b : List UInt8)

/-- The errors: `malformedLine` is the `ValueError` of a line that is no JSON. -/
inductive InputError where
  | raised (e : Error)
  | malformedLine
  | unsupportedContentType

/-- The items, and the error after them. -/
abbrev Yielded (F : Type) := List (Item F) × Option InputError

/-- The whitespace of `str`. -/
def isSpace (c : Char) : Bool :=
  let n := c.toNat
  (0x09 ≤ n && n ≤ 0x0D) || (0x1C ≤ n && n ≤ 0x20) || n = 0x85 || n = 0xA0 || n = 0x1680 ||
    (0x2000 ≤ n && n ≤ 0x200A) || n = 0x2028 || n = 0x2029 || n = 0x202F || n = 0x205F || n = 0x3000

def strip (cs : List Char) : List Char :=
  ((cs.dropWhile isSpace).reverse.dropWhile isSpace).reverse

def isNdjsonContentType (contentType : String) : Bool :=
  "x-ndjson".toList.isSuffixOf (contentType.toList.map Char.toLower)

variable {F : Type} (fl : Floats F)

/-! ## Lines -/

/-- `line_bytes.decode("utf-8")`. -/
def decodeTextLine (line : List UInt8) : Except InputError (List (Item F)) :=
  match decodeUtf8 line with
  | .error e => .error (.raised e)
  | .ok cs => .ok [.value (.str (ofChars cs))]

/-- A line of NDJSON; a blank one is skipped. -/
def decodeNdjsonLine (depth : ℕ) (line : List UInt8) : Except InputError (List (Item F)) :=
  match decodeUtf8 line with
  | .error e => .error (.raised e)
  | .ok cs =>
    let line := strip cs
    if line = [] then .ok []
    else
      match loads fl depth line with
      | .ok v => .ok [.value v]
      | .error .jsonDecodeError => .error .malformedLine
      | .error e => .error (.raised e)

theorem length_nextLine {a line rest : List UInt8}
    (h : Lines.nextLine 0x0A a = some (line, rest)) : rest.length < a.length := by
  rw [(Lines.nextLine_eq_some h).1, List.length_append, List.length_cons]
  omega

theorem nextLine_stable {a line rest : List UInt8} (b : List UInt8)
    (h : Lines.nextLine 0x0A a = some (line, rest)) :
    Lines.nextLine 0x0A (a ++ b) = some (line, rest ++ b) := by
  induction a generalizing line with
  | nil => cases h
  | cons x a ih =>
    rw [Lines.nextLine] at h
    rw [List.cons_append, Lines.nextLine]
    split at h
    · rename_i hx
      cases h
      rw [if_pos hx]
    · rename_i hx
      obtain ⟨parts, hparts, heq⟩ := Option.map_eq_some_iff.mp h
      cases heq
      rw [if_neg hx, ih hparts]
      rfl

/-- `buffer.find(b"\n")`, with what is before it and what is after. -/
def lineCutter : Cutter UInt8 := ⟨Lines.nextLine 0x0A, length_nextLine, nextLine_stable⟩

/-- `_iter_text_lines` and `_iter_ndjson_lines`: the lines that are complete with a chunk are
decoded, and what is left is decoded when the stream ends. -/
def iterLines (decode : List UInt8 → Except InputError (List (Item F))) :
    List UInt8 → List Chunk → Yielded F
  | buffer, [] =>
    if buffer = [] then ([], none)
    else
      match decode buffer with
      | .error e => ([], some e)
      | .ok items => (items, none)
  | buffer, chunk :: chunks =>
    let buffer := buffer ++ chunk.bytes
    let drained := lineCutter.drain decode (buffer.length + 1) buffer
    match drained.raised with
    | some e => (drained.items, some e)
    | none =>
      let rest := iterLines decode drained.buffer chunks
      (drained.items ++ rest.1, rest.2)

def iterTextLines (chunks : List Chunk) : Yielded F := iterLines decodeTextLine [] chunks

def iterNdjsonLines (depth : ℕ) (chunks : List Chunk) : Yielded F :=
  iterLines (decodeNdjsonLine fl depth) [] chunks

def iterRaw (chunks : List Chunk) : Yielded F := (chunks.map fun chunk => .bytes chunk.bytes, none)

/-- `_iter_json`: the whole stream is one value. -/
def iterJson (depth : ℕ) (chunks : List Chunk) : Yielded F :=
  if streamOf chunks = [] then ([], none)
  else
    match (decodeUtf8 (streamOf chunks)).bind (loads fl depth) with
    | .error e => ([], some (.raised e))
    | .ok v => ([.value v], none)

def makeInputStream (depth : ℕ) (contentType : String) (chunks : List Chunk) : Yielded F :=
  if contentType = "application/octet-stream" then iterRaw chunks
  else if contentType = "text/plain" then iterTextLines chunks
  else if contentType = "application/json" then iterJson fl depth chunks
  else if isNdjsonContentType contentType then iterNdjsonLines fl depth chunks
  else ([], some .unsupportedContentType)

/-! ## The lines of a stream -/

/-- The lines of a stream, and what follows the last newline, if it is not empty. -/
def pieces (stream : List UInt8) : List (List UInt8) :=
  (Lines.lines 0x0A stream).1 ++
    if (Lines.lines 0x0A stream).2 = [] then [] else [(Lines.lines 0x0A stream).2]

def lineDecoder (depth : ℕ) (contentType : String) (line : List UInt8) :
    Except InputError (List (Item F)) :=
  if contentType = "text/plain" then decodeTextLine line else decodeNdjsonLine fl depth line

/-- The stream yields what its pieces are decoded to, one by one up to the first error, and the
same as in one chunk. -/
def YieldsPieces (depth : ℕ) (contentType : String) (chunks : List Chunk) : Prop :=
  makeInputStream fl depth contentType chunks =
      Cutter.handle (lineDecoder fl depth contentType) (pieces (streamOf chunks)) ∧
    makeInputStream fl depth contentType chunks =
      makeInputStream fl depth contentType (unsplit (streamOf chunks))

theorem cut_lineCutter (a : List UInt8) : lineCutter.cut a = Lines.lines 0x0A a := by
  induction a using Cutter.cut_induction (c := lineCutter) with
  | hnone a h => rw [Cutter.cut_of_none h, Lines.lines_of_notMem (Lines.nextLine_eq_none.mp h)]
  | hsome a line rest h ih =>
    obtain ⟨rfl, hline⟩ := Lines.nextLine_eq_some h
    rw [Cutter.cut_of_some h, ih, Lines.lines_line hline]

theorem iterLines_eq {decode : List UInt8 → Except InputError (List (Item F))}
    {buffer : List UInt8} (hbuffer : lineCutter.next buffer = none) (chunks : List Chunk) :
    iterLines decode buffer chunks = Cutter.handle decode (pieces (buffer ++ streamOf chunks)) := by
  induction chunks generalizing buffer with
  | nil =>
    rw [streamOf, List.flatMap_nil, List.append_nil, pieces,
      Lines.lines_of_notMem (Lines.nextLine_eq_none.mp hbuffer), iterLines]
    by_cases hempty : buffer = []
    · rw [if_pos hempty, if_pos hempty]
      rfl
    · rw [if_neg hempty, if_neg hempty]
      show _ = Cutter.handle decode [buffer]
      rw [Cutter.handle]
      cases decode buffer with
      | error e => rfl
      | ok items => simp only [Cutter.handle, List.append_nil]
  | cons chunk chunks ih =>
    obtain ⟨hdrain, hrest⟩ := lineCutter.drain_eq (f := decode)
      (Nat.lt_succ_self (buffer ++ chunk.bytes).length)
    have hpieces : pieces (buffer ++ streamOf (chunk :: chunks)) =
        (lineCutter.cut (buffer ++ chunk.bytes)).1 ++
          pieces ((lineCutter.cut (buffer ++ chunk.bytes)).2 ++ streamOf chunks) := by
      unfold pieces
      rw [streamOf, List.flatMap_cons, ← List.append_assoc]
      simp only [← cut_lineCutter]
      rw [Cutter.cut_append, List.append_assoc]
      rfl
    rw [hpieces, Cutter.handle_append, ← hdrain, iterLines]
    simp only
    cases hraised : (lineCutter.drain decode ((buffer ++ chunk.bytes).length + 1)
        (buffer ++ chunk.bytes)).raised with
    | some e => rfl
    | none => rw [hrest hraised, ih (Cutter.next_rest _)]

theorem streamOf_unsplit (stream : List UInt8) : streamOf (unsplit stream) = stream := by
  unfold unsplit
  split
  · rename_i h
    exact h.symm
  · exact List.flatMap_singleton ..

section

variable {contentType : String}
  (h : contentType = "text/plain" ∨ isNdjsonContentType contentType = true) (depth : ℕ)
  (chunks : List Chunk)
include h depth chunks

theorem makeInputStream_eq :
    makeInputStream fl depth contentType chunks =
      Cutter.handle (lineDecoder fl depth contentType) (pieces (streamOf chunks)) := by
  have hlines : ∀ decode, iterLines (F := F) decode [] chunks =
      Cutter.handle decode (pieces (streamOf chunks)) :=
    fun decode => iterLines_eq rfl chunks
  unfold makeInputStream
  by_cases htext : contentType = "text/plain"
  · subst htext
    rw [if_neg (by decide), if_pos rfl, iterTextLines, hlines]
    rfl
  · have hndjson := h.resolve_left htext
    have hraw : contentType ≠ "application/octet-stream" := by
      rintro rfl
      revert hndjson
      decide
    have hjson : contentType ≠ "application/json" := by
      rintro rfl
      revert hndjson
      decide
    have hdecoder : lineDecoder fl depth contentType = decodeNdjsonLine fl depth := by
      funext line
      rw [lineDecoder, if_neg htext]
    rw [if_neg hraw, if_neg htext, if_neg hjson, if_pos hndjson, iterNdjsonLines, hlines, hdecoder]

theorem yieldsPieces : YieldsPieces fl depth contentType chunks := by
  have heq := makeInputStream_eq fl h depth
  refine ⟨heq chunks, ?_⟩
  rw [heq, heq, streamOf_unsplit]

end

end TransformHub.Runner.InputStream
