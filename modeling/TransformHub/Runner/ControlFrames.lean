import TransformHub.Lib.Cutter
import TransformHub.Runner.MonitoringFrames

/-!
# Control frames of a Python runner

`ControlFrameDecoder` over the chunks of a stream.
-/

namespace TransformHub.Runner.MonitoringCodec

open Js (encodeChars)
open Python

variable {F : Type} (fl : Floats F)

/-- What the calls on a decoder gave. -/
structure Received (F : Type) where
  frames : List (Int × Value F)
  raised : List Error
  buffer : List UInt8

/-- A call of `decode_control_frames` for each chunk, with the buffer that the one before left. -/
def decodeChunks (depth : ℕ) : List UInt8 → List (List UInt8) → Received F
  | buffer, [] => ⟨[], [], buffer⟩
  | buffer, chunk :: chunks =>
    let decoded := decodeControlFrames fl depth buffer chunk
    let rest := decodeChunks depth decoded.buffer chunks
    ⟨decoded.frames ++ rest.frames, decoded.raised.toList ++ rest.raised, rest.buffer⟩

def crlf : List UInt8 := [0x0D, 0x0A]

/-! ## Lines -/

theorem length_splitFrame {a line rest : List UInt8} (h : splitFrame a = some (line, rest)) :
    rest.length < a.length := by
  induction a generalizing line with
  | nil => cases h
  | cons b a ih =>
    rw [splitFrame] at h
    split at h
    · cases h
      rw [List.length_cons, List.length_tail]
      omega
    · obtain ⟨parts, hparts, heq⟩ := Option.map_eq_some_iff.mp h
      cases heq
      exact Nat.lt_succ_of_lt (ih hparts)

theorem splitFrame_stable {a line rest : List UInt8} (b : List UInt8)
    (h : splitFrame a = some (line, rest)) : splitFrame (a ++ b) = some (line, rest ++ b) := by
  induction a generalizing line with
  | nil => cases h
  | cons x a ih =>
    rw [splitFrame] at h
    rw [List.cons_append, splitFrame]
    cases a with
    | nil =>
      rw [if_neg fun hx => (by cases hx.2)] at h
      cases h
    | cons y a =>
      rw [List.cons_append, List.head?_cons] at *
      split at h
      · rename_i hx
        cases h
        rw [if_pos hx]
        rfl
      · rename_i hx
        obtain ⟨parts, hparts, heq⟩ := Option.map_eq_some_iff.mp h
        cases heq
        rw [if_neg hx, ih hparts]
        rfl

theorem splitFrame_alone {a line rest : List UInt8} (h : splitFrame a = some (line, rest)) :
    splitFrame (line ++ crlf) = some (line, []) := by
  induction a generalizing line with
  | nil => cases h
  | cons x a ih =>
    rw [splitFrame] at h
    split at h
    · cases h
      rfl
    · rename_i hx
      obtain ⟨⟨line', rest'⟩, hparts, heq⟩ := Option.map_eq_some_iff.mp h
      cases heq
      have hhead : (line' ++ crlf).head? = some 0x0A → a.head? = some 0x0A := by
        intro hhead
        cases a with
        | nil => cases hparts
        | cons y a =>
          rw [splitFrame] at hparts
          split at hparts
          · cases hparts
            cases hhead
          · obtain ⟨parts, -, heq⟩ := Option.map_eq_some_iff.mp hparts
            cases heq
            exact hhead
      rw [List.cons_append, splitFrame, if_neg fun hx' => hx ⟨hx'.1, hhead hx'.2⟩, ih hparts]
      rfl

def frameCutter : Cutter UInt8 := ⟨splitFrame, length_splitFrame, splitFrame_stable⟩

def completeLines (stream : List UInt8) : List (List UInt8) := (frameCutter.cut stream).1

/-- The frames of a stream are those of its complete lines, each decoded alone, in whatever chunks
the stream comes, and nothing is raised. -/
structure DecodesLines (depth : ℕ) (chunks : List (List UInt8)) : Prop where
  unsplit : decodeChunks fl depth [] chunks = decodeChunks fl depth [] [chunks.flatten]
  frames : (decodeChunks fl depth [] chunks).frames =
    (completeLines chunks.flatten).flatMap fun line =>
      (decodeControlFrames fl depth [] (line ++ crlf)).frames
  silent : (decodeChunks fl depth [] chunks).raised = []

/-- `json.loads` does not exceed the recursion limit in the line. -/
def Shallow (depth : ℕ) (line : List UInt8) : Prop :=
  ∀ text, decodeUtf8 line = .ok text → loads fl depth text ≠ .error .recursionError

/-! ## The loop -/

variable {fl} {depth : ℕ}

/-- `_decode_frame`, as what is yielded. -/
def lineFrames (fl : Floats F) (depth : ℕ) (line : List UInt8) :
    Except Error (List (Int × Value F)) :=
  (decodeFrame fl depth line).map Option.toList

theorem shallow_iff {line : List UInt8} :
    Shallow fl depth line ↔ ∃ frames, lineFrames fl depth line = .ok frames := by
  unfold Shallow lineFrames decodeFrame
  cases hline : decodeUtf8 line with
  | error e =>
    have he : e = .unicodeDecodeError := by
      unfold decodeUtf8 at hline
      split at hline
      · cases hline
      · exact (Except.error.inj hline).symm
    subst he
    exact ⟨fun _ => ⟨[], rfl⟩, nofun⟩
  | ok text =>
    show (∀ text', Except.ok text = .ok text' → _) ↔ _
    constructor
    · intro h
      have htext := h text rfl
      simp only [Except.bind]
      split
      · exact ⟨_, rfl⟩
      · exact ⟨_, rfl⟩
      · rename_i hloads
        exact absurd hloads htext
      · exact ⟨_, rfl⟩
    · rintro ⟨frames, hframes⟩ text' htext hloads
      cases htext
      simp only [Except.bind, hloads] at hframes
      cases hframes

theorem decodeBuffer_eq (n : ℕ) (buffer : List UInt8) :
    decodeBuffer fl depth n buffer =
      let drained := frameCutter.drain (lineFrames fl depth) n buffer
      ⟨drained.items, drained.raised, drained.buffer⟩ := by
  induction n generalizing buffer with
  | zero => rfl
  | succ n ih =>
    have hnext : frameCutter.next buffer = splitFrame buffer := rfl
    rw [decodeBuffer, Cutter.drain, hnext]
    cases splitFrame buffer with
    | none => rfl
    | some parts =>
      simp only [lineFrames]
      cases decodeFrame fl depth parts.1 with
      | error e => rfl
      | ok decoded =>
        rw [ih]
        rfl

theorem decodeControlFrames_spec (fl : Floats F) (depth : ℕ) (buffer chunk : List UInt8) :
    ((decodeControlFrames fl depth buffer chunk).frames,
        (decodeControlFrames fl depth buffer chunk).raised) =
      Cutter.handle (lineFrames fl depth) (frameCutter.cut (buffer ++ chunk)).1 ∧
    ((decodeControlFrames fl depth buffer chunk).raised = none →
      (decodeControlFrames fl depth buffer chunk).buffer =
        (frameCutter.cut (buffer ++ chunk)).2) := by
  unfold decodeControlFrames
  rw [decodeBuffer_eq]
  exact Cutter.drain_eq (Nat.lt_succ_self _)

section

variable {buffer : List UInt8} {chunks : List (List UInt8)}
  (hbuffer : frameCutter.next buffer = none)
include hbuffer

theorem decodeChunks_of_shallow
    (h : ∀ line ∈ completeLines (buffer ++ chunks.flatten), Shallow fl depth line) :
    decodeChunks fl depth buffer chunks =
      ⟨(Cutter.handle (lineFrames fl depth) (completeLines (buffer ++ chunks.flatten))).1, [],
        (frameCutter.cut (buffer ++ chunks.flatten)).2⟩ := by
  induction chunks generalizing buffer with
  | nil =>
    rw [List.flatten_nil, List.append_nil, completeLines, Cutter.cut_of_none hbuffer]
    rfl
  | cons chunk chunks ih =>
    obtain ⟨hhandle, hrest⟩ := decodeControlFrames_spec fl depth buffer chunk
    rw [completeLines, List.flatten_cons, ← List.append_assoc, Cutter.cut_append] at h ⊢
    rw [List.forall_mem_append] at h
    have hraised := Cutter.handle_raised_eq_none.mpr fun line hline =>
      shallow_iff.mp (h.1 line hline)
    have hnone : (decodeControlFrames fl depth buffer chunk).raised = none :=
      (congrArg Prod.snd hhandle).trans hraised
    have hframes : (decodeControlFrames fl depth buffer chunk).frames = _ :=
      congrArg Prod.fst hhandle
    rw [Cutter.handle_append, hraised]
    simp only [decodeChunks, hnone, hframes, hrest hnone, Option.toList_none, List.nil_append]
    rw [ih (Cutter.next_rest _) h.2]
    rfl

theorem shallow_of_silent (h : (decodeChunks fl depth buffer chunks).raised = []) :
    ∀ line ∈ completeLines (buffer ++ chunks.flatten), Shallow fl depth line := by
  induction chunks generalizing buffer with
  | nil =>
    rw [List.flatten_nil, List.append_nil, completeLines, Cutter.cut_of_none hbuffer]
    exact fun line hline => (List.not_mem_nil hline).elim
  | cons chunk chunks ih =>
    obtain ⟨hhandle, hrest⟩ := decodeControlFrames_spec fl depth buffer chunk
    obtain ⟨hfirst, hlater⟩ := List.append_eq_nil_iff.mp h
    have hnone : (decodeControlFrames fl depth buffer chunk).raised = none :=
      Option.toList_eq_nil_iff.mp hfirst
    rw [hrest hnone] at hlater
    rw [completeLines, List.flatten_cons, ← List.append_assoc, Cutter.cut_append,
      List.forall_mem_append]
    refine ⟨fun line hline => shallow_iff.mpr ?_, ih (Cutter.next_rest _) hlater⟩
    exact Cutter.handle_raised_eq_none.mp ((congrArg Prod.snd hhandle).symm.trans hnone)
      line hline

end

theorem splitFrame_of_mem {stream line : List UInt8} (h : line ∈ completeLines stream) :
    splitFrame (line ++ crlf) = some (line, []) := by
  unfold completeLines at h
  induction stream using Cutter.cut_induction (c := frameCutter) with
  | hnone a hnone =>
    rw [Cutter.cut_of_none hnone] at h
    cases h
  | hsome a part rest hsome ih =>
    rw [Cutter.cut_of_some hsome] at h
    rcases List.mem_cons.mp h with rfl | h
    · exact splitFrame_alone hsome
    · exact ih h

theorem lineFrames_of_shallow {line : List UInt8}
    (hline : splitFrame (line ++ crlf) = some (line, [])) (h : Shallow fl depth line) :
    lineFrames fl depth line = .ok (decodeControlFrames fl depth [] (line ++ crlf)).frames := by
  obtain ⟨frames, hframes⟩ := shallow_iff.mp h
  have hcut : frameCutter.cut ([] ++ (line ++ crlf)) = ([line], []) := by
    rw [List.nil_append, Cutter.cut_of_some hline, Cutter.cut_of_none rfl]
  have hspec := (decodeControlFrames_spec fl depth [] (line ++ crlf)).1
  rw [hcut, Cutter.handle, hframes] at hspec
  have hyielded : (decodeControlFrames fl depth [] (line ++ crlf)).frames = frames ++ [] :=
    congrArg Prod.fst hspec
  rw [hframes, hyielded, List.append_nil]

/-- The decoder is that of the single lines, in all chunks, exactly when `json.loads` does not
exceed the recursion limit in a complete line. -/
theorem decodesLines_iff_shallow (fl : Floats F) (depth : ℕ) (chunks : List (List UInt8)) :
    DecodesLines fl depth chunks ↔
      ∀ line ∈ completeLines chunks.flatten, Shallow fl depth line := by
  constructor
  · intro h
    exact shallow_of_silent rfl h.silent
  · intro h
    have hrun : decodeChunks fl depth [] chunks = _ := decodeChunks_of_shallow rfl h
    have hwhole : [chunks.flatten].flatten = chunks.flatten := by
      rw [List.flatten_cons, List.flatten_nil, List.append_nil]
    refine ⟨?_, ?_, by rw [hrun]⟩
    · have hone : decodeChunks fl depth [] [chunks.flatten] = _ :=
        decodeChunks_of_shallow rfl (by rwa [hwhole])
      rw [hrun, hone, hwhole]
    · have hlines := Cutter.handle_eq_flatMap fun line hline =>
        lineFrames_of_shallow (splitFrame_of_mem hline) (h line hline)
      rw [hrun, List.nil_append, hlines]

theorem scanOnce_brackets (depth : ℕ) :
    scanOnce fl depth (List.replicate (depth + 1) '[') = .error .recursionError := by
  induction depth with
  | zero => rfl
  | succ depth ih =>
    have hskip : skipWhitespace (List.replicate (depth + 1) '[') =
        List.replicate (depth + 1) '[' := rfl
    rw [List.replicate_succ, scanOnce, if_pos List.head?_cons, List.tail_cons, scanBody, hskip]
    simp only [List.replicate_succ (n := depth), List.head?_cons, List.length_cons, scanItems]
    rw [← List.replicate_succ, ih]
    rfl

theorem not_decodesLines_brackets (fl : Floats F) (depth : ℕ) :
    ¬ DecodesLines fl depth [encodeChars (List.replicate (depth + 1) '[') ++ crlf] := by
  intro h
  have hreturn : 0x0D ∉ encodeChars (List.replicate (depth + 1) '[') :=
    notMem_encodeChars (c := '\r') (by decide) rfl fun hmem =>
      absurd (List.eq_of_mem_replicate hmem) (by decide)
  have hline : encodeChars (List.replicate (depth + 1) '[') ∈
      completeLines [encodeChars (List.replicate (depth + 1) '[') ++ crlf].flatten := by
    rw [List.flatten_cons, List.flatten_nil, List.append_nil, completeLines,
      Cutter.cut_of_some (splitFrame_append hreturn [])]
    exact List.mem_cons_self
  have hloads : loads fl depth (List.replicate (depth + 1) '[') = .error .recursionError := by
    have hskip : skipWhitespace (List.replicate (depth + 1) '[') =
        List.replicate (depth + 1) '[' := rfl
    have hbom : (List.replicate (depth + 1) '[').head? ≠ some '\ufeff' := by
      rw [List.replicate_succ, List.head?_cons]
      decide
    rw [loads, if_neg hbom, hskip, scanOnce_brackets]
    rfl
  exact shallow_of_silent rfl h.silent _ hline _ (decodeUtf8_encodeChars _) hloads

/-- A line that raises, with the limit of Python. -/
theorem deepLine_not_decodesLines :
    ¬ DecodesLines noFloats 1000 [encodeChars (List.replicate 1001 '[') ++ crlf] :=
  not_decodesLines_brackets noFloats 1000

end TransformHub.Runner.MonitoringCodec
