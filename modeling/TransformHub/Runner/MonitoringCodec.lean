import TransformHub.Js.Utf8Pieces
import TransformHub.Python.JsonText

/-!
# Monitoring frames of a Python runner

`encode_monitoring_frame` of `monitoring_codec.py` and the frame decoder of `control_codec.py`.
-/

namespace TransformHub.Runner.MonitoringCodec

open Js (encodeChars)
open Python

variable {F : Type} (fl : Floats F)

/-! ## The encoder -/

/-- `[code, payload]`. -/
def frameValue (code : Int) (payload : Value F) : Value F := .list [.int code, payload]

/-- `str(error)[:256]`. -/
def diagnosticMessage (message : Text) : Text := message.take 256

def diagnostic (message : Text) : Value F :=
  .dict [
    (.str (ofString "healthy"), .bool false),
    (.str (ofString "error"), .dict [
      (.str (ofString "code"), .str (ofString "ERR_MONITORING_SERIALIZATION")),
      (.str (ofString "message"), .str (diagnosticMessage message))])]

/-- The text of a frame: a value that cannot be serialized is replaced by a diagnostic. -/
def frameText (depth : ℕ) (code : Int) (payload : Value F) : Except Error Text :=
  match dumps fl depth (frameValue code payload) with
  | .error (.typeError message) => dumps fl depth (frameValue code (diagnostic message))
  | .error (.valueError message) => dumps fl depth (frameValue code (diagnostic message))
  | result => result

def encodeUtf8 (frame : Text) : Except Error (List UInt8) :=
  match CodePoint.chars? frame with
  | some cs => .ok (encodeChars cs)
  | none => .error .unicodeEncodeError

def encodeMonitoringFrame (depth : ℕ) (code : Int) (payload : Value F) :
    Except Error (List UInt8) := do
  let frame ← frameText fl depth code payload
  let bytes ← encodeUtf8 frame
  return bytes ++ [0x0D, 0x0A]

/-! ## The decoder -/

def decodeUtf8 (frame : List UInt8) : Except Error (List Char) :=
  match frame.toByteArray.utf8Decode? with
  | some cs => .ok cs.toList
  | none => .error .unicodeDecodeError

/-- `_decode_frame`: every error but that of the recursion is caught. -/
def decodeFrame (depth : ℕ) (frame : List UInt8) : Except Error (Option (Int × Value F)) :=
  match (decodeUtf8 frame).bind (loads fl depth) with
  | .ok (.list [.int code, data]) => .ok (some (code, data))
  | .ok _ => .ok none
  | .error .recursionError => .error .recursionError
  | .error _ => .ok none

/-- The bytes before the first `\r\n` and those after it. -/
def splitFrame : List UInt8 → Option (List UInt8 × List UInt8)
  | [] => none
  | b :: rest =>
    if b = 0x0D ∧ rest.head? = some 0x0A then some ([], rest.tail)
    else (splitFrame rest).map fun parts => (b :: parts.1, parts.2)

/-- What a generator gave: its values, the error that ended it, and the buffer it left. -/
structure Decoded (F : Type) where
  frames : List (Int × Value F)
  raised : Option Error
  buffer : List UInt8

/-- The loop of `decode_control_frames`; every pass takes a part of the buffer. -/
def decodeBuffer (depth : ℕ) : ℕ → List UInt8 → Decoded F
  | 0, buffer => ⟨[], none, buffer⟩
  | n + 1, buffer =>
    match splitFrame buffer with
    | none => ⟨[], none, buffer⟩
    | some (frame, buffer) =>
      match decodeFrame fl depth frame with
      | .error e => ⟨[], some e, buffer⟩
      | .ok decoded =>
        let rest := decodeBuffer depth n buffer
        { rest with frames := decoded.toList ++ rest.frames }

def decodeControlFrames (depth : ℕ) (buffer chunk : List UInt8) : Decoded F :=
  let buffer := buffer ++ chunk
  decodeBuffer fl depth (buffer.length + 1) buffer

end TransformHub.Runner.MonitoringCodec
