import TransformHub.Python.JsonDepth
import TransformHub.Runner.MonitoringCodec

/-!
# When a monitoring frame can be written and read

A frame is written when its text has an encoding, and its code is read back when its value is not
too deep for the decoder.
-/

namespace TransformHub.Runner.MonitoringCodec

open Js (encodeChars)
open Python

variable {F : Type} {fl : Floats F}

/-- The encoder does not raise, and what it gives is one frame without another end of a line, which
the decoder decodes to a pair with the code. -/
def Meets (fl : Floats F) (depth depth' : ℕ) (code : Int) (payload : Value F) : Prop :=
  ∃ frame data, encodeMonitoringFrame fl depth code payload = .ok (frame ++ [0x0D, 0x0A]) ∧
    0x0A ∉ frame ∧ 0x0D ∉ frame ∧
      decodeControlFrames fl depth' [] (frame ++ [0x0D, 0x0A]) = ⟨[(code, data)], none, []⟩

/-- The code is written in at most 4300 digits. The payload is serializable, no deeper than both
recursions go, and its strings and keys have no lone surrogates; or the first of its values that
cannot be encoded is not one that is too deep, and the diagnostic can be encoded. -/
def Admissible (depth depth' : ℕ) (code : Int) (payload : Value F) : Prop :=
  (Nat.toDigits 10 code.natAbs).length ≤ maxStrDigits ∧ 0 < depth ∧ 0 < depth' ∧
    match fault (depth - 1) payload with
    | none => fault (depth' - 1) payload = none ∧ ∀ t ∈ payload.texts, Encodable t
    | some (.typeError message) | some (.valueError message) =>
      3 ≤ depth ∧ 3 ≤ depth' ∧ Encodable (diagnosticMessage message)
    | some _ => False

/-! ## Bytes -/

theorem notMem_encodeChars {cs : List Char} {c : Char} {b : UInt8} (hb : b.toNat < 0x80)
    (hcb : c.toNat = b.toNat) (hc : c ∉ cs) : b ∉ encodeChars cs := by
  intro hmem
  obtain ⟨d, hd, hbd⟩ := List.mem_flatMap.mp hmem
  have heq : d.toNat = c.toNat :=
    (Js.StringDecoder.toNat_of_mem_utf8EncodeChar hbd hb).trans hcb.symm
  exact hc (Char.toNat_inj.mp heq ▸ hd)

theorem decodeUtf8_encodeChars (cs : List Char) : decodeUtf8 (encodeChars cs) = .ok cs := by
  have hdecode : (encodeChars cs).toByteArray.utf8Decode? = some cs.toArray :=
    List.utf8Decode?_utf8Encode
  rw [decodeUtf8, hdecode]

theorem splitFrame_append {frame : List UInt8} (h : 0x0D ∉ frame) (rest : List UInt8) :
    splitFrame (frame ++ 0x0D :: 0x0A :: rest) = some (frame, rest) := by
  induction frame with
  | nil => rfl
  | cons b frame ih =>
    have hb : ¬ (b = 0x0D ∧ (frame ++ 0x0D :: 0x0A :: rest).head? = some 0x0A) := by
      rintro ⟨rfl, -⟩
      exact h List.mem_cons_self
    rw [List.cons_append, splitFrame, if_neg hb, ih fun hmem => h (List.mem_cons_of_mem _ hmem)]
    rfl

theorem decodeControlFrames_frame {depth : ℕ} {frame : List UInt8} (h : 0x0D ∉ frame) :
    decodeControlFrames fl depth [] (frame ++ [0x0D, 0x0A]) =
      match decodeFrame fl depth frame with
      | .error e => ⟨[], some e, []⟩
      | .ok decoded => ⟨decoded.toList, none, []⟩ := by
  unfold decodeControlFrames
  rw [List.nil_append, decodeBuffer, splitFrame_append h []]
  simp only
  cases decodeFrame fl depth frame with
  | error e => rfl
  | ok decoded =>
    have hrest : ∀ n, decodeBuffer fl depth n [] = ⟨[], none, []⟩ := by
      intro n
      cases n <;> rfl
    simp only [hrest, List.append_nil]

/-! ## A frame without a fault -/

variable {code : Int} {payload : Value F}

theorem fault_frameValue {depth : ℕ} :
    fault (depth + 1) (frameValue code payload) = (intFault code).or (fault depth payload) := by
  rw [frameValue, fault, faultElems, faultElems, faultElems, Option.or_none, fault]

theorem texts_frameValue (code : Int) (payload : Value F) :
    (frameValue code payload).texts = payload.texts := by
  rw [frameValue, Value.texts, textsOfElems, textsOfElems, textsOfElems, List.append_nil]
  rfl

theorem loads_frameValue {depth : ℕ} {cs : List Char}
    (h : fault depth (frameValue code payload) = none)
    (hcs : (frameValue code payload).text fl = ofChars cs) :
    ∃ data, loads fl depth cs = .ok (.list [.int code, data]) := by
  cases depth with
  | zero => cases h
  | succ depth =>
    rw [fault_frameValue, Option.or_eq_none_iff] at h
    obtain ⟨data, hdata⟩ : ∃ w, ReadsBy (scanOnce fl depth) (payload.text fl) w :=
      readsBy_text depth payload h.2
    have hread : ReadsBy (scanOnce fl (depth + 1)) ((frameValue code payload).text fl)
        (.list [.int code, data]) := by
      apply readsBy_list
      exact .cons (readsBy_int h.1) (.cons hdata .nil)
    have hscan := hread cs [] hcs delimited_nil
    have hskip := skipWhitespace_of_item (starts_scanOnce _) hscan
    rw [List.append_nil] at hscan hskip
    have hbom : cs.head? ≠ some '\ufeff' := by
      rw [frameValue, Value.text] at hcs
      obtain ⟨bs, hbs, hopen⟩ := append_chars_eq hcs
      obtain ⟨as, has, -⟩ := chars_append_eq hopen
      rw [hbs, has]
      simp
    refine ⟨data, ?_⟩
    unfold loads
    rw [if_neg hbom, hskip, hscan]
    rfl

theorem fault_of_loads {depth depth' : ℕ} {v x : Value F} {cs : List Char}
    (h : fault depth v = none) (hcs : v.text fl = ofChars cs) (hread : loads fl depth' cs = .ok x) :
    fault depth' v = none := by
  obtain ⟨w, hw⟩ : ∃ w, ReadsBy (scanOnce fl depth) (v.text fl) w := readsBy_text depth v h
  have hskip := skipWhitespace_of_readsBy (starts_scanOnce depth) hw hcs []
  rw [List.append_nil] at hskip
  unfold loads at hread
  split at hread
  · cases hread
  · rw [hskip] at hread
    cases hscan : scanOnce fl depth' cs with
    | error e =>
      rw [hscan] at hread
      cases hread
    | ok y =>
      rw [← List.append_nil cs] at hscan
      exact fault_of_scanOnce depth depth' v h cs [] y hcs delimited_nil hscan

/-- What is written of a value is one frame, and its code is read, exactly when the text can be
encoded and the value is not too deep for the decoder. -/
theorem written_iff {depth depth' : ℕ} (h : fault depth (frameValue code payload) = none) :
    (∃ frame data, (do return (← encodeUtf8 ((frameValue code payload).text fl)) ++ [0x0D, 0x0A]) =
        (.ok (frame ++ [0x0D, 0x0A]) : Except Error (List UInt8)) ∧
      0x0A ∉ frame ∧ 0x0D ∉ frame ∧
        decodeControlFrames fl depth' [] (frame ++ [0x0D, 0x0A]) = ⟨[(code, data)], none, []⟩) ↔
      fault depth' (frameValue code payload) = none ∧ ∀ t ∈ payload.texts, Encodable t := by
  have htexts : Encodable ((frameValue code payload).text fl) ↔
      ∀ t ∈ payload.texts, Encodable t := by
    rw [encodable_text, texts_frameValue]
  cases hchars : CodePoint.chars? ((frameValue code payload).text fl) with
  | none =>
    obtain ⟨p, hp, hsurrogate⟩ := CodePoint.chars?_eq_none_iff.mp hchars
    have hencode : encodeUtf8 ((frameValue code payload).text fl) =
        .error .unicodeEncodeError := by
      rw [encodeUtf8, hchars]
    rw [hencode, ← htexts]
    constructor
    · rintro ⟨frame, data, hwritten, -⟩
      cases hwritten
    · rintro ⟨-, hencodable⟩
      rw [hencodable p hp] at hsurrogate
      cases hsurrogate
  | some cs =>
    have hcs := CodePoint.eq_map_of_chars? hchars
    have hencodable : Encodable ((frameValue code payload).text fl) := by
      rw [hcs]
      exact encodable_ofChars cs
    have hline := singleLine_text fl (frameValue code payload)
    rw [hcs] at hline
    have hn : '\n' ∉ cs := fun hmem => hline.1 (List.mem_map_of_mem hmem)
    have hr : '\r' ∉ cs := fun hmem => hline.2 (List.mem_map_of_mem hmem)
    have hnewline : 0x0A ∉ encodeChars cs := notMem_encodeChars (by decide) rfl hn
    have hreturn : 0x0D ∉ encodeChars cs := notMem_encodeChars (by decide) rfl hr
    have hencode : encodeUtf8 ((frameValue code payload).text fl) = .ok (encodeChars cs) := by
      rw [encodeUtf8, hchars]
    rw [hencode]
    constructor
    · rintro ⟨frame, data, hwritten, -, -, hdecoded⟩
      obtain rfl : encodeChars cs = frame :=
        List.append_cancel_right (Except.ok.inj hwritten)
      refine ⟨?_, htexts.mp hencodable⟩
      rw [decodeControlFrames_frame hreturn, decodeFrame, decodeUtf8_encodeChars] at hdecoded
      cases hread : loads fl depth' cs with
      | ok x => exact fault_of_loads h hcs hread
      | error e =>
        simp only [Except.bind, hread] at hdecoded
        cases e <;> cases hdecoded
    · rintro ⟨hdepth, -⟩
      obtain ⟨data, hread⟩ := loads_frameValue hdepth hcs
      refine ⟨encodeChars cs, data, rfl, hnewline, hreturn, ?_⟩
      rw [decodeControlFrames_frame hreturn, decodeFrame, decodeUtf8_encodeChars]
      simp only [Except.bind, hread]
      rfl

/-! ## The diagnostic -/

theorem fault_diagnostic (depth : ℕ) (message : Text) :
    fault depth (diagnostic (F := F) message) = none ↔ 2 ≤ depth := by
  rcases depth with - | - | depth
  · exact ⟨nofun, fun h => (by omega)⟩
  · exact ⟨nofun, fun h => (by omega)⟩
  · exact ⟨fun _ => (by omega), fun _ => rfl⟩

theorem encodable_diagnostic (message : Text) :
    (∀ t ∈ (diagnostic (F := F) message).texts, Encodable t) ↔
      Encodable (diagnosticMessage message) := by
  have hstring : ∀ s, Encodable (ofString s) := fun s => encodable_ofChars _
  have htexts : (diagnostic (F := F) message).texts = [ofString "healthy", ofString "error",
      ofString "code", ofString "ERR_MONITORING_SERIALIZATION", ofString "message",
      diagnosticMessage message] := rfl
  rw [htexts]
  simp only [List.forall_mem_cons, hstring, true_and, List.not_mem_nil, false_imp_iff,
    implies_true, and_true]

theorem frameText_of_caught {depth : ℕ} {e : Error} {message : Text}
    (he : e = .typeError message ∨ e = .valueError message)
    (h : fault depth (frameValue code payload) = some e) :
    frameText fl depth code payload =
      orFault (fault depth (frameValue code (diagnostic (F := F) message)))
        ((frameValue code (diagnostic message)).text fl) := by
  rw [← dumps_eq]
  unfold frameText
  rw [dumps_eq, h]
  rcases he with rfl | rfl <;> rfl

theorem meets_iff_of_frameText {depth depth' : ℕ} {payload v : Value F}
    (htext : frameText fl depth code payload = orFault (fault depth (frameValue code v)) ((frameValue code v).text fl)) :
    Meets fl depth depth' code payload ↔
      fault depth (frameValue code v) = none ∧ fault depth' (frameValue code v) = none ∧
        ∀ t ∈ v.texts, Encodable t := by
  unfold Meets encodeMonitoringFrame
  rw [htext]
  cases h : fault depth (frameValue code v) with
  | some e =>
    constructor
    · rintro ⟨frame, data, hwritten, -⟩
      cases hwritten
    · rintro ⟨hnone, -⟩
      cases hnone
  | none =>
    rw [← written_iff h]
    exact ⟨fun hmeets => ⟨rfl, hmeets⟩, fun hmeets => hmeets.2⟩

theorem fault_frameValue_eq_none {depth : ℕ} {v : Value F} :
    fault depth (frameValue code v) = none ↔
      0 < depth ∧ intFault code = none ∧ fault (depth - 1) v = none := by
  cases depth with
  | zero => exact ⟨nofun, fun h => absurd h.1 (Nat.lt_irrefl 0)⟩
  | succ depth =>
    rw [fault_frameValue, Option.or_eq_none_iff]
    exact ⟨fun h => ⟨Nat.succ_pos _, h⟩, fun h => h.2⟩

theorem intFault_eq_none {i : Int} :
    intFault i = none ↔ (Nat.toDigits 10 i.natAbs).length ≤ maxStrDigits := by
  unfold intFault
  split
  · rename_i h
    exact ⟨nofun, fun h' => absurd h (Nat.not_lt.mpr h')⟩
  · rename_i h
    exact ⟨fun _ => Nat.not_lt.mp h, fun _ => rfl⟩

/-- The encoder and the decoder do what they should exactly for the admissible frames. -/
theorem meets_iff (fl : Floats F) (depth depth' : ℕ) (code : Int) (payload : Value F) :
    Meets fl depth depth' code payload ↔ Admissible depth depth' code payload := by
  cases depth with
  | zero =>
    -- the list of the frame itself is too deep
    constructor
    · rintro ⟨frame, data, hwritten, -⟩
      cases hwritten
    · rintro ⟨-, hdepth, -⟩
      exact absurd hdepth (Nat.lt_irrefl 0)
  | succ depth =>
    unfold Admissible
    rw [Nat.add_sub_cancel, ← intFault_eq_none]
    cases hcode : intFault code with
    | some e =>
      -- the code of the diagnostic is the same
      obtain ⟨message, he⟩ : ∃ message, e = .valueError message := by
        unfold intFault at hcode
        split at hcode
        · exact ⟨_, (Option.some.inj hcode).symm⟩
        · cases hcode
      have hfault : fault (depth + 1) (frameValue code payload) = some e := by
        rw [fault_frameValue, hcode]
        rfl
      rw [meets_iff_of_frameText (frameText_of_caught (.inr he) hfault),
        fault_frameValue_eq_none, hcode]
      constructor
      · rintro ⟨⟨-, hnone, -⟩, -⟩
        cases hnone
      · rintro ⟨hnone, -⟩
        cases hnone
    | none =>
      have hframe : fault (depth + 1) (frameValue code payload) = fault depth payload := by
        rw [fault_frameValue, hcode, Option.none_or]
      have hcaught : ∀ {e message}, e = .typeError message ∨ e = .valueError message →
          fault depth payload = some e →
          (Meets fl (depth + 1) depth' code payload ↔ 0 < depth' ∧ 3 ≤ depth + 1 ∧
            3 ≤ depth' ∧ Encodable (diagnosticMessage message)) := by
        intro e message he hpayload
        rw [hpayload] at hframe
        rw [meets_iff_of_frameText (frameText_of_caught he hframe), encodable_diagnostic,
          fault_frameValue_eq_none, fault_frameValue_eq_none, hcode, fault_diagnostic,
          fault_diagnostic]
        simp only [true_and]
        constructor
        · rintro ⟨⟨-, hd⟩, ⟨-, hd'⟩, hencodable⟩
          exact ⟨by omega, by omega, by omega, hencodable⟩
        · rintro ⟨-, hd, hd', hencodable⟩
          exact ⟨⟨by omega, by omega⟩, ⟨by omega, by omega⟩, hencodable⟩
      cases hpayload : fault depth payload with
      | none =>
        have htext : frameText fl (depth + 1) code payload =
            orFault (fault (depth + 1) (frameValue code payload))
              ((frameValue code payload).text fl) := by
          unfold frameText
          rw [dumps_eq, hframe, hpayload]
          rfl
        rw [meets_iff_of_frameText htext, hframe, hpayload, fault_frameValue_eq_none, hcode]
        simp only [true_and, Nat.succ_pos, and_assoc]
      | some e =>
        cases e with
        | typeError message =>
          rw [hcaught (.inl rfl) hpayload]
          simp only [true_and, Nat.succ_pos]
        | valueError message =>
          rw [hcaught (.inr rfl) hpayload]
          simp only [true_and, Nat.succ_pos]
        | jsonDecodeError | unicodeEncodeError | unicodeDecodeError | recursionError =>
          constructor
          · rintro ⟨frame, data, hwritten, -⟩
            unfold encodeMonitoringFrame frameText at hwritten
            rw [dumps_eq, hframe, hpayload] at hwritten
            cases hwritten
          · rintro ⟨-, -, -, hfalse⟩
            exact hfalse.elim

def noFloats : Floats Empty := ⟨Empty.elim, fun x => x.elim, fun x => x.elim, fun _ => none⟩

/-- The encoder raises on a lone surrogate. -/
theorem not_meets_surrogate :
    encodeMonitoringFrame noFloats 1000 3001 (.str [⟨0xD800, by decide⟩]) =
        .error .unicodeEncodeError ∧
      ¬ ∀ (code : Int) (payload : Value Empty), Meets noFloats 1000 1000 code payload := by
  have hraises : encodeMonitoringFrame noFloats 1000 3001 (.str [⟨0xD800, by decide⟩]) =
      .error .unicodeEncodeError := by
    rfl
  refine ⟨hraises, fun h => ?_⟩
  obtain ⟨frame, data, hwritten, -⟩ := h 3001 (.str [⟨0xD800, by decide⟩])
  rw [hraises] at hwritten
  cases hwritten

end TransformHub.Runner.MonitoringCodec
