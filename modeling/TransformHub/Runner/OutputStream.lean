import TransformHub.Python.JsonLoaded
import TransformHub.Runner.InputStream
import TransformHub.Runner.MonitoringFrames

/-!
# The output stream of a Python runner

`forward_output_stream` of `output_stream.py`, and what the input stream reads of it. The floats of
an item are finite: `allow_nan` is not modelled.
-/

namespace TransformHub.Runner.OutputStream

open Js (encodeChars)
open Python
open MonitoringCodec (encodeUtf8)
open InputStream (Chunk Item isNdjsonContentType makeInputStream streamOf)

variable {F : Type} (fl : Floats F)

inductive OutputItem (F : Type) where
  | value (v : Value F) (finite : ¬ NonFinite v)
  | bytes (b : List UInt8)

namespace OutputItem

/-- The item as the encoder sees it. -/
def toValue : OutputItem F → Value F
  | value v _ => v
  | bytes _ => .other (ofString "bytes")

/-- `type(item).__name__`. -/
def typeName (item : OutputItem F) : Text :=
  match item.toValue with
  | .none => ofString "NoneType"
  | .bool _ => ofString "bool"
  | .int _ => ofString "int"
  | .float _ | .nonFinite => ofString "float"
  | .str _ => ofString "str"
  | .list _ | .circular => ofString "list"
  | .dict _ => ofString "dict"
  | .other className => className

end OutputItem

def PANG : Int := 3012

/-- The payload of the frame that is written before the first item. -/
def pangPayload (provides requires : Text) (contentType : String) : Value F :=
  .dict [(.str (ofString "provides"), .str provides), (.str (ofString "requires"), .str requires),
    (.str (ofString "contentType"), .str (ofString contentType))]

def encodeItem (depth : ℕ) (contentType : String) (item : OutputItem F) :
    Except Error (List UInt8) :=
  if contentType = "text/plain" then
    match item.toValue with
    | .str t => do return (← encodeUtf8 t) ++ [0x0A]
    | _ => .error (.typeError (ofString "Expected str for text/plain, got " ++ item.typeName))
  else if isNdjsonContentType contentType then do
    let line ← dumps fl depth item.toValue
    return (← encodeUtf8 line) ++ [0x0A]
  else
    match item with
    | .bytes b => .ok b
    | .value (.str t) _ => encodeUtf8 t
    | .value v _ => do encodeUtf8 (← dumps fl depth v)

/-- `forward_output_stream`: the bytes that are written, and the error that ends it. -/
def forwardOutputStream (depth : ℕ) (items : List (OutputItem F))
    (writeFrame : Int → Value F → Except Error Unit) (provides requires : Text)
    (contentType : String) : List UInt8 × Option Error :=
  match writeFrame PANG (pangPayload provides requires contentType) with
  | .error e => ([], some e)
  | .ok _ => Cutter.handle (encodeItem fl depth contentType) items

/-- A value of finite numbers that `json.loads` returns. -/
structure LoadedItem (F : Type) (fl : Floats F) where
  value : Value F
  finite : ¬ NonFinite value
  loaded : ∃ depth text, loads fl depth text = .ok value

variable {fl}

def LoadedItem.toOutput (item : LoadedItem F fl) : OutputItem F := .value item.value item.finite

/-- Nothing is raised, and what is written is read back as the same items, in all chunks. -/
def ReadBack (depth depth' : ℕ) (items : List (LoadedItem F fl))
    (writeFrame : Int → Value F → Except Error Unit) (provides requires : Text)
    (contentType : String) : Prop :=
  ∃ written, forwardOutputStream fl depth (items.map LoadedItem.toOutput) writeFrame provides
      requires contentType = (written, none) ∧
    ∀ chunks, streamOf chunks = written →
      makeInputStream fl depth' contentType chunks =
        (items.map fun item => .value item.value, none)

/-- The value is nested no deeper than the recursions go, and its strings and keys have no lone
surrogates. -/
structure Writable (depth depth' : ℕ) (v : Value F) : Prop where
  height : v.height ≤ depth ∧ v.height ≤ depth'
  encodable : ∀ t ∈ v.texts, Encodable t

/-! ## Texts that `strip` leaves -/

/-- A character of ASCII that is seen. -/
def isGraphic (c : Char) : Bool := 0x21 ≤ c.toNat && c.toNat ≤ 0x7E

/-- A text that begins and ends with such characters. -/
def Solid (cs : List Char) : Prop :=
  (∃ c, cs.head? = some c ∧ isGraphic c = true) ∧ ∃ c, cs.getLast? = some c ∧ isGraphic c = true

theorem isSpace_of_isGraphic {c : Char} (h : isGraphic c = true) :
    InputStream.isSpace c = false := by
  simp only [isGraphic, Bool.and_eq_true, decide_eq_true_eq] at h
  simp only [InputStream.isSpace, Bool.or_eq_false_iff, Bool.and_eq_false_iff,
    decide_eq_false_iff_not]
  omega

variable {cs : List Char}

theorem dropWhile_of_head? (h : ∃ c, cs.head? = some c ∧ isGraphic c = true) :
    cs.dropWhile InputStream.isSpace = cs := by
  obtain ⟨c, hhead, hc⟩ := h
  cases cs with
  | nil => cases hhead
  | cons d cs =>
    cases hhead
    rw [List.dropWhile_cons, isSpace_of_isGraphic hc]
    rfl

theorem strip_of_solid (h : Solid cs) : InputStream.strip cs = cs := by
  rw [InputStream.strip, dropWhile_of_head? h.1, dropWhile_of_head?, List.reverse_reverse]
  rw [List.head?_reverse]
  exact h.2

theorem solid_of_all (hne : cs ≠ []) (h : ∀ c ∈ cs, isGraphic c = true) : Solid cs :=
  ⟨⟨cs.head hne, List.head?_eq_some_head hne, h _ (List.head_mem hne)⟩,
    ⟨cs.getLast hne, List.getLast?_eq_some_getLast hne, h _ (List.getLast_mem hne)⟩⟩

theorem solid_number {t : NumberText} (ht : t.Valid) : Solid t.chars := by
  apply solid_of_all
  · unfold NumberText.chars
    intro h
    simp only [List.append_eq_nil_iff] at h
    exact ht.whole.1 h.1.1.2
  · intro c hc
    by_contra hgraphic
    have hdigit : c.isDigit = false := by
      by_contra hdigit
      rw [Bool.not_eq_false, Char.isDigit, Bool.and_eq_true, decide_eq_true_eq,
        decide_eq_true_eq] at hdigit
      have hlow : 48 ≤ c.toNat := hdigit.1
      have hhigh : c.toNat ≤ 57 := hdigit.2
      apply hgraphic
      simp only [isGraphic, Bool.and_eq_true, decide_eq_true_eq]
      omega
    refine notMem_chars ht hdigit ⟨?_, ?_, ?_, ?_⟩ hc <;> rintro rfl <;> exact hgraphic rfl

theorem solid_between {c d : Char} (ds : List Char) (hc : isGraphic c = true)
    (hd : isGraphic d = true) (hcs : cs = c :: (ds ++ [d])) : Solid cs := by
  subst hcs
  refine ⟨⟨c, rfl, hc⟩, ⟨d, ?_, hd⟩⟩
  rw [← List.cons_append, List.getLast?_append_of_ne_nil _ (List.cons_ne_nil d [])]
  rfl

theorem solid_brackets {t : Text} {c d : Char} (hc : isGraphic c = true) (hd : isGraphic d = true)
    (hcs : ofChars [c] ++ t ++ ofChars [d] = ofChars cs) : Solid cs := by
  obtain ⟨as, rfl, has⟩ := append_chars_eq hcs
  obtain ⟨bs, rfl, -⟩ := chars_append_eq has
  exact solid_between bs hc hd rfl

theorem solid_text {depth : ℕ} {v : Value F} (h : Loaded depth v) (hcs : v.text fl = ofChars cs) :
    Solid cs := by
  cases h with
  | none =>
    rw [← ofChars_injective hcs]
    exact solid_between (c := 'n') ['u', 'l'] rfl rfl rfl
  | bool b =>
    rw [← ofChars_injective hcs]
    cases b
    · exact solid_between (c := 'f') ['a', 'l', 's'] rfl rfl rfl
    · exact solid_between (c := 't') ['r', 'u'] rfl rfl rfl
  | int _ =>
    rw [← ofChars_injective hcs, ← chars_intText]
    exact solid_number (valid_intText _)
  | float x =>
    rw [← ofChars_injective hcs]
    exact solid_number (fl.valid x)
  | str t | list _ | dict _ _ => exact solid_brackets rfl rfl hcs

/-! ## One item -/

theorem loads_text (hexact : fl.Exact) {depth : ℕ} {v : Value F} (h : Loaded depth v)
    (hcs : v.text fl = ofChars cs) : loads fl depth cs = .ok v := by
  have hscan := h.readsBy hexact cs [] hcs delimited_nil
  have hskip := skipWhitespace_of_item (starts_scanOnce _) hscan
  rw [List.append_nil] at hscan hskip
  have hbom : cs.head? ≠ some '\ufeff' := by
    obtain ⟨c, hhead, hc⟩ := (solid_text h hcs).1
    rw [hhead]
    rintro ⟨⟩
    cases hc
  unfold loads
  rw [if_neg hbom, hskip, hscan]
  rfl

/-- The characters of a text that has an encoding. -/
def itemChars (item : LoadedItem F fl) : List Char :=
  (CodePoint.chars? (item.value.text fl)).getD []

theorem LoadedItem.exists_loaded (item : LoadedItem F fl) : ∃ depth, Loaded depth item.value := by
  obtain ⟨depth, text, hloads⟩ := item.loaded
  exact ⟨depth, loaded_of_loads hloads item.finite⟩

variable {contentType : String}

theorem encodeItem_eq_ok {depth : ℕ} (hndjson : isNdjsonContentType contentType = true)
    {item : LoadedItem F fl} {written : List UInt8} :
    encodeItem fl depth contentType item.toOutput = .ok written ↔
      item.value.height ≤ depth ∧ (∀ t ∈ item.value.texts, Encodable t) ∧
        item.value.text fl = ofChars (itemChars item) ∧
          written = encodeChars (itemChars item) ++ [0x0A] := by
  obtain ⟨_, hloaded⟩ := item.exists_loaded
  have htext : contentType ≠ "text/plain" := by
    rintro rfl
    revert hndjson
    decide
  unfold encodeItem
  rw [if_neg htext, if_pos hndjson, dumps_eq]
  show (do
    let line ← orFault (fault depth item.value) (item.value.text fl)
    return (← encodeUtf8 line) ++ [0x0A]) = Except.ok written ↔ _
  have htexts : Encodable (item.value.text fl) ↔ ∀ t ∈ item.value.texts, Encodable t :=
    encodable_text fl item.value
  rw [← hloaded.fault_eq_none, ← htexts]
  cases fault depth item.value with
  | some e => exact iff_of_false (fun h => by cases h) fun h => by cases h.1
  | none =>
    show (do return (← encodeUtf8 (item.value.text fl)) ++ [0x0A]) = Except.ok written ↔ _
    cases hchars : CodePoint.chars? (item.value.text fl) with
    | none =>
      rw [encodeUtf8, hchars]
      refine iff_of_false (fun h => by cases h) fun h => ?_
      obtain ⟨p, hp, hsurrogate⟩ := CodePoint.chars?_eq_none_iff.mp hchars
      rw [h.2.1 p hp] at hsurrogate
      cases hsurrogate
    | some cs =>
      have hcs := CodePoint.eq_map_of_chars? hchars
      have hitem : itemChars item = cs := by
        rw [itemChars, hchars]
        rfl
      rw [encodeUtf8, hchars, hitem]
      constructor
      · intro h
        refine ⟨rfl, ?_, hcs, (Except.ok.inj h).symm⟩
        rw [hcs]
        exact encodable_ofChars cs
      · rintro ⟨-, -, -, rfl⟩
        rfl

theorem newline_notMem {item : LoadedItem F fl}
    (hcs : item.value.text fl = ofChars (itemChars item)) :
    0x0A ∉ encodeChars (itemChars item) := by
  have hline := (singleLine_text fl item.value).1
  rw [hcs] at hline
  exact MonitoringCodec.notMem_encodeChars (by decide) rfl fun hmem =>
    hline (List.mem_map_of_mem hmem)

theorem decodeLine_spec (hexact : fl.Exact) (depth' : ℕ)
    (hndjson : isNdjsonContentType contentType = true) {item : LoadedItem F fl}
    (hcs : item.value.text fl = ofChars (itemChars item)) (read : List (Item F)) :
    (InputStream.lineDecoder fl depth' contentType (encodeChars (itemChars item)) = .ok read →
      ∃ v, read = [.value v] ∧ loads fl depth' (itemChars item) = .ok v) ∧
    (item.value.height ≤ depth' →
      InputStream.lineDecoder fl depth' contentType (encodeChars (itemChars item)) =
        .ok [.value item.value]) := by
  obtain ⟨depth, hloaded⟩ := item.exists_loaded
  have hsolid := solid_text hloaded hcs
  have hne : itemChars item ≠ [] := by
    obtain ⟨c, hhead, -⟩ := hsolid.1
    intro h
    rw [h] at hhead
    cases hhead
  have htext : contentType ≠ "text/plain" := by
    rintro rfl
    revert hndjson
    decide
  unfold InputStream.lineDecoder InputStream.decodeNdjsonLine
  rw [if_neg htext, MonitoringCodec.decodeUtf8_encodeChars]
  simp only [strip_of_solid hsolid, if_neg hne]
  constructor
  · intro h
    cases hloads : loads fl depth' (itemChars item) with
    | ok v =>
      rw [hloads] at h
      exact ⟨v, (Except.ok.inj h).symm, rfl⟩
    | error e =>
      rw [hloads] at h
      cases e <;> cases h
  · intro hheight
    rw [loads_text hexact (hloaded.of_height_le hheight) hcs]

/-! ## All items -/

theorem pieces_lines {lines : List (List UInt8)} (h : ∀ line ∈ lines, 0x0A ∉ line) :
    InputStream.pieces (lines.flatMap fun line => line ++ [0x0A]) = lines := by
  have hlines : Lines.lines 0x0A (lines.flatMap fun line => line ++ [0x0A]) = (lines, []) := by
    induction lines with
    | nil => rfl
    | cons line lines ih =>
      rw [List.forall_mem_cons] at h
      rw [List.flatMap_cons, List.append_assoc, List.singleton_append, Lines.lines_line h.1,
        ih h.2]
  rw [InputStream.pieces, hlines, if_pos rfl, List.append_nil]

def itemLines (items : List (LoadedItem F fl)) : List (List UInt8) :=
  items.map fun item => encodeChars (itemChars item)

theorem handle_encodeItem {depth : ℕ} (hndjson : isNdjsonContentType contentType = true)
    {items : List (LoadedItem F fl)}
    (h : ∀ item ∈ items, item.value.text fl = ofChars (itemChars item) ∧ item.value.height ≤ depth ∧ ∀ t ∈ item.value.texts, Encodable t) :
    Cutter.handle (encodeItem fl depth contentType) (items.map LoadedItem.toOutput) =
      ((itemLines items).flatMap fun line => line ++ [0x0A], none) := by
  induction items with
  | nil => rfl
  | cons item items ih =>
    rw [List.forall_mem_cons] at h
    obtain ⟨⟨hcs, hheight, hencodable⟩, hitems⟩ := h
    rw [List.map_cons, Cutter.handle,
      (encodeItem_eq_ok hndjson).mpr ⟨hheight, hencodable, hcs, rfl⟩, ih hitems]
    rfl

theorem height_of_handle (hexact : fl.Exact) {depth' : ℕ}
    (hndjson : isNdjsonContentType contentType = true) {items : List (LoadedItem F fl)}
    (hcs : ∀ item ∈ items, item.value.text fl = ofChars (itemChars item)) :
    Cutter.handle (InputStream.lineDecoder fl depth' contentType) (itemLines items) =
        (items.map fun item => .value item.value, none) ↔
      ∀ item ∈ items, item.value.height ≤ depth' := by
  induction items with
  | nil => simp [itemLines, Cutter.handle]
  | cons item items ih =>
    rw [List.forall_mem_cons] at hcs ⊢
    rw [← ih hcs.2]
    have hspec := fun read => decodeLine_spec hexact depth' hndjson hcs.1 read
    show Cutter.handle _ (encodeChars (itemChars item) :: itemLines items) = _ ↔ _
    rw [Cutter.handle, List.map_cons]
    constructor
    · intro h
      cases hread : InputStream.lineDecoder fl depth' contentType
          (encodeChars (itemChars item)) with
      | error e =>
        rw [hread] at h
        cases h
      | ok read =>
        obtain ⟨v, rfl, hloads⟩ := (hspec read).1 hread
        simp only [hread, List.singleton_append, Prod.mk.injEq, List.cons.injEq] at h
        obtain ⟨⟨hv, hitems⟩, hraised⟩ := h
        cases hv
        exact ⟨(loaded_of_loads hloads item.finite).height_le, Prod.ext hitems hraised⟩
    · rintro ⟨hheight, hitems⟩
      rw [(hspec []).2 hheight, hitems]
      rfl

/-- The streams of lines yield their pieces in all chunks; and values that `json.loads` returned are
read back exactly when they are not too deep, have no lone surrogates, and follow a writable frame. -/
theorem streams_iff_writable (fl : Floats F) (hexact : fl.Exact) (depth depth' : ℕ)
    (contentType : String) :
    (contentType = "text/plain" ∨ isNdjsonContentType contentType = true →
      ∀ chunks, InputStream.YieldsPieces fl depth' contentType chunks) ∧
    (isNdjsonContentType contentType = true →
      ∀ (items : List (LoadedItem F fl)) (writeFrame : Int → Value F → Except Error Unit)
        (provides requires : Text),
        ReadBack depth depth' items writeFrame provides requires contentType ↔
          writeFrame PANG (pangPayload provides requires contentType) = .ok () ∧
            ∀ item ∈ items, Writable depth depth' item.value) := by
  refine ⟨fun h chunks => InputStream.yieldsPieces fl h depth' chunks, ?_⟩
  intro hndjson items writeFrame provides requires
  have hpieces : (∀ item ∈ items, item.value.text fl = ofChars (itemChars item)) →
      InputStream.pieces ((itemLines items).flatMap fun line => line ++ [0x0A]) =
        itemLines items := by
    intro hcs
    apply pieces_lines
    intro line hline
    obtain ⟨item, hitem, rfl⟩ := List.mem_map.mp hline
    exact newline_notMem (hcs item hitem)
  unfold ReadBack forwardOutputStream
  cases writeFrame PANG (pangPayload provides requires contentType) with
  | error e =>
    constructor
    · rintro ⟨written, hwritten, -⟩
      cases hwritten
    · rintro ⟨hframe, -⟩
      cases hframe
  | ok _ =>
    constructor
    · rintro ⟨written, hwritten, hread⟩
      have hitems : ∀ item ∈ items, item.value.height ≤ depth ∧
          (∀ t ∈ item.value.texts, Encodable t) ∧
            item.value.text fl = ofChars (itemChars item) := by
        intro item hitem
        obtain ⟨bytes, hbytes⟩ := Cutter.handle_raised_eq_none.mp
          (congrArg Prod.snd hwritten) item.toOutput (List.mem_map_of_mem hitem)
        obtain ⟨hheight, hencodable, hcs, -⟩ := (encodeItem_eq_ok hndjson).mp hbytes
        exact ⟨hheight, hencodable, hcs⟩
      have hcs := fun item hitem => (hitems item hitem).2.2
      have hlines := handle_encodeItem hndjson fun item hitem =>
        ⟨hcs item hitem, (hitems item hitem).1, (hitems item hitem).2.1⟩
      obtain rfl := congrArg Prod.fst (hlines.symm.trans hwritten)
      have hback := hread (InputStream.unsplit _) (InputStream.streamOf_unsplit _)
      rw [InputStream.makeInputStream_eq fl (.inr hndjson), InputStream.streamOf_unsplit,
        hpieces hcs, height_of_handle hexact hndjson hcs] at hback
      exact ⟨rfl, fun item hitem =>
        ⟨⟨(hitems item hitem).1, hback item hitem⟩, (hitems item hitem).2.1⟩⟩
    · rintro ⟨-, hitems⟩
      have hcs : ∀ item ∈ items, item.value.text fl = ofChars (itemChars item) := by
        intro item hitem
        have hencodable : Encodable (item.value.text fl) :=
          (encodable_text fl item.value).mpr (hitems item hitem).encodable
        cases hchars : CodePoint.chars? (item.value.text fl) with
        | none =>
          obtain ⟨p, hp, hsurrogate⟩ := CodePoint.chars?_eq_none_iff.mp hchars
          rw [hencodable p hp] at hsurrogate
          cases hsurrogate
        | some cs =>
          rw [itemChars, hchars]
          exact CodePoint.eq_map_of_chars? hchars
      refine ⟨_, handle_encodeItem hndjson fun item hitem =>
        ⟨hcs item hitem, (hitems item hitem).height.1, (hitems item hitem).encodable⟩, ?_⟩
      intro chunks hchunks
      rw [InputStream.makeInputStream_eq fl (.inr hndjson), hchunks, hpieces hcs,
        height_of_handle hexact hndjson hcs]
      exact fun item hitem => (hitems item hitem).height.2

/-- What `json.loads` returns of `true`. -/
def trueItem : LoadedItem Empty MonitoringCodec.noFloats :=
  ⟨.bool true, nofun, 0, "true".toList, rfl⟩

theorem streams_iff_writable_true :
    InputStream.YieldsPieces MonitoringCodec.noFloats 1000 "text/plain"
        [⟨[0x61, 0x0A, 0x62], List.cons_ne_nil _ _⟩] ∧
      ReadBack 1000 1000 [trueItem] (fun _ _ => .ok ()) [] [] "application/x-ndjson" :=
  ⟨(streams_iff_writable MonitoringCodec.noFloats (fun x => x.elim) 1000 1000 "text/plain").1
      (.inl rfl) _,
    ((streams_iff_writable MonitoringCodec.noFloats (fun x => x.elim) 1000 1000
      "application/x-ndjson").2 (by decide) _ _ _ _).mpr
      ⟨rfl, List.forall_mem_singleton.mpr
        ⟨⟨Nat.zero_le _, Nat.zero_le _⟩, nofun⟩⟩⟩

/-- What `json.loads` returns of an escape for a lone surrogate. -/
def surrogateItem : LoadedItem Empty MonitoringCodec.noFloats :=
  ⟨.str [⟨0xD800, by decide⟩], nofun, 0, "\"\\ud800\"".toList, rfl⟩

/-- The encoder raises on it. -/
theorem surrogateItem_not_readBack :
    ¬ ∀ items : List (LoadedItem Empty MonitoringCodec.noFloats),
      ReadBack 1000 1000 items (fun _ _ => .ok ()) [] [] "application/x-ndjson" := by
  intro h
  obtain ⟨written, hwritten, -⟩ := h [surrogateItem]
  have hraises : forwardOutputStream MonitoringCodec.noFloats 1000
      ([surrogateItem].map LoadedItem.toOutput) (fun _ _ => .ok ()) [] [] "application/x-ndjson" =
        ([], some .unicodeEncodeError) := by
    rfl
  rw [hraises] at hwritten
  cases hwritten

end TransformHub.Runner.OutputStream
