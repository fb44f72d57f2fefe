import TransformHub.Runner.ShutdownControl

/-!
# Chunks of the shutdown control

A `STOP` or `KILL` frame that is followed by bytes that are not UTF-8 is lost in one chunk with them,
since the chunk is decoded as a whole; otherwise the chunks are irrelevant.
-/

namespace TransformHub.Runner.ShutdownControl

open Js ShutdownControlObserver

variable (parse : List Char → Option Json)

/-! ## Frames -/

def byteLength (text : List Char) : ℕ := (encodeChars text).length

@[simp] theorem byteLength_append (s t : List Char) :
    byteLength (s ++ t) = byteLength s + byteLength t := by
  simp [byteLength]

theorem byteLength_singleton (c : Char) : byteLength [c] = (String.utf8EncodeChar c).length := by
  simp [byteLength, encodeChars]

def crlf : List Char := ['\r', '\n']

/-- One line that is no longer than a frame may be. -/
structure Fits (line : List Char) : Prop where
  single : '\n' ∉ line
  size : byteLength line + 2 ≤ maxControlFrameBytes

/-- A frame that leaves the observer as it is. -/
structure Passes (line : List Char) : Prop extends Fits line where
  code : ∃ code, frameCode parse line = some code ∧ code ≠ stopCode ∧ code ≠ killCode

/-- A `STOP` or a `KILL`. -/
structure Cancels (line : List Char) : Prop extends Fits line where
  code : frameCode parse line = some stopCode ∨ frameCode parse line = some killCode

/-- With the text a `STOP` or `KILL` frame is complete, after frames that pass. -/
def CompletesStop (pending text : List Char) : Prop :=
  ∃ (frames : List (List Char)) (line : List Char),
    pending ++ text = frames.flatMap (· ++ crlf) ++ (line ++ crlf) ∧
    (∀ frame ∈ frames, Passes parse frame) ∧ Cancels parse line

/-- The bytes hold a complete `STOP` or `KILL` frame. -/
def HoldsFrame (bytes : List UInt8) : Prop :=
  ∃ before text rest, bytes = before ++ encodeChars (text ++ crlf) ++ rest ∧
    (before = [] ∨ before = encodeChars [byteOrderMark] ∨ before.getLast? = some 10) ∧
    '\n' ∉ text ∧ text.head? ≠ some byteOrderMark ∧
    (frameCode parse text = some stopCode ∨ frameCode parse text = some killCode)

/-! ## Chunks -/

/-- The event with every byte in a chunk of its own. -/
def single : Event → List Event
  | .data chunk => chunk.map fun b => .data [b]
  | event => [event]

def singles (events : List Event) : List Event := events.flatMap single

def received (o : ShutdownControlObserver) : List Event → List UInt8
  | [] => []
  | .data chunk :: events =>
    (if o.sourceDataAttached then chunk else []) ++ received (step parse o (.data chunk)) events
  | event :: events => received (step parse o event) events

/-- A listening observer gets a `STOP` or `KILL` frame, and then bytes that are not UTF-8. -/
structure StopThenInvalid (o : ShutdownControlObserver) (x y : List UInt8) : Prop where
  reason : o.reason = none
  disposed : o.disposed = false
  attached : o.sourceDataAttached = true
  invalid : ∃ decoder text, o.decoder.decodeStream x = some (decoder, text) ∧
    CompletesStop parse o.pending text ∧ decoder.decodeStream y = none

/-! ## What a cancelled observer keeps -/

variable {parse} {o o' : ShutdownControlObserver} {r : ShutdownCancellationReason}

def Live (o : ShutdownControlObserver) : Prop := o.reason = none ∧ o.disposed = false

theorem not_live_iff : ¬ Live o ↔ o.reason ≠ none ∨ o.disposed = true := by
  unfold Live
  cases o.disposed <;> simp

theorem cancel_of_live (h : Live o) : o.cancel r = { o with reason := some r } := by
  unfold cancel
  rw [if_neg]
  rw [h.1, h.2]
  simp

theorem cancel_of_not_live (h : ¬ Live o) : o.cancel r = o := by
  unfold cancel
  rw [if_pos (not_live_iff.mp h)]

theorem cancel_reason (h : o.reason ≠ none) : o.cancel r = o :=
  cancel_of_not_live fun hlive => h hlive.1

theorem acceptCharacter_of_not_live (h : ¬ Live o) (c : Char) : o.acceptCharacter parse c = o := by
  unfold acceptCharacter
  rw [if_pos (not_live_iff.mp h)]

theorem acceptText_of_not_live (h : ¬ Live o) (text : List Char) : o.acceptText parse text = o := by
  induction text with
  | nil => rfl
  | cons c text ih =>
    show acceptText parse (o.acceptCharacter parse c) text = o
    rw [acceptCharacter_of_not_live h]
    exact ih

theorem onData_of_not_live (h : ¬ Live o) (chunk : List UInt8) : o.onData parse chunk = o := by
  unfold ShutdownControlObserver.onData
  rw [if_pos (not_live_iff.mp h)]

variable (parse) in
theorem step_reason (h : o.reason ≠ none) (event : Event) :
    (step parse o event).reason = o.reason := by
  have hlive : ¬ Live o := fun hlive => h hlive.1
  cases event with
  | data chunk => simp only [step, onData_of_not_live hlive, ite_self]
  | ended =>
    simp only [step, onEnd]
    rw [if_pos (.inl h)]
  | sourceError | sourceClose | targetError => rw [step, cancel_reason h]
  | targetUnpipe own =>
    simp only [step, onTargetUnpipe]
    split_ifs <;> rfl
  | takeOver t =>
    simp only [step, takeOverAfterChildClose]
    rw [if_pos (.inr (.inl h))]
  | finish =>
    simp only [step, finishGraceWindow]
    rw [if_neg fun hnot => h hnot.1]
  | dispose =>
    simp only [step, ShutdownControlObserver.dispose]
    split_ifs <;> rfl

theorem run_reason (h : o.reason ≠ none) (events : List Event) :
    (run parse o events).reason = o.reason := by
  induction events generalizing o with
  | nil => rfl
  | cons event events ih =>
    have hstep := step_reason parse h event
    show (run parse (step parse o event) events).reason = _
    rw [ih (by rw [hstep]; exact h), hstep]

theorem run_append (events events' : List Event) :
    run parse o (events ++ events') = run parse (run parse o events) events' :=
  List.foldl_append

/-! ## Lines -/

/-- The scanned part of a listening observer: the line that has begun is one line, and short. -/
structure LineInv (o : ShutdownControlObserver) : Prop where
  single : '\n' ∉ o.pending
  bytes : o.pendingBytes = byteLength o.pending
  size : o.pendingBytes < maxControlFrameBytes

theorem lineInv_empty (o : ShutdownControlObserver) :
    LineInv { o with pending := [], pendingBytes := 0 } := by
  refine ⟨List.not_mem_nil, rfl, ?_⟩
  show 0 < maxControlFrameBytes
  decide

/-- The fields that `acceptText` does not touch. -/
def withOthers (o' o : ShutdownControlObserver) : ShutdownControlObserver :=
  { o with
    decoder := o'.decoder
    decoderPendingBytes := o'.decoderPendingBytes
    sourceDataAttached := o'.sourceDataAttached
    pipeRetired := o'.pipeRetired
    takenOver := o'.takenOver }

theorem cancel_withOthers : (withOthers o' o).cancel r = withOthers o' (o.cancel r) := by
  unfold cancel withOthers
  dsimp only
  split_ifs <;> rfl

theorem parseFrame_withOthers (line : List Char) :
    (withOthers o' o).parseFrame parse line = withOthers o' (o.parseFrame parse line) := by
  unfold parseFrame
  split
  · exact cancel_withOthers
  · split_ifs
    · exact cancel_withOthers
    · exact cancel_withOthers
    · rfl

theorem acceptCharacter_withOthers (c : Char) :
    (withOthers o' o).acceptCharacter parse c = withOthers o' (o.acceptCharacter parse c) := by
  by_cases hlive : Live o
  swap
  · rw [acceptCharacter_of_not_live hlive, acceptCharacter_of_not_live (o := withOthers o' o) hlive]
  unfold acceptCharacter
  rw [if_neg (fun hnot => not_live_iff.mpr hnot hlive),
    if_neg (fun hnot => not_live_iff.mpr hnot (show Live (withOthers o' o) from hlive))]
  by_cases hc : c = '\n'
  · rw [if_pos hc, if_pos hc]
    show (if o.pending.getLast? ≠ some '\r' ∨ maxControlFrameBytes < o.pendingBytes + 1 then _
      else _) = _
    split
    · exact cancel_withOthers
    · show ({ (withOthers o' o).parseFrame parse o.pending.dropLast with
        pending := [], pendingBytes := 0 } : ShutdownControlObserver) = _
      rw [parseFrame_withOthers]
      rfl
  · rw [if_neg hc, if_neg hc]
    dsimp only
    show (if maxControlFrameBytes ≤ o.pendingBytes + (String.utf8EncodeChar c).length then _
      else _) = _
    split
    · exact cancel_withOthers
        (o := { o with
          pending := o.pending ++ [c]
          pendingBytes := o.pendingBytes + (String.utf8EncodeChar c).length })
    · rfl

theorem acceptText_withOthers (text : List Char) :
    (withOthers o' o).acceptText parse text = withOthers o' (o.acceptText parse text) := by
  induction text generalizing o with
  | nil => rfl
  | cons c text ih =>
    show acceptText parse ((withOthers o' o).acceptCharacter parse c) text = _
    rw [acceptCharacter_withOthers, ih]
    rfl

theorem acceptText_others (parse : List Char → Option Json) (o : ShutdownControlObserver)
    (text : List Char) : o.acceptText parse text = withOthers o (o.acceptText parse text) := by
  have h : (withOthers o o).acceptText parse text = withOthers o (o.acceptText parse text) :=
    acceptText_withOthers text
  exact h

theorem acceptText_append (s t : List Char) :
    o.acceptText parse (s ++ t) = (o.acceptText parse s).acceptText parse t :=
  List.foldl_append

theorem acceptText_reason (h : o.reason ≠ none) (text : List Char) : o.acceptText parse text = o :=
  acceptText_of_not_live (fun hlive => h hlive.1) text

@[simp] theorem cancel_disposed : (o.cancel r).disposed = o.disposed := by
  unfold cancel
  split <;> rfl

@[simp] theorem parseFrame_disposed (line : List Char) :
    (o.parseFrame parse line).disposed = o.disposed := by
  unfold parseFrame
  split
  · exact cancel_disposed
  · split_ifs
    · exact cancel_disposed
    · exact cancel_disposed
    · rfl

theorem acceptCharacter_disposed (c : Char) :
    (o.acceptCharacter parse c).disposed = o.disposed := by
  unfold acceptCharacter
  split
  · rfl
  · split
    · split
      · exact cancel_disposed
      · exact parseFrame_disposed _
    · dsimp only
      split
      · exact cancel_disposed
      · rfl

theorem acceptText_disposed (text : List Char) :
    (o.acceptText parse text).disposed = o.disposed := by
  induction text generalizing o with
  | nil => rfl
  | cons c text ih =>
    show (acceptText parse (o.acceptCharacter parse c) text).disposed = _
    rw [ih, acceptCharacter_disposed]

variable (parse) in
theorem acceptCharacter_plain (hlive : Live o) {c : Char} (hc : c ≠ '\n')
    (hsize : o.pendingBytes + byteLength [c] < maxControlFrameBytes) :
    o.acceptCharacter parse c =
      { o with pending := o.pending ++ [c], pendingBytes := o.pendingBytes + byteLength [c] } := by
  rw [byteLength_singleton] at hsize ⊢
  unfold acceptCharacter
  rw [if_neg (fun hnot => not_live_iff.mpr hnot hlive), if_neg hc]
  dsimp only
  rw [if_neg (Nat.not_le.mpr hsize)]

theorem acceptCharacter_long (hlive : Live o) {c : Char} (hc : c ≠ '\n')
    (hsize : ¬ o.pendingBytes + byteLength [c] < maxControlFrameBytes) :
    (o.acceptCharacter parse c).reason = some .observationInvalid := by
  rw [byteLength_singleton] at hsize
  unfold acceptCharacter
  rw [if_neg (fun hnot => not_live_iff.mpr hnot hlive), if_neg hc]
  dsimp only
  rw [if_pos (Nat.not_lt.mp hsize), cancel_of_live]
  exact hlive

theorem LineInv.plain (hinv : LineInv o) {c : Char} (hc : c ≠ '\n')
    (hsize : o.pendingBytes + byteLength [c] < maxControlFrameBytes) : LineInv { o with
      pending := o.pending ++ [c], pendingBytes := o.pendingBytes + byteLength [c] } := by
  refine ⟨?_, ?_, hsize⟩
  · intro hmem
    rcases List.mem_append.mp hmem with hmem | hmem
    · exact hinv.single hmem
    · exact hc (List.mem_singleton.mp hmem).symm
  · show _ = byteLength (o.pending ++ [c])
    rw [byteLength_append, hinv.bytes]

variable {text : List Char}

theorem acceptText_plain (hlive : Live o) (htext : '\n' ∉ text)
    (hsize : o.pendingBytes + byteLength text < maxControlFrameBytes) :
    o.acceptText parse text =
      { o with
        pending := o.pending ++ text
        pendingBytes := o.pendingBytes + byteLength text } := by
  induction text generalizing o with
  | nil =>
    rw [List.append_nil]
    rfl
  | cons c text ih =>
    have hcons : byteLength (c :: text) = byteLength [c] + byteLength text :=
      byteLength_append [c] text
    have hc : c ≠ '\n' := fun hnot => htext (hnot ▸ List.mem_cons_self)
    have hchar := acceptCharacter_plain parse hlive hc (by omega)
    show acceptText parse (o.acceptCharacter parse c) text = _
    rw [hchar, ih (o := { o with
      pending := o.pending ++ [c], pendingBytes := o.pendingBytes + byteLength [c] }) hlive
      (fun hnot => htext (List.mem_cons_of_mem _ hnot))]
    · simp only [hcons, List.append_assoc, List.cons_append, List.nil_append, Nat.add_assoc]
    · show o.pendingBytes + byteLength [c] + byteLength text < _
      omega

theorem size_of_acceptText (htext : '\n' ∉ text) (hinv : LineInv o) (hlive : Live o)
    (h : (o.acceptText parse text).reason = none) :
    o.pendingBytes + byteLength text < maxControlFrameBytes := by
  induction text generalizing o with
  | nil => exact hinv.size
  | cons c text ih =>
    have hcons : byteLength (c :: text) = byteLength [c] + byteLength text :=
      byteLength_append [c] text
    have hc : c ≠ '\n' := fun hnot => htext (hnot ▸ List.mem_cons_self)
    change (acceptText parse (o.acceptCharacter parse c) text).reason = none at h
    by_cases hsize : o.pendingBytes + byteLength [c] < maxControlFrameBytes
    · have hchar := acceptCharacter_plain parse hlive hc hsize
      rw [hchar] at h
      have hrest := ih (fun hnot => htext (List.mem_cons_of_mem _ hnot)) (hinv.plain hc hsize) hlive h
      change o.pendingBytes + byteLength [c] + byteLength text < _ at hrest
      omega
    · -- the loop ends at this character
      have hcancel : (o.acceptCharacter parse c).reason ≠ none := by
        rw [acceptCharacter_long hlive hc hsize]
        exact nofun
      rw [acceptText_reason hcancel] at h
      exact absurd h hcancel

variable {line : List Char}

theorem acceptCharacter_newline (hlive : Live o) (hpending : o.pending = line ++ ['\r'])
    (hsize : o.pendingBytes < maxControlFrameBytes) :
    o.acceptCharacter parse '\n' =
      { o.parseFrame parse line with pending := [], pendingBytes := 0 } := by
  unfold acceptCharacter
  rw [if_neg (fun hnot => not_live_iff.mpr hnot hlive), if_pos rfl, hpending, if_neg]
  · rw [List.dropLast_concat]
  · rintro (hnot | hnot)
    · exact hnot List.getLast?_concat
    · omega

theorem parseFrame_line (line pending : List Char) (pendingBytes : ℕ) :
    ({ parseFrame parse { o with pending, pendingBytes } line with
      pending := [], pendingBytes := 0 } : ShutdownControlObserver) =
      { o.parseFrame parse line with pending := [], pendingBytes := 0 } := by
  have hcancel : ∀ r, ({ cancel { o with pending, pendingBytes } r with
      pending := [], pendingBytes := 0 } : ShutdownControlObserver) =
      { o.cancel r with pending := [], pendingBytes := 0 } := by
    intro r
    unfold cancel
    dsimp only
    split <;> rfl
  unfold parseFrame
  split
  · exact hcancel _
  · split
    · exact hcancel _
    · split
      · exact hcancel _
      · rfl

theorem append_eq_line {pending text line rest : List Char} (hpending : '\n' ∉ pending)
    (h : pending ++ text = line ++ '\n' :: rest) (hline : '\n' ∉ line) :
    ∃ text', line = pending ++ text' ∧ text = text' ++ '\n' :: rest := by
  induction pending generalizing line with
  | nil => exact ⟨line, rfl, h⟩
  | cons c pending ih =>
    have hc : c ≠ '\n' := fun hnot => hpending (hnot ▸ List.mem_cons_self)
    cases line with
    | nil => exact absurd (List.cons.inj h).1 hc
    | cons c' line =>
      obtain ⟨hhead, htail⟩ := List.cons.inj h
      obtain ⟨text', hline', htext⟩ := ih
        (fun hnot => hpending (List.mem_cons_of_mem _ hnot)) htail
        fun hnot => hline (List.mem_cons_of_mem _ hnot)
      exact ⟨text', by rw [hhead, hline', List.cons_append], htext⟩

variable (parse) in
theorem acceptText_line (hlive : Live o) (hinv : LineInv o) {line text rest : List Char}
    (hline : o.pending ++ text = line ++ crlf ++ rest) (hfits : Fits line) :
    ∃ text', text = text' ++ '\n' :: rest ∧ o.acceptText parse text =
      acceptText parse { o.parseFrame parse line with pending := [], pendingBytes := 0 } rest := by
  have hsplit : o.pending ++ text = (line ++ ['\r']) ++ '\n' :: rest := by
    rw [hline, crlf]
    simp
  have hnot : '\n' ∉ line ++ ['\r'] := by
    intro hmem
    rcases List.mem_append.mp hmem with hmem | hmem
    · exact hfits.single hmem
    · simp at hmem
  obtain ⟨text', hline', htext⟩ := append_eq_line hinv.single hsplit hnot
  have hsize : o.pendingBytes + byteLength text' < maxControlFrameBytes := by
    have hlength := congrArg byteLength hline'
    rw [byteLength_append, byteLength_append] at hlength
    have hcr : byteLength ['\r'] = 1 := rfl
    have hfit := hfits.size
    rw [hinv.bytes]
    omega
  have htext' : '\n' ∉ text' := fun hmem => hnot (hline' ▸ List.mem_append_right _ hmem)
  refine ⟨text', htext, ?_⟩
  rw [htext, acceptText_append, acceptText_plain hlive htext' hsize]
  show acceptText parse (acceptCharacter parse _ '\n') rest = _
  rw [acceptCharacter_newline (o := { o with
    pending := o.pending ++ text', pendingBytes := o.pendingBytes + byteLength text' })
    hlive hline'.symm hsize, parseFrame_line]

theorem parseFrame_of_passes (h : Passes parse line) : o.parseFrame parse line = o := by
  obtain ⟨code, hcode, hstop, hkill⟩ := h.code
  rw [parseFrame, hcode]
  dsimp only
  rw [if_neg hstop, if_neg hkill]

theorem parseFrame_of_cancels (hlive : Live o)
    (h : frameCode parse line = some stopCode ∨ frameCode parse line = some killCode) :
    ∃ r, (r = .stop ∨ r = .kill) ∧ o.parseFrame parse line = { o with reason := some r } := by
  rcases h with h | h
  · refine ⟨.stop, .inl rfl, ?_⟩
    rw [parseFrame, h]
    dsimp only
    rw [if_pos rfl, cancel_of_live hlive]
  · refine ⟨.kill, .inr rfl, ?_⟩
    rw [parseFrame, h]
    dsimp only
    rw [if_neg (by decide), if_pos rfl, cancel_of_live hlive]

theorem reason_of_completesStop (hlive : Live o) (hinv : LineInv o)
    (h : CompletesStop parse o.pending text) :
    (o.acceptText parse text).reason = some .stop ∨
      (o.acceptText parse text).reason = some .kill := by
  obtain ⟨frames, line, htext, hframes, hline⟩ := h
  induction frames generalizing o text with
  | nil =>
    have hwhole : o.pending ++ text = line ++ crlf ++ [] :=
      htext.trans (List.append_nil _).symm
    obtain ⟨text', -, haccept⟩ := acceptText_line parse hlive hinv hwhole hline.toFits
    obtain ⟨r, hr, hparse⟩ := parseFrame_of_cancels hlive hline.code
    rw [haccept, hparse]
    rcases hr with rfl | rfl
    · exact .inl rfl
    · exact .inr rfl
  | cons frame frames ih =>
    have hframe := hframes frame List.mem_cons_self
    rw [List.flatMap_cons, List.append_assoc] at htext
    obtain ⟨text', -, haccept⟩ := acceptText_line parse hlive hinv htext hframe.toFits
    rw [haccept, parseFrame_of_passes hframe]
    apply ih (o := { o with pending := [], pendingBytes := 0 }) hlive
    · exact lineInv_empty o
    · rfl
    · exact fun frame hframe => hframes frame (List.mem_cons_of_mem _ hframe)

/-! ## Characters -/

/-- What one character does to a listening observer. -/
inductive CharacterStep (parse : List Char → Option Json) (o : ShutdownControlObserver) (c : Char)
    (o' : ShutdownControlObserver) : Prop
  | invalid (hreason : o'.reason = some .observationInvalid)
  | plain (hreason : o'.reason = none) (hpending : o'.pending = o.pending ++ [c])
      (hinv : LineInv o')
  | frame (line : List Char) (hline : o.pending ++ [c] = line ++ crlf) (hpasses : Passes parse line)
      (hreason : o'.reason = none) (hpending : o'.pending = []) (hinv : LineInv o')
  | cancel (line : List Char) (hline : o.pending ++ [c] = line ++ crlf)
      (hcancels : Cancels parse line) (hreason : o'.reason = some .stop ∨ o'.reason = some .kill)

theorem parseFrame_step (hlive : Live o) {c : Char} (hline : o.pending ++ [c] = line ++ crlf)
    (hfits : Fits line) :
    CharacterStep parse o c { o.parseFrame parse line with pending := [], pendingBytes := 0 } := by
  cases hcode : frameCode parse line with
  | none =>
    apply CharacterStep.invalid
    rw [parseFrame, hcode]
    dsimp only
    rw [cancel_of_live hlive]
  | some code =>
    by_cases hcancels : code = stopCode ∨ code = killCode
    · have hcancels' : frameCode parse line = some stopCode ∨
          frameCode parse line = some killCode := by
        rw [hcode]
        rcases hcancels with rfl | rfl
        · exact .inl rfl
        · exact .inr rfl
      obtain ⟨r, hr, hparse⟩ := parseFrame_of_cancels hlive hcancels'
      apply CharacterStep.cancel line hline ⟨hfits, hcancels'⟩
      rw [hparse]
      rcases hr with rfl | rfl
      · exact .inl rfl
      · exact .inr rfl
    · have hpasses : Passes parse line :=
        ⟨hfits, code, hcode, fun h => hcancels (.inl h), fun h => hcancels (.inr h)⟩
      rw [parseFrame_of_passes hpasses]
      exact .frame line hline hpasses hlive.1 rfl (lineInv_empty o)

variable (parse) in
theorem acceptCharacter_step (hlive : Live o) (hinv : LineInv o) (c : Char) :
    CharacterStep parse o c (o.acceptCharacter parse c) := by
  by_cases hc : c = '\n'
  · subst hc
    by_cases hcr : o.pending.getLast? = some '\r'
    · obtain ⟨line, hline⟩ := List.getLast?_eq_some_iff.mp hcr
      have hsize := hinv.size
      have hfits : Fits line := by
        refine ⟨fun hmem => hinv.single (hline ▸ List.mem_append_left _ hmem), ?_⟩
        have hbytes := hinv.bytes
        have hcr : byteLength ['\r'] = 1 := rfl
        rw [hline, byteLength_append] at hbytes
        omega
      rw [acceptCharacter_newline hlive hline hsize]
      apply parseFrame_step hlive _ hfits
      rw [hline, List.append_assoc]
      rfl
    · apply CharacterStep.invalid
      unfold acceptCharacter
      rw [if_neg (fun hnot => not_live_iff.mpr hnot hlive), if_pos rfl, if_pos (.inl hcr),
        cancel_of_live hlive]
  · by_cases hsize : o.pendingBytes + byteLength [c] < maxControlFrameBytes
    · rw [acceptCharacter_plain parse hlive hc hsize]
      exact .plain hlive.1 rfl (hinv.plain hc hsize)
    · exact .invalid (acceptCharacter_long hlive hc hsize)

theorem CharacterStep.completesStop {c : Char} (h : CharacterStep parse o c o')
    (hreason : o'.reason = none) (hstop : CompletesStop parse o'.pending text) :
    CompletesStop parse o.pending (c :: text) := by
  have hcons : o.pending ++ c :: text = o.pending ++ [c] ++ text := by simp
  obtain ⟨frames, line', htext, hframes, hline'⟩ := hstop
  cases h with
  | invalid h =>
    rw [h] at hreason
    cases hreason
  | plain _ hpending =>
    rw [hpending] at htext
    exact ⟨frames, line', hcons.trans htext, hframes, hline'⟩
  | frame line hline hpasses _ hpending =>
    rw [hpending, List.nil_append] at htext
    refine ⟨line :: frames, line', ?_, ?_, hline'⟩
    · rw [hcons, hline, htext, List.flatMap_cons, List.append_assoc, List.append_assoc,
        List.append_assoc]
    · intro frame hframe
      rcases List.mem_cons.mp hframe with rfl | hframe
      · exact hpasses
      · exact hframes frame hframe
  | cancel _ _ _ h =>
    rw [hreason] at h
    rcases h with h | h <;> cases h

theorem LineInv.acceptText (hlive : Live o) (hinv : LineInv o)
    (h : (o.acceptText parse text).reason = none) : LineInv (o.acceptText parse text) := by
  induction text generalizing o with
  | nil => exact hinv
  | cons c text ih =>
    change
      (ShutdownControlObserver.acceptText parse (o.acceptCharacter parse c) text).reason = none
      at h
    have hreason : (o.acceptCharacter parse c).reason = none := by
      by_contra hnot
      rw [acceptText_reason hnot] at h
      exact hnot h
    have hlive' : Live (o.acceptCharacter parse c) :=
      ⟨hreason, (acceptCharacter_disposed c).trans hlive.2⟩
    apply ih hlive' _ h
    cases acceptCharacter_step parse hlive hinv c with
    | invalid hnot =>
      rw [hnot] at hreason
      cases hreason
    | plain _ _ hinv' | frame _ _ _ _ _ hinv' => exact hinv'
    | cancel _ _ _ hnot =>
      rw [hreason] at hnot
      rcases hnot with hnot | hnot <;> cases hnot

/-! ## Bytes -/

/-- The scanned part of a listening observer, with the bytes that the decoder keeps. -/
structure ScanInv (o : ShutdownControlObserver) : Prop extends LineInv o where
  counted : ∃ n : ℕ, TextDecoder.Keeps o.decoder.kept n ∧ n ≤ o.decoderPendingBytes

/-- The observer after the decoder has taken bytes, before their text is accepted. -/
def decoded (o : ShutdownControlObserver) (decoder : TextDecoder) (taken : Int) :
    ShutdownControlObserver :=
  { o with decoder, decoderPendingBytes := o.decoderPendingBytes + taken }

theorem acceptText_decoded (decoder : TextDecoder) (taken : Int) :
    (decoded o decoder taken).acceptText parse text =
      decoded (o.acceptText parse text) decoder taken := by
  have hothers := acceptText_others parse o text
  have h : (withOthers (decoded o decoder taken) o).acceptText parse text =
      withOthers (decoded o decoder taken) (o.acceptText parse text) := acceptText_withOthers text
  rw [hothers]
  exact h

variable (parse) in
theorem acceptText_decoder (text : List Char) :
    (o.acceptText parse text).decoder = o.decoder ∧
      (o.acceptText parse text).decoderPendingBytes = o.decoderPendingBytes := by
  have hothers := acceptText_others parse o text
  rw [hothers]
  exact ⟨rfl, rfl⟩

/-- The bytes taken and not given as text. -/
def taken (chunk : List UInt8) (text : List Char) : Int :=
  chunk.length - (encodeChars text).length

variable (parse) in
theorem onData_of_decodeStream (hlive : Live o) (hinv : ScanInv o) {chunk : List UInt8}
    {decoder : TextDecoder} (h : o.decoder.decodeStream chunk = some (decoder, text)) :
    o.onData parse chunk = (decoded o decoder (taken chunk text)).acceptText parse text ∧
      ∃ n : ℕ, TextDecoder.Keeps decoder.kept n ∧
        n ≤ o.decoderPendingBytes + taken chunk text := by
  obtain ⟨n, hkeeps, hle⟩ := hinv.counted
  obtain ⟨n', hkeeps', hlength⟩ := TextDecoder.keeps_decodeStream hkeeps h
  have hcount : (n' : Int) ≤ o.decoderPendingBytes + taken chunk text := by
    unfold taken
    omega
  refine ⟨?_, n', hkeeps', hcount⟩
  unfold ShutdownControlObserver.onData
  rw [if_neg (fun hnot => not_live_iff.mpr hnot hlive), h]
  dsimp only
  rw [if_neg]
  · rfl
  · show ¬ o.decoderPendingBytes + taken chunk text < 0
    omega

theorem onData_of_invalid (hlive : Live o) {chunk : List UInt8}
    (h : o.decoder.decodeStream chunk = none) :
    o.onData parse chunk = { o with reason := some .observationInvalid } := by
  unfold ShutdownControlObserver.onData
  rw [if_neg (fun hnot => not_live_iff.mpr hnot hlive), h]
  exact cancel_of_live hlive

theorem onData_disposed (chunk : List UInt8) : (o.onData parse chunk).disposed = o.disposed := by
  unfold ShutdownControlObserver.onData
  split
  · rfl
  · split
    · exact cancel_disposed
    · dsimp only
      split
      · exact cancel_disposed
      · exact acceptText_disposed _

theorem onData_attached (chunk : List UInt8) :
    (o.onData parse chunk).sourceDataAttached = o.sourceDataAttached := by
  have haccept : ∀ (o : ShutdownControlObserver) text,
      (o.acceptText parse text).sourceDataAttached = o.sourceDataAttached := by
    intro o text
    have hothers := acceptText_others parse o text
    rw [hothers]
    rfl
  have hcancel : ∀ (o : ShutdownControlObserver) r,
      (o.cancel r).sourceDataAttached = o.sourceDataAttached := by
    intro o r
    unfold cancel
    split <;> rfl
  unfold ShutdownControlObserver.onData
  split
  · rfl
  · split
    · exact hcancel _ _
    · dsimp only
      split
      · exact hcancel _ _
      · exact haccept _ _

theorem ScanInv.onData (hlive : Live o) (hinv : ScanInv o) {chunk : List UInt8}
    (h : (o.onData parse chunk).reason = none) : ScanInv (o.onData parse chunk) := by
  cases hdecode : o.decoder.decodeStream chunk with
  | none =>
    rw [onData_of_invalid hlive hdecode] at h
    cases h
  | some r =>
    obtain ⟨decoder, text⟩ := r
    obtain ⟨hdata, hcounted⟩ := onData_of_decodeStream parse hlive hinv hdecode
    rw [hdata] at h ⊢
    have hinv' : LineInv (decoded o decoder (taken chunk text)) :=
      ⟨hinv.single, hinv.bytes, hinv.size⟩
    refine ⟨LineInv.acceptText (o := decoded o decoder (taken chunk text)) hlive hinv' h, ?_⟩
    obtain ⟨hdecoder, hpending⟩ := acceptText_decoder parse
      (o := decoded o decoder (taken chunk text)) text
    rw [hdecoder, hpending]
    exact hcounted

/-- Bytes one by one. -/
def scan (parse : List Char → Option Json) (o : ShutdownControlObserver) (bytes : List UInt8) :
    ShutdownControlObserver :=
  bytes.foldl (fun o b => o.onData parse [b]) o

theorem scan_of_not_live (h : ¬ Live o) (bytes : List UInt8) : scan parse o bytes = o := by
  induction bytes with
  | nil => rfl
  | cons b bytes ih =>
    show scan parse (o.onData parse [b]) bytes = o
    rw [onData_of_not_live h]
    exact ih

theorem scan_reason (h : o.reason ≠ none) (bytes : List UInt8) : scan parse o bytes = o :=
  scan_of_not_live (fun hlive => h hlive.1) bytes

theorem scan_append (x y : List UInt8) : scan parse o (x ++ y) = scan parse (scan parse o x) y :=
  List.foldl_append

/-- The observers are the same, or are cancelled for the same reason. -/
def SameReason (o o' : ShutdownControlObserver) : Prop :=
  o = o' ∨ o.reason = o'.reason ∧ o'.reason ≠ none

theorem SameReason.reason_eq (h : SameReason o o') : o.reason = o'.reason := by
  rcases h with rfl | ⟨h, -⟩
  · rfl
  · exact h

theorem Live.onData (hlive : Live o) {chunk : List UInt8}
    (h : (o.onData parse chunk).reason = none) : Live (o.onData parse chunk) :=
  ⟨h, (onData_disposed chunk).trans hlive.2⟩

variable (parse) in
theorem scan_same {bytes : List UInt8} (hlive : Live o) (hinv : ScanInv o) {decoder : TextDecoder}
    (h : o.decoder.decodeStream bytes = some (decoder, text)) :
    SameReason (o.onData parse bytes) (scan parse o bytes) := by
  induction bytes generalizing o text with
  | nil =>
    left
    have hdata := (onData_of_decodeStream parse hlive hinv h).1
    cases h
    rw [hdata]
    show decoded o o.decoder (0 - 0) = o
    simp [decoded]
  | cons b bytes ih =>
    obtain ⟨hdata, -⟩ := onData_of_decodeStream parse hlive hinv h
    rw [TextDecoder.decodeStream] at h
    cases hbyte : o.decoder.byte b with
    | none =>
      rw [hbyte] at h
      cases h
    | some r =>
      obtain ⟨decoder₁, text₁⟩ := r
      rw [hbyte] at h
      dsimp only at h
      cases hrest : decoder₁.decodeStream bytes with
      | none =>
        rw [hrest] at h
        cases h
      | some r =>
        obtain ⟨decoder₂, text₂⟩ := r
        rw [hrest] at h
        cases h
        have hone : o.decoder.decodeStream [b] = some (decoder₁, text₁) := by
          rw [TextDecoder.decodeStream_singleton, hbyte]
        obtain ⟨hdata₁, -⟩ := onData_of_decodeStream parse hlive hinv hone
        show SameReason _ (scan parse (o.onData parse [b]) bytes)
        rw [acceptText_decoded] at hdata hdata₁
        rw [acceptText_append] at hdata
        by_cases hreason : (o.onData parse [b]).reason = none
        · -- the other bytes come to a listening observer
          have hlive₁ := hlive.onData hreason
          have hinv₁ := hinv.onData hlive hreason
          have hdecoder₁ : (o.onData parse [b]).decoder = decoder₁ := by
            rw [hdata₁]
            rfl
          have hrest₁ : (o.onData parse [b]).decoder.decodeStream bytes =
              some (decoder₂, text₂) := by
            rw [hdecoder₁, hrest]
          have hsame := ih hlive₁ hinv₁ hrest₁
          have hdata₂ := (onData_of_decodeStream parse hlive₁ hinv₁ hrest₁).1
          have heq : o.onData parse (b :: bytes) =
              (o.onData parse [b]).onData parse bytes := by
            rw [hdata, hdata₂, hdata₁, acceptText_decoded, acceptText_decoded]
            unfold decoded taken
            simp only [encodeChars_append, List.length_append, List.length_cons,
              List.length_nil]
            congr 1
            omega
          rw [heq]
          exact hsame
        · right
          rw [scan_reason hreason]
          refine ⟨?_, hreason⟩
          rw [hdata₁] at hreason
          have hreason' : (o.acceptText parse text₁).reason ≠ none := hreason
          rw [hdata, hdata₁, acceptText_reason hreason']
          rfl

variable (parse) in
theorem byte_step (hlive : Live o) (hinv : ScanInv o) (b : UInt8) :
    o.decoder.byte b = none ∧ (o.onData parse [b]).reason = some .observationInvalid ∨
    ∃ decoder text, o.decoder.byte b = some (decoder, text) ∧
      ((o.onData parse [b]).reason = none → (o.onData parse [b]).decoder = decoder ∧
        ∀ text', CompletesStop parse (o.onData parse [b]).pending text' →
          CompletesStop parse o.pending (text ++ text')) ∧
      ((o.onData parse [b]).reason ≠ none →
        (o.onData parse [b]).reason = some .observationInvalid ∨
          CompletesStop parse o.pending text) := by
  cases hbyte : o.decoder.byte b with
  | none =>
    left
    rw [onData_of_invalid hlive (by rw [TextDecoder.decodeStream_singleton, hbyte])]
    exact ⟨rfl, rfl⟩
  | some r =>
    right
    obtain ⟨decoder, text⟩ := r
    have hone : o.decoder.decodeStream [b] = some (decoder, text) := by
      rw [TextDecoder.decodeStream_singleton, hbyte]
    obtain ⟨hdata, -⟩ := onData_of_decodeStream parse hlive hinv hone
    refine ⟨decoder, text, rfl, ?_⟩
    rw [hdata, acceptText_decoded]
    show ((o.acceptText parse text).reason = none → decoder = decoder ∧
        ∀ text', CompletesStop parse (o.acceptText parse text).pending text' → _) ∧
      ((o.acceptText parse text).reason ≠ none →
        (o.acceptText parse text).reason = some .observationInvalid ∨ _)
    rcases TextDecoder.byte_cases hbyte with rfl | ⟨c, rfl⟩
    · exact ⟨fun _ => ⟨rfl, fun text' h => h⟩, fun hnot => absurd hlive.1 hnot⟩
    · have hstep := acceptCharacter_step parse hlive hinv.toLineInv c
      change CharacterStep parse o c (o.acceptText parse [c]) at hstep
      refine ⟨fun hreason => ⟨rfl, fun text' h => hstep.completesStop hreason h⟩,
        fun hreason => ?_⟩
      cases hstep with
      | invalid h => exact .inl h
      | plain h | frame _ _ _ h => exact absurd h hreason
      | cancel line hline hcancels _ =>
        exact .inr ⟨[], line, hline, (fun _ h => absurd h List.not_mem_nil), hcancels⟩

variable (parse) in
/-- Bytes that are not UTF-8 cancel one by one as they do in one chunk, unless a `STOP` or `KILL`
frame comes before. -/
theorem scan_invalid {bytes : List UInt8} (hlive : Live o) (hinv : ScanInv o)
    (h : o.decoder.decodeStream bytes = none) :
    (scan parse o bytes).reason = some .observationInvalid ∨
      ∃ x y decoder text, bytes = x ++ y ∧ o.decoder.decodeStream x = some (decoder, text) ∧
        CompletesStop parse o.pending text ∧ decoder.decodeStream y = none := by
  induction bytes generalizing o with
  | nil => cases h
  | cons b bytes ih =>
    show (scan parse (o.onData parse [b]) bytes).reason = _ ∨ _
    rcases byte_step parse hlive hinv b with
      ⟨-, hreason⟩ | ⟨decoder, text, hbyte, hlistens, hcancelled⟩
    · left
      rw [scan_reason (by rw [hreason]; simp), hreason]
    · have hone : o.decoder.decodeStream [b] = some (decoder, text) := by
        rw [TextDecoder.decodeStream_singleton, hbyte]
      rw [TextDecoder.decodeStream, hbyte] at h
      have hrest : decoder.decodeStream bytes = none := by
        cases hrest : decoder.decodeStream bytes with
        | none => rfl
        | some r =>
          dsimp only at h
          rw [hrest] at h
          cases h
      by_cases hreason : (o.onData parse [b]).reason = none
      · obtain ⟨hdecoder, hstop⟩ := hlistens hreason
        rw [← hdecoder] at hrest
        rcases ih (hlive.onData hreason) (hinv.onData hlive hreason) hrest with
          hinvalid | ⟨x, y, decoder', text', rfl, hx, hcompletes, hy⟩
        · exact .inl hinvalid
        · refine .inr ⟨b :: x, y, decoder', text ++ text', rfl, ?_, hstop text' hcompletes, hy⟩
          rw [hdecoder] at hx
          rw [TextDecoder.decodeStream, hbyte]
          dsimp only
          rw [hx]
          rfl
      · rcases hcancelled hreason with hinvalid | hcompletes
        · left
          rw [scan_reason hreason, hinvalid]
        · exact .inr ⟨[b], bytes, decoder, text, rfl, hone, hcompletes, hrest⟩

/-! ## Runs -/

theorem run_bytes (hattached : o.sourceDataAttached = true) (bytes : List UInt8) :
    run parse o (bytes.map fun b => .data [b]) = scan parse o bytes := by
  induction bytes generalizing o with
  | nil => rfl
  | cons b bytes ih =>
    have hstep : step parse o (.data [b]) = o.onData parse [b] := by
      simp only [step, hattached, if_true]
    show run parse (step parse o (.data [b])) _ = scan parse (o.onData parse [b]) bytes
    rw [hstep]
    exact ih ((onData_attached [b]).trans hattached)

theorem run_bytes_detached (hattached : o.sourceDataAttached = false) (bytes : List UInt8) :
    run parse o (bytes.map fun b => .data [b]) = o := by
  induction bytes with
  | nil => rfl
  | cons b bytes ih =>
    have hstep : step parse o (.data [b]) = o := by
      simp only [step, hattached, Bool.false_eq_true, if_false]
    show run parse (step parse o (.data [b])) _ = o
    rw [hstep]
    exact ih

/-- An observer that can still be cancelled has scanned what it got. -/
def Inv (o : ShutdownControlObserver) : Prop := Live o → ScanInv o

theorem Inv.cancel : Inv (o.cancel r) := by
  intro hlive
  by_cases hnot : Live o
  · rw [cancel_of_live hnot] at hlive
    cases hlive.1
  · rw [cancel_of_not_live hnot] at hlive
    exact absurd hlive hnot

theorem Inv.step (hinv : Inv o) (event : Event) : Inv (step parse o event) := by
  cases event with
  | data chunk =>
    show Inv (if o.sourceDataAttached then o.onData parse chunk else o)
    split
    · intro hlive'
      by_cases hlive : Live o
      · exact (hinv hlive).onData hlive hlive'.1
      · rw [onData_of_not_live hlive] at hlive'
        exact absurd hlive' hlive
    · exact hinv
  | ended =>
    show Inv (o.onEnd parse)
    unfold onEnd
    split
    · exact hinv
    · split
      · exact .cancel
      · dsimp only
        split
        · exact .cancel
        · split <;> exact .cancel
  | sourceError | sourceClose | targetError => exact .cancel
  | targetUnpipe own =>
    show Inv (if o.disposed then o else o.onTargetUnpipe own)
    unfold onTargetUnpipe
    split_ifs
    · exact hinv
    · exact hinv
    · exact fun hlive => ⟨⟨(hinv hlive).single, (hinv hlive).bytes, (hinv hlive).size⟩,
        (hinv hlive).counted⟩
    · exact fun hlive => ⟨⟨(hinv hlive).single, (hinv hlive).bytes, (hinv hlive).size⟩,
        (hinv hlive).counted⟩
  | takeOver t =>
    show Inv (o.takeOverAfterChildClose t).1
    unfold takeOverAfterChildClose
    split
    · exact hinv
    · split
      · exact .cancel
      · split
        · exact .cancel
        · dsimp only
          split
          · exact fun hlive => ⟨⟨(hinv hlive).single, (hinv hlive).bytes, (hinv hlive).size⟩,
              (hinv hlive).counted⟩
          · exact .cancel
  | finish =>
    show Inv o.finishGraceWindow
    unfold finishGraceWindow
    split
    · exact .cancel
    · exact hinv
  | dispose =>
    show Inv o.dispose
    unfold ShutdownControlObserver.dispose
    split
    · exact hinv
    · intro hlive
      cases hlive.2

theorem Inv.run (hinv : Inv o) (events : List Event) : Inv (run parse o events) := by
  induction events generalizing o with
  | nil => exact hinv
  | cons event events ih => exact ih (hinv.step event)

theorem inv_observe (attaches sourceOver : Bool) : Inv (observe attaches sourceOver) := by
  have hnew : Inv ⟨.new, [], 0, 0, none, false, attaches, false, false⟩ := by
    refine fun _ => ⟨⟨List.not_mem_nil, rfl, ?_⟩, 0, rfl, Int.le_refl 0⟩
    show 0 < maxControlFrameBytes
    decide
  unfold observe
  dsimp only
  split_ifs
  · have hdispose : ∀ o, Inv o → Inv (step (fun _ => none) o .dispose) := fun o h => h.step .dispose
    exact hdispose _ .cancel
  · exact .cancel
  · exact hnew

theorem step_same {event : Event} (hsame : SameReason o o') (hinv : Inv o')
    (h : ∀ x y, event = .data (x ++ y) → ¬ StopThenInvalid parse o' x y) :
    SameReason (step parse o event) (run parse o' (single event)) := by
  rcases hsame with rfl | ⟨heq, hne⟩
  · cases event with
    | data chunk =>
      show SameReason (if o.sourceDataAttached then o.onData parse chunk else o) _
      by_cases hattached : o.sourceDataAttached = true
      · rw [if_pos hattached, single, run_bytes hattached]
        by_cases hlive : Live o
        · cases hdecode : o.decoder.decodeStream chunk with
          | some r => exact scan_same parse hlive (hinv hlive) hdecode
          | none =>
            rcases scan_invalid parse hlive (hinv hlive) hdecode with
              hinvalid | ⟨x, y, decoder, text, rfl, hx, hstop, hy⟩
            · right
              rw [onData_of_invalid hlive hdecode, hinvalid]
              exact ⟨rfl, by simp⟩
            · exact absurd ⟨hlive.1, hlive.2, hattached, decoder, text, hx, hstop, hy⟩
                (h x y rfl)
        · left
          rw [onData_of_not_live hlive, scan_of_not_live hlive]
      · left
        rw [if_neg hattached, single, run_bytes_detached (Bool.eq_false_iff.mpr hattached)]
    | _ => exact .inl rfl
  · right
    rw [step_reason parse (by rw [heq]; exact hne), run_reason hne]
    exact ⟨heq, hne⟩

variable {events : List Event}

theorem run_same (hsame : SameReason o o') (hinv : Inv o')
    (h : ∀ u x y w, singles events = u ++ single (.data (x ++ y)) ++ w → ¬ StopThenInvalid parse (run parse o' u) x y) :
    SameReason (run parse o events) (run parse o' (singles events)) := by
  induction events generalizing o o' with
  | nil => exact hsame
  | cons event events ih =>
    have hstep : SameReason (step parse o event) (run parse o' (single event)) :=
      step_same hsame hinv fun x y heq => h [] x y (singles events) (by rw [heq]; rfl)
    show SameReason (run parse (step parse o event) events)
      (run parse o' (single event ++ singles events))
    rw [run_append]
    apply ih hstep (hinv.run _)
    intro u x y w heq
    rw [← run_append]
    apply h (single event ++ u) x y w
    show single event ++ singles events = _
    rw [heq]
    simp only [List.append_assoc]

/-! ## Frames that are received -/

/-- Whatever the observer listens to, the bytes alone count. -/
def listening (o : ShutdownControlObserver) : ShutdownControlObserver :=
  { o with sourceDataAttached := true, pipeRetired := false, takenOver := false }

theorem onData_listening (chunk : List UInt8) :
    (listening o).onData parse chunk = listening (o.onData parse chunk) := by
  have haccept : ∀ (o : ShutdownControlObserver) text,
      (listening o).acceptText parse text = listening (o.acceptText parse text) := by
    intro o text
    have hothers := acceptText_others parse o text
    have h : (withOthers (listening o) o).acceptText parse text =
        withOthers (listening o) (o.acceptText parse text) := acceptText_withOthers text
    rw [hothers]
    exact h
  have hcancel : ∀ (o : ShutdownControlObserver) r,
      (listening o).cancel r = listening (o.cancel r) := by
    intro o r
    unfold cancel listening
    dsimp only
    split <;> rfl
  unfold ShutdownControlObserver.onData
  show (if o.reason ≠ none ∨ o.disposed = true then _ else _) = _
  split
  · rfl
  · have hdecoder : (listening o).decoder = o.decoder := rfl
    rw [hdecoder]
    cases o.decoder.decodeStream chunk with
    | none => exact hcancel _ _
    | some r =>
      obtain ⟨decoder, text⟩ := r
      show (if o.decoderPendingBytes + taken chunk text < 0 then _ else _) =
        listening (if o.decoderPendingBytes + taken chunk text < 0 then _ else _)
      split
      · exact hcancel (decoded o decoder (taken chunk text)) _
      · exact haccept (decoded o decoder (taken chunk text)) _

theorem scan_listening (bytes : List UInt8) :
    scan parse (listening o) bytes = listening (scan parse o bytes) := by
  induction bytes generalizing o with
  | nil => rfl
  | cons b bytes ih =>
    show scan parse ((listening o).onData parse [b]) bytes = _
    rw [onData_listening, ih]
    rfl

theorem step_disposed (hdisposed : o.disposed = true) (hattached : o.sourceDataAttached = false)
    (event : Event) : step parse o event = o := by
  have hlive : ¬ Live o := fun hlive => by
    rw [hlive.2] at hdisposed
    cases hdisposed
  cases event with
  | data chunk => simp only [step, hattached, Bool.false_eq_true, if_false]
  | ended =>
    simp only [step, onEnd]
    rw [if_pos (.inr hdisposed)]
  | sourceError | sourceClose | targetError => exact cancel_of_not_live hlive
  | targetUnpipe own => simp only [step, hdisposed, if_true]
  | takeOver t =>
    simp only [step, takeOverAfterChildClose]
    rw [if_pos (.inl hdisposed)]
  | finish => simp only [step, finishGraceWindow, cancel_of_not_live hlive, ite_self]
  | dispose => simp only [step, ShutdownControlObserver.dispose, hdisposed, if_true]

theorem onEnd_reason (hlive : Live o) : (o.onEnd parse).reason ≠ none := by
  unfold onEnd
  rw [if_neg (fun hnot => not_live_iff.mpr hnot hlive)]
  unfold TextDecoder.decode
  by_cases hkept : o.decoder.kept.isSome = true
  · rw [if_pos hkept]
    dsimp only
    rw [cancel_of_live hlive]
    simp
  · rw [if_neg hkept]
    have hlive' : Live { o with decoder := .new } := hlive
    have hcancel : ∀ r, (cancel { o with decoder := .new } r).reason ≠ none := by
      intro r
      rw [cancel_of_live hlive']
      simp
    dsimp only
    split
    · exact hcancel _
    · split <;> exact hcancel _

theorem step_listening (hlive : Live o) {event : Event} (hdata : ∀ chunk, event ≠ .data chunk)
    (h : (step parse o event).reason = none) :
    Live (step parse o event) ∧ listening (step parse o event) = listening o ∨
      (step parse o event).disposed = true ∧ (step parse o event).sourceDataAttached = false := by
  have hcancel : ∀ r, (o.cancel r).reason ≠ none := by
    intro r
    rw [cancel_of_live hlive]
    simp
  cases event with
  | data chunk => exact absurd rfl (hdata chunk)
  | ended => exact absurd h (onEnd_reason hlive)
  | sourceError | sourceClose | targetError => exact absurd h (hcancel _)
  | targetUnpipe own =>
    left
    have hstep : step parse o (.targetUnpipe own) = o.onTargetUnpipe own := by
      simp only [step, hlive.2, Bool.false_eq_true, if_false]
    rw [hstep]
    unfold onTargetUnpipe
    split_ifs <;> exact ⟨hlive, rfl⟩
  | takeOver t =>
    left
    change (o.takeOverAfterChildClose t).1.reason = none at h
    show Live (o.takeOverAfterChildClose t).1 ∧ listening (o.takeOverAfterChildClose t).1 = _
    unfold takeOverAfterChildClose at h ⊢
    split
    · exact ⟨hlive, rfl⟩
    · rename_i hcond
      rw [if_neg hcond] at h
      split
      · rename_i hretired
        rw [hretired] at h
        exact absurd h (hcancel _)
      · rename_i retired hretired
        rw [hretired] at h
        dsimp only at h
        split
        · rename_i hcond'
          rw [if_pos hcond'] at h
          exact absurd h (hcancel _)
        · rename_i hcond'
          rw [if_neg hcond'] at h
          dsimp only
          split
          · exact ⟨hlive, rfl⟩
          · rename_i hresumes
            rw [if_neg hresumes] at h
            have hlive' : Live { o with takenOver := true, sourceDataAttached := true } := hlive
            rw [cancel_of_live hlive'] at h
            cases h
  | finish =>
    left
    change o.finishGraceWindow.reason = none at h
    show Live o.finishGraceWindow ∧ listening o.finishGraceWindow = _
    unfold finishGraceWindow at h ⊢
    split
    · rename_i hcond
      rw [if_pos hcond] at h
      exact absurd h (hcancel _)
    · exact ⟨hlive, rfl⟩
  | dispose =>
    right
    show o.dispose.disposed = true ∧ o.dispose.sourceDataAttached = false
    unfold ShutdownControlObserver.dispose
    rw [if_neg (by rw [hlive.2]; decide)]
    exact ⟨rfl, rfl⟩

theorem received_disposed (hdisposed : o.disposed = true) (hattached : o.sourceDataAttached = false)
    (events : List Event) : received parse o events = [] := by
  induction events with
  | nil => rfl
  | cons event events ih =>
    cases event <;>
      simp only [received, step_disposed hdisposed hattached, ih, hattached, Bool.false_eq_true,
        if_false, List.append_nil]

theorem scan_received (hlive : Live o) (hinv : Inv o) (h : (run parse o events).reason = none) :
    (scan parse (listening o) (received parse o events)).reason = none := by
  induction events generalizing o with
  | nil => exact hlive.1
  | cons event events ih =>
    change (run parse (step parse o event) events).reason = none at h
    have hreason : (step parse o event).reason = none := by
      by_contra hnot
      rw [run_reason hnot] at h
      exact hnot h
    by_cases hdata : ∃ chunk, event = .data chunk
    · obtain ⟨chunk, rfl⟩ := hdata
      rw [received]
      by_cases hattached : o.sourceDataAttached = true
      · have hstep : step parse o (.data chunk) = o.onData parse chunk := by
          simp only [step, hattached, if_true]
        rw [hstep] at h hreason ⊢
        have hscan : scan parse o chunk = o.onData parse chunk := by
          cases hdecode : o.decoder.decodeStream chunk with
          | none =>
            rw [onData_of_invalid hlive hdecode] at hreason
            cases hreason
          | some r =>
            rcases scan_same parse hlive (hinv hlive) hdecode with heq | ⟨heq, hne⟩
            · exact heq.symm
            · rw [heq] at hreason
              exact absurd hreason hne
        rw [if_pos hattached, scan_append, scan_listening, hscan]
        refine ih (hlive.onData hreason) ?_ h
        rw [← hstep]
        exact hinv.step _
      · have hstep : step parse o (.data chunk) = o := by
          simp only [step, hattached, Bool.false_eq_true, if_false]
        rw [hstep] at h ⊢
        rw [if_neg hattached, List.nil_append]
        exact ih hlive hinv h
    · have hdata' : ∀ chunk, event ≠ .data chunk := fun chunk heq => hdata ⟨chunk, heq⟩
      have hreceived : received parse o (event :: events) =
          received parse (step parse o event) events := by
        cases event with
        | data chunk => exact absurd rfl (hdata' chunk)
        | _ => rfl
      rw [hreceived]
      rcases step_listening hlive hdata' hreason with ⟨hlive', heq⟩ | ⟨hdisposed, hattached⟩
      · rw [← heq]
        exact ih hlive' (hinv.step event) h
      · rw [received_disposed hdisposed hattached]
        exact hlive.1

theorem scan_disposed (bytes : List UInt8) : (scan parse o bytes).disposed = o.disposed := by
  induction bytes generalizing o with
  | nil => rfl
  | cons b bytes ih =>
    show (scan parse (o.onData parse [b]) bytes).disposed = _
    rw [ih, onData_disposed]

theorem scan_part (hlive : Live o) (hinv : ScanInv o) {x y : List UInt8}
    (h : (scan parse o (x ++ y)).reason = none) :
    Live (scan parse o x) ∧ ScanInv (scan parse o x) := by
  have hreason : (scan parse o x).reason = none := by
    by_contra hnot
    rw [scan_append, scan_reason hnot] at h
    exact hnot h
  refine ⟨⟨hreason, (scan_disposed x).trans hlive.2⟩, ?_⟩
  clear h
  induction x generalizing o with
  | nil => exact hinv
  | cons b x ih =>
    change (scan parse (o.onData parse [b]) x).reason = none at hreason
    have hone : (o.onData parse [b]).reason = none := by
      by_contra hnot
      rw [scan_reason hnot] at hreason
      exact hnot hreason
    exact ih (hlive.onData hone) (hinv.onData hlive hone) hreason

theorem scan_newline (hlive : Live o) (hinv : ScanInv o)
    (h : (scan parse o [10]).reason = none) :
    (scan parse o [10]).pending = [] ∧ (scan parse o [10]).decoder = ⟨none, true⟩ := by
  change (o.onData parse [10]).reason = none at h
  show (o.onData parse [10]).pending = [] ∧ (o.onData parse [10]).decoder = _
  obtain ⟨n, hkeeps, -⟩ := hinv.counted
  cases hbyte : o.decoder.byte 10 with
  | none =>
    rw [onData_of_invalid hlive (by rw [TextDecoder.decodeStream_singleton, hbyte])] at h
    cases h
  | some r =>
    obtain ⟨decoder, text⟩ := r
    obtain ⟨rfl, rfl⟩ := TextDecoder.byte_newline hkeeps hbyte
    have hone : o.decoder.decodeStream [10] = some (⟨none, true⟩, ['\n']) := by
      rw [TextDecoder.decodeStream_singleton, hbyte]
    obtain ⟨hdata, -⟩ := onData_of_decodeStream parse hlive hinv hone
    rw [hdata, acceptText_decoded] at h ⊢
    refine ⟨?_, rfl⟩
    change (o.acceptCharacter parse '\n').reason = none at h
    show (o.acceptCharacter parse '\n').pending = []
    cases acceptCharacter_step parse hlive hinv.toLineInv '\n' with
    | invalid hnot =>
      rw [hnot] at h
      cases h
    | plain _ hpending hinv' =>
      -- no line holds the end of a line
      refine absurd ?_ hinv'.single
      rw [hpending]
      exact List.mem_append_right _ List.mem_cons_self
    | frame _ _ _ _ hpending => exact hpending
    | cancel _ _ _ hnot =>
      rw [h] at hnot
      rcases hnot with hnot | hnot <;> cases hnot

theorem scan_frame (hlive : Live o) (hinv : ScanInv o) (hpending : o.pending = [])
    (hkept : o.decoder.kept = none)
    (hbom : o.decoder.bomSeen = true ∨ text.head? ≠ some byteOrderMark) (htext : '\n' ∉ text)
    (hcode : frameCode parse text = some stopCode ∨ frameCode parse text = some killCode) :
    (scan parse o (encodeChars (text ++ crlf))).reason ≠ none := by
  intro h
  have hhead : o.decoder.bomSeen = true ∨ (text ++ crlf).head? ≠ some byteOrderMark := by
    rcases hbom with hbom | hbom
    · exact .inl hbom
    · right
      cases text with
      | nil => decide
      | cons c text => exact hbom
  have hdecoder : o.decoder = ⟨none, o.decoder.bomSeen⟩ := by rw [← hkept]
  have hdecode := TextDecoder.decodeStream_encodeChars hhead
  rw [← hdecoder] at hdecode
  obtain ⟨hdata, -⟩ := onData_of_decodeStream parse hlive hinv hdecode
  have hreason := (scan_same parse hlive hinv hdecode).reason_eq.trans h
  rw [hdata, acceptText_decoded] at hreason
  change (o.acceptText parse (text ++ crlf)).reason = none at hreason
  have hsplit : text ++ crlf = (text ++ ['\r']) ++ ['\n'] := by simp [crlf]
  have hline : (o.acceptText parse (text ++ ['\r'])).reason = none := by
    by_contra hnot
    rw [hsplit, acceptText_append, acceptText_reason hnot] at hreason
    exact hnot hreason
  have hmem : '\n' ∉ text ++ ['\r'] := by
    intro hmem
    rcases List.mem_append.mp hmem with hmem | hmem
    · exact htext hmem
    · simp at hmem
  have hsize := size_of_acceptText hmem hinv.toLineInv hlive hline
  have hcr : byteLength ['\r'] = 1 := rfl
  have hfits : Fits text := by
    refine ⟨htext, ?_⟩
    rw [byteLength_append] at hsize
    omega
  have hstop : CompletesStop parse o.pending (text ++ crlf) := by
    rw [hpending]
    exact ⟨[], text, rfl, (fun _ h => absurd h List.not_mem_nil), hfits, hcode⟩
  rcases reason_of_completesStop hlive hinv.toLineInv hstop with hnot | hnot
  all_goals
    rw [hreason] at hnot
    cases hnot

theorem observe_fields (attaches sourceOver : Bool) :
    (observe attaches sourceOver).pending = [] ∧ (observe attaches sourceOver).decoder = .new := by
  cases attaches <;> cases sourceOver <;> exact ⟨rfl, rfl⟩

theorem live_observe {attaches sourceOver : Bool}
    (h : (run parse (observe attaches sourceOver) events).reason = none) :
    Live (observe attaches sourceOver) := by
  have hreason : (observe attaches sourceOver).reason = none := by
    by_contra hnot
    rw [run_reason hnot] at h
    exact hnot h
  cases attaches <;> cases sourceOver
  · cases hreason
  · cases hreason
  · exact ⟨rfl, rfl⟩
  · cases hreason

theorem reason_of_holdsFrame {attaches sourceOver : Bool}
    (h : HoldsFrame parse (received parse (observe attaches sourceOver) events)) :
    (run parse (observe attaches sourceOver) events).reason ≠ none := by
  intro hreason
  have hlive := live_observe hreason
  have hinv := inv_observe attaches sourceOver
  obtain ⟨hpending, hdecoder⟩ := observe_fields attaches sourceOver
  have hscan := scan_received hlive hinv hreason
  have hinv' : ScanInv (listening (observe attaches sourceOver)) :=
    ⟨⟨(hinv hlive).single, (hinv hlive).bytes, (hinv hlive).size⟩, (hinv hlive).counted⟩
  have hlive' : Live (listening (observe attaches sourceOver)) := hlive
  obtain ⟨before, text, rest, hbytes, hbefore, htext, hhead, hcode⟩ := h
  rw [hbytes] at hscan
  generalize hstart : listening (observe attaches sourceOver) = o at hscan hinv' hlive'
  have hpending' : o.pending = [] := by
    rw [← hstart]
    exact hpending
  have hdecoder' : o.decoder = .new := by
    rw [← hstart]
    exact hdecoder
  have hlast := (scan_part hlive' hinv' hscan).1.1
  rw [scan_append] at hlast
  rw [List.append_assoc] at hscan
  obtain ⟨hlive₁, hinv₁⟩ := scan_part hlive' hinv' hscan
  -- the frame begins a line
  have hbegins :
      (scan parse o before).pending = [] ∧ (scan parse o before).decoder.kept = none := by
    rcases hbefore with rfl | rfl | hnewline
    · exact ⟨hpending', by rw [show scan parse o [] = o from rfl, hdecoder']; rfl⟩
    · have hbom := TextDecoder.decodeStream_encodeChar byteOrderMark false
      rw [show (⟨none, false⟩ : TextDecoder) = o.decoder from hdecoder'.symm] at hbom
      obtain ⟨hdata, -⟩ := onData_of_decodeStream parse hlive' hinv' hbom
      have hsame := scan_same parse hlive' hinv' hbom
      rw [show encodeChars [byteOrderMark] = String.utf8EncodeChar byteOrderMark from
        List.append_nil _] at hlive₁ ⊢
      rcases hsame with heq | ⟨-, hnot⟩
      · rw [← heq, hdata]
        exact ⟨hpending', rfl⟩
      · exact absurd hlive₁.1 hnot
    · obtain ⟨lines, rfl⟩ := List.getLast?_eq_some_iff.mp hnewline
      obtain ⟨hlive₂, hinv₂⟩ := scan_part hlive' hinv' hlive₁.1
      have hreason₁ := hlive₁.1
      rw [scan_append] at hreason₁ ⊢
      obtain ⟨hpending₁, hdecoder₁⟩ := scan_newline hlive₂ hinv₂ hreason₁
      exact ⟨hpending₁, by rw [hdecoder₁]⟩
  exact scan_frame hlive₁ hinv₁ hbegins.1 hbegins.2 (.inr hhead) htext hcode hlast

/-! ## The grace period -/

theorem finishGraceWindow_reason (h : o.finishGraceWindow.reason = none) : o.reason = none := by
  by_contra hnot
  unfold finishGraceWindow at h
  rw [if_neg fun hcond => hnot hcond.1] at h
  exact hnot h

theorem reason_of_wait_elapsed {durationMs : ℕ} {eligible : Bool} {t : Takeover} {timer : Timer}
    (h : (waitForRunnerShutdownGrace parse durationMs eligible o true t timer events).status = .elapsed) :
    (run parse o events).finishGraceWindow.reason = none := by
  unfold waitForRunnerShutdownGrace at h
  split at h
  · cases h
  · split at h
    · cases h
    · split at h
      · cases h
      · -- only a timer that ends by itself lets the period elapse
        rename_i hreason
        simp only [if_true, Bool.true_eq_false, if_false, hreason] at h
        cases timer with
        | throws => cases h
        | rejects =>
          dsimp only at h
          split at h <;> cases h
        | resolves =>
          dsimp only at h
          split at h
          · cases h
          · cases h
          · assumption

theorem reason_of_elapsed {durationMs : ℕ} {eligible : Bool} {t : Takeover} {timer : Timer}
    (h : (disconnectAfterRunnerShutdownGrace parse durationMs eligible (some o) t timer events).status = .elapsed) :
    (run parse o (.takeOver t :: events)).reason = none := by
  show (run parse (o.takeOverAfterChildClose t).1 events).reason = none
  apply finishGraceWindow_reason
  unfold disconnectAfterRunnerShutdownGrace at h
  split at h
  · cases h
  · split at h
    · cases h
    · cases h
    · split at h
      · cases h
      · dsimp only at h
        split at h
        · cases h
        · split at h
          · cases h
          · cases h
          · exact reason_of_wait_elapsed h

/-! ## The chunks and the reason -/

variable (parse)

/-- The reason is that of the same events in any other chunks, and no grace period elapses that has
got a complete `STOP` or `KILL` frame. -/
structure ChunksIrrelevant (attaches sourceOver : Bool) (events : List Event) : Prop where
  reason : ∀ events', singles events' = singles events →
    (run parse (observe attaches sourceOver) events').reason =
      (run parse (observe attaches sourceOver) events).reason
  elapsed : ∀ before t during durationMs eligible timer,
    events = before ++ .takeOver t :: during →
      HoldsFrame parse (received parse (observe attaches sourceOver) events) →
        (disconnectAfterRunnerShutdownGrace parse durationMs eligible
          (some (run parse (observe attaches sourceOver) before)) t timer during).status ≠ .elapsed

theorem singles_append (events events' : List Event) :
    singles (events ++ events') = singles events ++ singles events' := List.flatMap_append

theorem singles_single (event : Event) : singles (single event) = single event := by
  cases event with
  | data chunk =>
    show singles (chunk.map fun b => .data [b]) = chunk.map fun b => .data [b]
    induction chunk with
    | nil => rfl
    | cons b chunk ih =>
      show single (.data [b]) ++ singles (chunk.map fun b => .data [b]) = _
      rw [ih]
      rfl
  | _ => rfl

theorem singles_singles (events : List Event) : singles (singles events) = singles events := by
  induction events with
  | nil => rfl
  | cons event events ih =>
    show singles (single event ++ singles events) = single event ++ singles events
    rw [singles_append, singles_single, ih]

theorem reason_ne_of_stopThenInvalid {x y : List UInt8} (hinv : Inv o)
    (h : StopThenInvalid parse o x y) (w : List Event) :
    (run parse o (.data (x ++ y) :: w)).reason ≠
      (run parse o (single (.data (x ++ y)) ++ w)).reason := by
  have hlive : Live o := ⟨h.reason, h.disposed⟩
  obtain ⟨decoder, text, hx, hstop, hy⟩ := h.invalid
  have hdecode : o.decoder.decodeStream (x ++ y) = none := by
    rw [TextDecoder.decodeStream_append, hx, Option.bind_some]
    dsimp only
    rw [hy]
    rfl
  have hchunk : step parse o (.data (x ++ y)) = { o with reason := some .observationInvalid } := by
    show (if o.sourceDataAttached then o.onData parse (x ++ y) else o) = _
    rw [if_pos h.attached]
    exact onData_of_invalid hlive hdecode
  have hwhole : (run parse o (.data (x ++ y) :: w)).reason = some .observationInvalid := by
    show (run parse (step parse o (.data (x ++ y))) w).reason = _
    rw [hchunk, run_reason]
    simp
  obtain ⟨hdata, -⟩ := onData_of_decodeStream parse hlive (hinv hlive) hx
  have hstopped : (scan parse o x).reason = some .stop ∨ (scan parse o x).reason = some .kill := by
    have hsame := scan_same parse hlive (hinv hlive) hx
    rw [← hsame.reason_eq, hdata, acceptText_decoded]
    exact reason_of_completesStop hlive (hinv hlive).toLineInv hstop
  have hne : (scan parse o x).reason ≠ none := by rcases hstopped with hr | hr <;> rw [hr] <;> simp
  have hbytes : (run parse o (single (.data (x ++ y)) ++ w)).reason = (scan parse o x).reason := by
    rw [run_append, single, run_bytes h.attached, scan_append, scan_reason hne, run_reason hne]
  rw [hwhole, hbytes]
  rcases hstopped with hr | hr <;> rw [hr] <;> simp

/-- How the bytes are cut is irrelevant exactly if no `STOP` or `KILL` frame that the observer gets
is followed, before another event, by bytes that are not UTF-8. -/
theorem chunksIrrelevant_iff (attaches sourceOver : Bool) (events : List Event) :
    ChunksIrrelevant parse attaches sourceOver events ↔
      ∀ u x y w, singles events = u ++ single (.data (x ++ y)) ++ w →
        ¬ StopThenInvalid parse (run parse (observe attaches sourceOver) u) x y := by
  have hinv := inv_observe attaches sourceOver
  constructor
  · intro h u x y w heq hstop
    have hsingles := singles_singles events
    have hchunk : singles (u ++ .data (x ++ y) :: w) = singles events := by
      rw [← hsingles, heq, singles_append, singles_append, singles_append, singles_single,
        List.append_assoc]
      rfl
    have hone := h.reason _ hchunk
    have hmany := h.reason _ hsingles
    rw [heq, List.append_assoc, run_append] at hmany
    rw [run_append] at hone
    exact reason_ne_of_stopThenInvalid parse (hinv.run u) hstop w (hone.trans hmany.symm)
  · intro h
    have hreason : ∀ events', singles events' = singles events →
        (run parse (observe attaches sourceOver) events').reason =
          (run parse (observe attaches sourceOver) (singles events)).reason := by
      intro events' heq
      have hsame : SameReason (run parse (observe attaches sourceOver) events')
          (run parse (observe attaches sourceOver) (singles events')) :=
        run_same (.inl rfl) hinv (by rw [heq]; exact h)
      rw [← heq]
      exact hsame.reason_eq
    refine ⟨fun events' heq => (hreason events' heq).trans (hreason events rfl).symm, ?_⟩
    rintro before t during durationMs eligible timer rfl hframe helapsed
    have hnone := reason_of_elapsed helapsed
    rw [← run_append] at hnone
    exact reason_of_holdsFrame hframe hnone

/-- `JSON.parse` where it is read: a `STOP` frame, and nothing else. -/
def parseStop (line : List Char) : Option Json :=
  if line = "[4001,{}]".toList then some (.arr [.num (.ofNat 4001), .obj []]) else none

/-- A `STOP` frame and a byte that is not UTF-8 are an invalid observation in one chunk, and a stop
in two. -/
theorem stop_lost_in_chunk :
    ¬ ChunksIrrelevant parseStop true false
      [.data (asciiBytes "[4001,{}]\r\n".toList ++ [0xFF])] := by
  intro h
  have hreason := h.reason
    [.data (asciiBytes "[4001,{}]\r\n".toList), .data [0xFF]] rfl
  have hpieces : (run parseStop (observe true false)
      [.data (asciiBytes "[4001,{}]\r\n".toList), .data [0xFF]]).reason = some .stop := by
    decide
  have hwhole : (run parseStop (observe true false)
      [.data (asciiBytes "[4001,{}]\r\n".toList ++ [0xFF])]).reason =
        some .observationInvalid := by
    decide
  rw [hpieces, hwhole] at hreason
  cases hreason

end TransformHub.Runner.ShutdownControl
