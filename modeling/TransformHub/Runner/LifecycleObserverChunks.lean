import TransformHub.Runner.LifecycleObserver

/-!
# Chunks of the lifecycle observer

How the bytes are cut into chunks is irrelevant as long as no chunk ends within a character and the
window of code units holds what is pending together with the chunk.
-/

namespace TransformHub.Runner.LifecycleObserver

open Js Observer

variable (parse : List ℕ → Option Json)

/-! ## Careful chunks -/

/-- What is pending and the chunk fit into the window, or a terminal frame has been observed. -/
def FitsWindow (o : Observer) (chunk : List UInt8) : Prop :=
  o.observed = true ∨
    o.legacyPending.length + (units (decodeChars chunk)).length ≤ maxBufferBytes

/-- No chunk ends within a character that goes on, and each fits into the window. -/
def CarefulRun : Observer → List (List UInt8) → Prop
  | _, [] => True
  | o, chunk :: chunks =>
    ((StringDecoder.write none chunk).1 = none ∨ chunks.flatten = []) ∧ FitsWindow o chunk ∧
      CarefulRun (o.onData parse chunk) chunks

/-- All allowed ways to cut the bytes give the same reports, and `observed()` tells whether there is
a terminal line. -/
structure ChunkInvariant (allowed : List (List UInt8) → Prop) (bytes : List UInt8) : Prop where
  same : ∀ chunks chunks', chunks.flatten = bytes → chunks'.flatten = bytes → allowed chunks →
    allowed chunks' →
      (observe parse new chunks).observed = (observe parse new chunks').observed ∧
      (observe parse new chunks).snapshot = (observe parse new chunks').snapshot ∧
      (observe parse new chunks).onEnd.snapshot = (observe parse new chunks').onEnd.snapshot
  observed : ∀ chunks, chunks.flatten = bytes → allowed chunks →
    ((observe parse new chunks).observed = true ↔
      HoldsTerminalLine parse (units (decodeChars bytes)))

/-! ## The search for a terminal frame -/

variable {parse} {o : Observer}

theorem units_append (s t : List Char) : units (s ++ t) = units s ++ units t :=
  List.flatMap_append

theorem inspectLines_append (parse : List ℕ → Option Json) (line us vs : List ℕ) :
    inspectLines parse line (us ++ vs) =
      if (inspectLines parse line us).1 then (true, [])
      else inspectLines parse (inspectLines parse line us).2 vs := by
  induction us generalizing line with
  | nil => rfl
  | cons u us ih =>
    rw [List.cons_append, inspectLines, inspectLines]
    by_cases hu : u = lf
    · rw [if_pos hu, if_pos hu]
      by_cases hline : inspectLine parse (withoutCr line) = true
      · rw [if_pos hline, if_pos hline]
        rfl
      · rw [if_neg hline, if_neg hline]
        exact ih []
    · rw [if_neg hu, if_neg hu]
      exact ih _

theorem inspectLines_of_notMem {line us : List ℕ} (h : lf ∉ us) :
    inspectLines parse line us = (false, line ++ us) := by
  induction us generalizing line with
  | nil => simp [inspectLines]
  | cons u us ih =>
    have hu : u ≠ lf := fun hnot => h (hnot ▸ List.mem_cons_self)
    rw [inspectLines, if_neg hu, ih fun hmem => h (List.mem_cons_of_mem _ hmem),
      List.append_assoc]
    rfl

theorem inspectLines_rest (parse : List ℕ → Option Json) {line : List ℕ} (us : List ℕ)
    (h : lf ∉ line) :
    lf ∉ (inspectLines parse line us).2 ∧
      ((inspectLines parse line us).1 = true → (inspectLines parse line us).2 = []) := by
  induction us generalizing line with
  | nil => exact ⟨h, nofun⟩
  | cons u us ih =>
    rw [inspectLines]
    split
    · split
      · exact ⟨List.not_mem_nil, fun _ => rfl⟩
      · exact ih List.not_mem_nil
    · rename_i hu
      apply ih
      intro hmem
      rcases List.mem_append.mp hmem with hmem | hmem
      · exact h hmem
      · exact hu (List.mem_singleton.mp hmem).symm

theorem HoldsTerminalLine.mem {text : List ℕ} (h : HoldsTerminalLine parse text) : lf ∈ text := by
  obtain ⟨before, line, rest, rfl, -⟩ := h
  simp

theorem holdsTerminalLine_cons {line us : List ℕ} (hline : lf ∉ line) :
    HoldsTerminalLine parse (line ++ lf :: us) ↔
      inspectLine parse (withoutCr line) = true ∨ HoldsTerminalLine parse us := by
  constructor
  · rintro ⟨before, line', rest, heq, hbefore | hbefore, hline', hinspect⟩
    · subst hbefore
      rw [List.nil_append] at heq
      rcases List.append_eq_append_iff.mp heq with ⟨as, h₁, h₂⟩ | ⟨as, h₁, h₂⟩
      · cases as with
        | nil =>
          rw [List.append_nil] at h₁
          exact .inl (h₁ ▸ hinspect)
        | cons a as =>
          refine absurd ?_ hline'
          rw [h₁, (List.cons.inj h₂).1]
          simp
      · cases as with
        | nil =>
          rw [List.append_nil] at h₁
          exact .inl (h₁ ▸ hinspect)
        | cons a as =>
          refine absurd ?_ hline
          rw [h₁, (List.cons.inj h₂).1]
          simp
    · right
      obtain ⟨lines, rfl⟩ := List.getLast?_eq_some_iff.mp hbefore
      rw [List.append_assoc, List.append_assoc, List.singleton_append] at heq
      rcases List.append_eq_append_iff.mp heq with ⟨as, h₁, h₂⟩ | ⟨as, h₁, h₂⟩
      · cases as with
        | nil => exact ⟨[], line', rest, (List.cons.inj h₂).2, .inl rfl, hline', hinspect⟩
        | cons a as =>
          refine ⟨as ++ [lf], line', rest, ?_, .inr List.getLast?_concat, hline', hinspect⟩
          rw [(List.cons.inj h₂).2]
          simp
      · cases as with
        | nil => exact ⟨[], line', rest, (List.cons.inj h₂).2.symm, .inl rfl, hline', hinspect⟩
        | cons a as =>
          refine absurd ?_ hline
          rw [h₁, ← (List.cons.inj h₂).1]
          simp
  · rintro (hinspect | ⟨before, line', rest, rfl, hbefore, hline', hinspect⟩)
    · exact ⟨[], line, us, rfl, .inl rfl, hline, hinspect⟩
    · refine ⟨line ++ lf :: before, line', rest, by simp, .inr ?_, hline', hinspect⟩
      rcases hbefore with rfl | hbefore
      · exact List.getLast?_concat
      · obtain ⟨lines, rfl⟩ := List.getLast?_eq_some_iff.mp hbefore
        rw [← List.cons_append, ← List.append_assoc]
        exact List.getLast?_concat

theorem inspectLines_iff {line us : List ℕ} (hline : lf ∉ line) :
    (inspectLines parse line us).1 = true ↔ HoldsTerminalLine parse (line ++ us) := by
  induction us generalizing line with
  | nil =>
    constructor
    · exact nofun
    · intro h
      have hmem := h.mem
      rw [List.append_nil] at hmem
      exact absurd hmem hline
  | cons u us ih =>
    rw [inspectLines]
    by_cases hu : u = lf
    · subst hu
      rw [if_pos rfl, holdsTerminalLine_cons hline]
      by_cases hinspect : inspectLine parse (withoutCr line) = true
      · rw [if_pos hinspect]
        exact ⟨fun _ => .inl hinspect, fun _ => rfl⟩
      · rw [if_neg hinspect, ih List.not_mem_nil, List.nil_append]
        exact ⟨.inr, fun h => h.resolve_left hinspect⟩
    · rw [if_neg hu, ih]
      · rw [List.append_assoc]
        rfl
      · intro hmem
        rcases List.mem_append.mp hmem with hmem | hmem
        · exact hline hmem
        · exact hu (List.mem_singleton.mp hmem).symm

/-! ## The classifier -/

/-- The classifier with another search. -/
def withSearch (search : Bool × List ℕ) (o : Observer) : Observer :=
  { o with observed := search.1, legacyPending := search.2 }

theorem classifyReady_withSearch (search : Bool × List ℕ) (o : Observer) (payload : Json) :
    (withSearch search o).classifyReady payload = withSearch search (o.classifyReady payload) ∧
      (o.classifyReady payload).disposed = o.disposed := by
  unfold classifyReady
  split
  · split
    · exact ⟨rfl, rfl⟩
    · split_ifs <;> exact ⟨rfl, rfl⟩
  · exact ⟨rfl, rfl⟩

theorem classifyLine_withSearch (parse : List ℕ → Option Json) (search : Bool × List ℕ)
    (o : Observer) (line : List Char) :
    (withSearch search o).classifyLine parse line = withSearch search (o.classifyLine parse line) ∧
      (o.classifyLine parse line).disposed = o.disposed := by
  unfold classifyLine
  split
  · split
    · exact ⟨rfl, rfl⟩
    · split
      · exact ⟨rfl, rfl⟩
      · split
        · exact classifyReady_withSearch _ _ _
        · split_ifs <;> exact ⟨rfl, rfl⟩
  · exact ⟨rfl, rfl⟩

theorem classifyCharacter_withSearch (parse : List ℕ → Option Json) (search : Bool × List ℕ)
    (o : Observer) (c : Char) :
    (withSearch search o).classifyCharacter parse c =
        withSearch search (o.classifyCharacter parse c) ∧
      (o.classifyCharacter parse c).disposed = o.disposed := by
  unfold classifyCharacter
  by_cases hvalid : o.valid = false
  · rw [if_pos hvalid, if_pos (show (withSearch search o).valid = false from hvalid)]
    exact ⟨rfl, rfl⟩
  rw [if_neg hvalid, if_neg (show ¬ (withSearch search o).valid = false from hvalid)]
  by_cases hc : c = '\n'
  · rw [if_pos hc, if_pos hc]
    show (if maxBufferBytes < o.classificationBytes + 1 then _ else _) = _ ∧ _
    split
    · exact ⟨rfl, rfl⟩
    · dsimp only
      obtain ⟨hline, hdisposed⟩ := classifyLine_withSearch parse search o
        (if o.classificationPending.getLast? = some '\r' then
          o.classificationPending.dropLast else o.classificationPending)
      refine ⟨?_, hdisposed⟩
      show ({ (withSearch search o).classifyLine parse
          (if o.classificationPending.getLast? = some '\r' then o.classificationPending.dropLast
            else o.classificationPending) with
        classificationPending := [], classificationBytes := 0 } : Observer) = _
      rw [hline]
      rfl
  · rw [if_neg hc, if_neg hc]
    dsimp only
    show (if maxBufferBytes < o.classificationBytes + (String.utf8EncodeChar c).length then _
      else _) = _ ∧ _
    split <;> exact ⟨rfl, rfl⟩

theorem classifyText_withSearch (parse : List ℕ → Option Json) (search : Bool × List ℕ)
    (o : Observer) (text : List Char) :
    (withSearch search o).classifyText parse text = withSearch search (o.classifyText parse text) ∧
      (o.classifyText parse text).disposed = o.disposed := by
  induction text generalizing o with
  | nil => exact ⟨rfl, rfl⟩
  | cons c text ih =>
    obtain ⟨hstep, hdisposed⟩ := classifyCharacter_withSearch parse search o c
    obtain ⟨htext, hdisposed'⟩ := ih (o.classifyCharacter parse c)
    refine ⟨?_, hdisposed'.trans hdisposed⟩
    show classifyText parse ((withSearch search o).classifyCharacter parse c) text = _
    rw [hstep, htext]
    rfl

theorem classifyText_append (s t : List Char) :
    o.classifyText parse (s ++ t) = (o.classifyText parse s).classifyText parse t :=
  List.foldl_append

/-! ## Runs -/

variable (parse)

/-- What an observer is after a text that has come in careful chunks. -/
def after (text : List Char) : Observer :=
  withSearch (inspectLines parse [] (units text)) (new.classifyText parse text)

variable {parse}

theorem inspectText_after {text : List Char} {chunk : List UInt8}
    (h : FitsWindow (after parse text) chunk) :
    (after parse text).inspectText parse (decodeChars chunk) =
      withSearch (inspectLines parse [] (units (text ++ decodeChars chunk)))
        (new.classifyText parse text) := by
  obtain ⟨hrest, hnil⟩ := inspectLines_rest parse (units text) List.not_mem_nil
  have happend := inspectLines_append parse [] (units text) (units (decodeChars chunk))
  unfold inspectText
  by_cases hobserved : (inspectLines parse [] (units text)).1 = true
  · rw [if_pos (show (after parse text).observed = true from hobserved), units_append, happend,
      if_pos hobserved]
    show withSearch (inspectLines parse [] (units text)) _ = _
    rw [show inspectLines parse [] (units text) = (true, []) from
      Prod.ext hobserved (hnil hobserved)]
  · rw [if_neg (show ¬ (after parse text).observed = true from hobserved)]
    have hwindow : window ((after parse text).legacyPending ++ units (decodeChars chunk)) =
        (inspectLines parse [] (units text)).2 ++ units (decodeChars chunk) := by
      unfold window
      rw [if_neg]
      · rfl
      · rw [List.length_append]
        exact Nat.not_lt.mpr (h.resolve_left hobserved)
    -- what is pending has no end of a line, so that the search goes on where it was
    have hpending := inspectLines_append parse []
      (inspectLines parse [] (units text)).2 (units (decodeChars chunk))
    rw [inspectLines_of_notMem hrest] at hpending
    rw [hwindow, hpending, units_append, happend, if_neg hobserved]
    rfl

theorem onData_after {text : List Char} {chunk : List UInt8}
    (h : FitsWindow (after parse text) chunk) :
    (after parse text).onData parse chunk = after parse (text ++ decodeChars chunk) := by
  have hdisposed : (after parse text).disposed = false :=
    (classifyText_withSearch parse (false, []) new text).2
  unfold Observer.onData
  rw [if_neg (by rw [hdisposed]; decide)]
  show classifyText parse ((after parse text).inspectText parse (decodeChars chunk)) _ = _
  rw [inspectText_after h, (classifyText_withSearch _ _ _ _).1, ← classifyText_append]
  rfl

theorem observe_careful {text : List Char} {chunks : List (List UInt8)}
    (h : CarefulRun parse (after parse text) chunks) :
    observe parse (after parse text) chunks = after parse (text ++ decodeChars chunks.flatten) := by
  induction chunks generalizing text with
  | nil =>
    rw [List.flatten_nil, show decodeChars [] = [] from rfl, List.append_nil]
    rfl
  | cons chunk chunks ih =>
    obtain ⟨hends, hfits, hrest⟩ := h
    show observe parse ((after parse text).onData parse chunk) chunks = _
    rw [onData_after hfits] at hrest ⊢
    rw [ih hrest, List.append_assoc, List.flatten_cons]
    congr 2
    rcases hends with hends | hends
    · have hwrite : StringDecoder.write none chunk = (none, decodeChars chunk) := by
        refine Prod.ext hends ?_
        unfold decodeChars
        rw [hends]
        exact (List.append_nil _).symm
      rw [decodeChars_append_of_none hwrite]
    · rw [hends, List.append_nil, show decodeChars [] = [] from rfl, List.append_nil]

theorem units_ascii {text : List Char} (h : ∀ c ∈ text, c.toNat < 128) :
    units text = text.map Char.toNat := by
  unfold units
  rw [List.map_eq_flatMap]
  refine List.flatMap_congr fun c hc => ?_
  have hlt := h c hc
  unfold codeUnits
  rw [if_pos (by omega)]

theorem decodeChars_ascii {text : List Char} (h : ∀ c ∈ text, c.toNat < 128) :
    StringDecoder.write none (asciiBytes text) = (none, text) ∧
      decodeChars (asciiBytes text) = text := by
  have hwrite := StringDecoder.write_ascii text h
  change StringDecoder.write none (asciiBytes text) = (none, text) at hwrite
  refine ⟨hwrite, ?_⟩
  unfold decodeChars
  rw [hwrite]
  exact List.append_nil _

/-- Whatever the bytes are, all careful ways to cut them give the same reports. -/
theorem chunkInvariant_careful (parse : List ℕ → Option Json) (bytes : List UInt8) :
    ChunkInvariant parse (CarefulRun parse new) bytes := by
  have hafter : ∀ chunks : List (List UInt8), chunks.flatten = bytes → CarefulRun parse new chunks →
      observe parse new chunks = after parse (decodeChars bytes) := by
    intro chunks hbytes hcareful
    have hrun : observe parse (after parse []) chunks =
        after parse ([] ++ decodeChars chunks.flatten) := observe_careful hcareful
    rw [← hbytes]
    exact hrun
  constructor
  · intro chunks chunks' hbytes hbytes' hcareful hcareful'
    rw [hafter chunks hbytes hcareful, hafter chunks' hbytes' hcareful']
    exact ⟨rfl, rfl, rfl⟩
  · intro chunks hbytes hcareful
    rw [hafter chunks hbytes hcareful]
    have hsearch : (inspectLines parse [] (units (decodeChars bytes))).1 = true ↔
        HoldsTerminalLine parse ([] ++ units (decodeChars bytes)) :=
      inspectLines_iff List.not_mem_nil
    exact hsearch

/-! ## Without care -/

/-- `JSON.parse` where it is read: a frame `SEQUENCE_COMPLETED`, and nothing else. -/
def parseCompleted (line : List ℕ) : Option Json :=
  if line = "[3011,{}]".toList.map Char.toNat then
    some (.arr [.num (.ofNat 3011), .obj []])
  else none

/-- `SEQUENCE_COMPLETED`, as text. -/
def completedFrame : List Char := "[3011,{}]\r\n".toList

theorem classifyText_observed (text : List Char) :
    (o.classifyText parse text).observed = o.observed := by
  have hsearch := congrArg Observer.observed
    (classifyText_withSearch parse (o.observed, o.legacyPending) o text).1
  exact hsearch

theorem observed_of_observed {chunk : List UInt8} (h : o.observed = true) :
    (o.onData parse chunk).observed = true := by
  unfold Observer.onData
  split
  · exact h
  · dsimp only
    rw [classifyText_observed]
    unfold inspectText
    rw [if_pos h]
    exact h

theorem observe_nil : observe parse o [] = o := rfl

theorem observe_cons (chunk : List UInt8) (chunks : List (List UInt8)) :
    observe parse o (chunk :: chunks) = observe parse (o.onData parse chunk) chunks := rfl

theorem inspectText_new (text : List Char) :
    (new.inspectText parse text).observed = (inspectLines parse [] (window (units text))).1 := rfl

theorem window_long {text long : List Char} (hlong : (units long).length = maxBufferBytes)
    (htext : text ≠ []) : window (units (text ++ long)) = units long := by
  have hpos : 0 < (units text).length := by
    cases text with
    | nil => exact absurd rfl htext
    | cons c text =>
      show 0 < (codeUnits c ++ units text).length
      unfold codeUnits
      split <;> simp
  unfold window
  rw [units_append, List.length_append, hlong, if_pos (by omega), Nat.add_sub_cancel]
  exact List.drop_left

/-- A terminal frame that comes in one chunk with a long text without the end of a line falls out of
the window. -/
theorem frame_lost {long : List Char} (hascii : ∀ c ∈ long, c.toNat < 128) (hlf : lf ∉ units long)
    (hlong : (units long).length = maxBufferBytes) :
    ¬ ChunkInvariant parseCompleted (fun _ => True) (asciiBytes (completedFrame ++ long)) := by
  intro h
  have hbytes : asciiBytes (completedFrame ++ long) =
      asciiBytes completedFrame ++ asciiBytes long := List.map_append
  have hsame := (h.same [asciiBytes (completedFrame ++ long)]
    [asciiBytes completedFrame, asciiBytes long] (List.append_nil _)
    (by rw [hbytes]; simp) trivial trivial).1
  have hfirst :
      (Observer.onData parseCompleted new (asciiBytes completedFrame)).observed = true := by
    decide
  have hpieces : (observe parseCompleted new
      [asciiBytes completedFrame, asciiBytes long]).observed = true := by
    rw [observe_cons, observe_cons, observe_nil]
    exact observed_of_observed hfirst
  have hframe : completedFrame.all (fun c => c.toNat < 128) = true := by decide
  have hall : ∀ c ∈ completedFrame ++ long, c.toNat < 128 := by
    intro c hc
    rcases List.mem_append.mp hc with hc | hc
    · simpa using List.all_eq_true.mp hframe c hc
    · exact hascii c hc
  have hwhole : (observe parseCompleted new
      [asciiBytes (completedFrame ++ long)]).observed = false := by
    rw [observe_cons, observe_nil]
    unfold Observer.onData
    rw [if_neg (by decide), (decodeChars_ascii hall).2, classifyText_observed, inspectText_new,
      window_long hlong (by decide), inspectLines_of_notMem hlf]
  rw [hpieces, hwhole] at hsame
  cases hsame

/-- `SEQUENCE_COMPLETED` and as much text as the window holds, in one chunk and in two. -/
theorem completedFrame_lost_in_chunk :
    ¬ ChunkInvariant parseCompleted (fun _ => True)
      (asciiBytes (completedFrame ++ List.replicate maxBufferBytes 'x')) := by
  have hascii : ∀ c ∈ List.replicate maxBufferBytes 'x', c.toNat < 128 := by
    intro c hc
    rw [List.eq_of_mem_replicate hc]
    decide
  have hunits := units_ascii hascii
  rw [List.map_replicate] at hunits
  apply frame_lost hascii
  · rw [hunits]
    intro hmem
    have hlf := List.eq_of_mem_replicate hmem
    revert hlf
    decide
  · rw [hunits]
    exact List.length_replicate

end TransformHub.Runner.LifecycleObserver
