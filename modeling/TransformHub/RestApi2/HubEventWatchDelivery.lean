import TransformHub.RestApi2.HubEventWatchRun

/-!
# What a client watch delivers

`watch_delivers` collects what holds in every run of a client watch, whatever the chunks, the
observers, the timers and the consumer do.
-/

namespace TransformHub.RestApi2

open Js HubState

namespace ClientRun

/-- In every run the consumer is given a prefix of the events of the body, linked to each other, each
`next` settles once, and nothing comes after the one terminal. Two watches of one body, however it is
cut, accept the same events and report the same code. -/
theorem watch_delivers {parse : List Char → ParsedLine} {kind : HubWatchKind} {r : ClientRun}
    (h : (system parse kind).Reachable System.anyStep r) :
    (WellFormed r.watch.delivered ∧ ∀ f ∈ r.watch.delivered, f.IsEvent ∧ f.kind = kind) ∧
      (r.watch.settled.map Prod.fst ++ r.watch.pending = List.range r.watch.calls ∧
        (r.watch.terminal.isSome → r.watch.pending = [])) ∧
      (r.watch.pump = .returned → r.watch.terminal.isSome) ∧
      (∀ a, r.watch.Kept (r.next parse a).watch) ∧
      r.watch.delivered <+: r.watch.accepted ∧
      (∀ b, r.FedBy b → r.watch.accepted <+: (b.outcome parse kind).1) ∧
      ∀ r' b, (system parse kind).Reachable System.anyStep r' → r.FedBy b → r'.FedBy b →
        ∀ e e', r.watch.terminal = some (.lost e) → r'.watch.terminal = some (.lost e') →
          e.FromBody → e'.FromBody →
            r.watch.accepted = r'.watch.accepted ∧ e.code = e'.code := by
  have hinv := inv_of_reachable h
  have hcore := hinv.core
  -- what the run has got is a body that feeds it
  have hpart := hcore.given.trans (hinv.accepted_isPrefix (.of_eq rfl))
  obtain ⟨hwell, hevents⟩ := outcome_sound parse kind r.got
  refine ⟨⟨wellFormed_of_isPrefix hpart hwell, fun f hf => hevents f (hpart.subset hf)⟩,
    ⟨hcore.order, fun hs => (hcore.spent hs).1⟩, fun hpump => ?_, kept_next hcore, hcore.given,
    fun b hb => hinv.accepted_isPrefix hb, ?_⟩
  · have hprogress := hinv.progress
    rw [Progress, hpump] at hprogress
    exact hprogress.1
  · intro r' b h' hb hb' e e' he he' hbody hbody'
    have heq := hinv.outcome_eq hb he hbody
    rw [(inv_of_reachable h').outcome_eq hb' he' hbody', Prod.mk.injEq] at heq
    exact ⟨heq.1.symm, heq.2.symm⟩

/-! ### Two cuts of one body -/

def sampleCursor (position : String) : String :=
  "\x7b\"hubId\":\"h\",\"epoch\":\"e\",\"position\":" ++ position ++ "\x7d"

def sampleSnapshot : List Char :=
  ("\x7b\"type\":\"snapshot\",\"kind\":\"topic\",\"cursor\":" ++ sampleCursor "1" ++
    ",\"items\":[]\x7d").toList

/-- The line of a change that leads on from it. -/
def sampleChange : List Char :=
  ("\x7b\"type\":\"change\",\"cursor\":" ++ sampleCursor "2" ++ ",\"previousCursor\":" ++
    sampleCursor "1" ++ ",\"kind\":\"topic\",\"action\":\"remove\",\"topic\":\"t\"," ++
    "\"value\":null\x7d").toList

/-- What these lines are read as; other lines are no JSON. -/
def sampleParse (line : List Char) : ParsedLine :=
  if line = sampleSnapshot then .frame (.snapshot .topic ⟨"h", "e", 1⟩ [])
  else if line = sampleChange then
    .frame (.change .topic (.record [("kind", some (.str "topic")), ("action", some (.str "remove")),
      ("topic", some (.str "t")), ("value", some .null)]) ⟨"h", "e", 2⟩ ⟨"h", "e", 1⟩)
  else .malformed

def sampleBytes (line : List Char) : List UInt8 := (line ++ ['\n']).flatMap String.utf8EncodeChar

def sampleResponse : OpenedResponse := ⟨200, true, "application/x-ndjson"⟩

/-- The three lines in one chunk: the consumer asks again when its promise has settled. -/
def atOnce : List Action :=
  [.next, .opened sampleResponse,
    .chunk (sampleBytes sampleSnapshot ++ sampleBytes sampleChange ++ sampleBytes ['x']),
    .observerReturned, .observerReturned, .observerReturned, .observerReturned, .next]

def lineByLine : List Action :=
  [.next, .opened sampleResponse, .chunk (sampleBytes sampleSnapshot), .observerReturned,
    .observerReturned, .next, .chunk (sampleBytes sampleChange), .observerReturned,
    .observerReturned, .next, .chunk (sampleBytes ['x'])]

def sampleRun (actions : List Action) : ClientRun :=
  actions.foldl (ClientRun.next sampleParse) (start (.opening .topic))

theorem reachable_sampleRun (actions : List Action) :
    (system sampleParse .topic).Reachable System.anyStep (sampleRun actions) :=
  System.Reachable.foldl (fun _ _ => rfl) (.init (Or.inl rfl)) actions

/-- The error that both cuts lead to. -/
def sampleError : HubWatchError :=
  ⟨.protocolError, "Malformed watch JSON", some ⟨"h", "e", 2⟩, {}⟩

theorem sampleRun_facts : (sampleRun atOnce).got = (sampleRun lineByLine).got ∧
    (sampleRun atOnce).watch.terminal = some (.lost sampleError) ∧
      (sampleRun lineByLine).watch.terminal = some (.lost sampleError) ∧
        (sampleRun atOnce).watch.delivered.length = 1 ∧
          (sampleRun lineByLine).watch.delivered.length = 2 := by
  delta sampleRun sampleParse atOnce lineByLine sampleSnapshot sampleChange sampleCursor
  -- the kernel is slow with long texts
  simp only [String.toList_append, -String.reduceToList]
  decide +kernel

/-- The same bytes give the consumer other events when they come in one chunk: the change is still
queued when the line after it ends the watch. -/
theorem chunking_changes_delivery :
    ∃ r r' : ClientRun, (system sampleParse .topic).Reachable System.anyStep r ∧
      (system sampleParse .topic).Reachable System.anyStep r' ∧ r.got = r'.got ∧
        r.watch.terminal = r'.watch.terminal ∧ r.watch.terminal.isSome ∧
          r.watch.delivered ≠ r'.watch.delivered := by
  obtain ⟨hgot, hterminal, hterminal', hlength, hlength'⟩ := sampleRun_facts
  refine ⟨_, _, reachable_sampleRun atOnce, reachable_sampleRun lineByLine, hgot,
    hterminal.trans hterminal'.symm, by rw [hterminal]; rfl, fun heq => ?_⟩
  rw [heq, hlength'] at hlength
  cases hlength

/-- Both cuts have the watch accept the same events and report the same code. -/
theorem watch_delivers_cuts :
    (sampleRun atOnce).watch.accepted = (sampleRun lineByLine).watch.accepted ∧
      WellFormed (sampleRun lineByLine).watch.delivered := by
  obtain ⟨hgot, hterminal, hterminal', -, -⟩ := sampleRun_facts
  have hbody : sampleError.FromBody := ⟨by decide, by decide, by decide⟩
  have h := watch_delivers (reachable_sampleRun lineByLine)
  exact ⟨((h.2.2.2.2.2.2 _ _ (reachable_sampleRun atOnce) (.of_eq rfl) (.of_eq hgot) _ _ hterminal'
    hterminal hbody hbody).1).symm, h.1.1⟩

end ClientRun

end TransformHub.RestApi2
