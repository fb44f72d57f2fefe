import TransformHub.RestApi2.HubEventWatchPromises

/-!
# Runs of a client watch

A run is a watch with what it has got of the body.
-/

namespace TransformHub.RestApi2

open Js HubState

/-- A watch, with what it has got of the body. -/
structure ClientRun where
  watch : HubEventWatch
  got : Body
  /-- the request or the body has ended or failed -/
  ended : Bool

namespace ClientRun

/-- What can happen to a watch. The pump takes a chunk only when it awaits one, and a timer fires
only while no observer runs; the consumer and the observers may make their calls at any time. -/
inductive Action where
  | opened (response : OpenedResponse)
  | failed
  | chunk (bytes : List UInt8)
  | ended
  | observerReturned
  | next
  | close
  | abort
  | openTimeout
  | silence (expired : Bool)

variable (parse : List Char → ParsedLine)

def next (r : ClientRun) : Action → ClientRun
  | .opened response =>
    match r.watch.pump with
    | .opening =>
      { r with
        watch := r.watch.onOpened response, got := { r.got with response := some response } }
    | _ => r
  | .failed =>
    match r.watch.pump with
    | .opening => { r with watch := r.watch.onFailed, ended := true }
    | .reading => { r with watch := r.watch.onFailed, ended := true }
    | _ => r
  | .chunk bytes =>
    match r.watch.pump with
    | .reading =>
      { r with
        watch := r.watch.onChunk parse bytes
        got := { r.got with bytes := r.got.bytes ++ bytes } }
    | _ => r
  | .ended =>
    match r.watch.pump with
    | .reading => { r with watch := r.watch.onEnd, ended := true }
    | _ => r
  | .observerReturned =>
    match r.watch.pump with
    | .framed frame => { r with watch := r.watch.afterFramed parse frame }
    | .observed frame => { r with watch := r.watch.afterObserved parse frame }
    | _ => r
  | .next => { r with watch := r.watch.callNext }
  | .close => { r with watch := r.watch.close }
  | .abort => { r with watch := r.watch.abort }
  | .openTimeout =>
    match r.watch.pump with
    | .framed _ => r
    | .observed _ => r
    | _ => { r with watch := r.watch.onOpenTimeout }
  | .silence expired =>
    match r.watch.pump with
    | .framed _ => r
    | .observed _ => r
    | _ => { r with watch := r.watch.onSilence expired }

def start (watch : HubEventWatch) : ClientRun := ⟨watch, ⟨none, []⟩, false⟩

/-- The runs of a watch of a kind; its signal may have been aborted before. -/
def system (kind : HubWatchKind) : System ClientRun Action where
  init := fun r => r = start (.opening kind) ∨ r = start (.alreadyAborted kind)
  step := fun r a r' => r' = r.next parse a

/-- What the run has got is part of this body, and all of it once the body has ended. -/
structure FedBy (r : ClientRun) (b : Body) : Prop where
  bytes : r.got.bytes <+: b.bytes
  response : r.got.response.isSome → r.got.response = b.response
  whole : r.ended = true → r.got = b

theorem FedBy.of_eq {r : ClientRun} {b : Body} (h : r.got = b) : r.FedBy b := by
  subst h
  exact ⟨List.prefix_rfl, fun _ => rfl, fun _ => rfl⟩

/-! ### The pump follows the lines -/

/-- The lines `ls` have been taken off the text of the bytes. -/
structure Read (r : ClientRun) (ls : List (List Char)) : Prop where
  response : ∃ o, r.got.response = some o ∧ o.rejection = none
  going : r.ended = false
  text : ∃ consumed, StringDecoder.write none r.got.bytes =
    (r.watch.decoder, consumed ++ r.watch.text) ∧ Lines.lines '\n' consumed = (ls, [])

/-- The watch has come as far as the scan. -/
structure At (w : HubEventWatch) (s : Scan) : Prop where
  going : s.stopped = none
  cursor : w.cursor = s.reached
  gotSnapshot : w.gotSnapshot = s.reached.isSome
  accepted : w.accepted = s.events

end ClientRun

/-- The error was raised for what the body carries: it is no timeout, and not that the consumer was
too slow. -/
def HubWatchError.FromBody (e : HubWatchError) : Prop :=
  e.code ≠ .openTimeout ∧ e.code ≠ .silenceTimeout ∧
    ¬ (e.code = .overflow ∧ e.details.side = some .client)

namespace ClientRun

/-- The terminal has been selected by somebody else than the pump. -/
def Foreign (w : HubEventWatch) : Prop :=
  ∀ e, w.terminal = some (.lost e) → ¬ e.FromBody

section Invariant

variable (parse : List Char → ParsedLine) (kind : HubWatchKind)

/-- The run has come to what the body leads to. -/
def Outcome (r : ClientRun) : Prop :=
  ∀ b, r.FedBy b → r.watch.accepted <+: (b.outcome parse kind).1 ∧
    ∀ e, r.watch.terminal = some (.lost e) → e.FromBody →
      b.outcome parse kind = (r.watch.accepted, e.code)

/-- Where the pump is, between the lines. -/
def Progress (r : ClientRun) : Prop :=
  match r.watch.pump with
  | .opening =>
    r.got = ⟨none, []⟩ ∧ r.ended = false ∧ At r.watch .start ∧ r.watch.decoder = none ∧ r.watch.text = []
  | .reading => '\n' ∉ r.watch.text ∧ ∃ ls, r.Read ls ∧ At r.watch (Scan.run parse kind ls)
  | .framed frame =>
    ∃ ls line, r.Read (ls ++ [line]) ∧ readLine parse kind line = .ok frame ∧
      At r.watch (Scan.run parse kind ls)
  | .observed frame =>
    ∃ ls, r.Read ls ∧ At { r.watch with accepted := r.watch.accepted ++ [frame] }
      (Scan.run parse kind ls) ∧
        ((∃ k cursor items, frame = .snapshot k cursor items) → r.watch.accepted = [])
  | .returned => r.watch.terminal.isSome ∧ r.Outcome parse kind

structure Inv (r : ClientRun) : Prop where
  core : r.watch.Core
  requested : r.watch.kind = kind
  foreign : r.watch.terminal.isSome → r.watch.pump ≠ .returned → Foreign r.watch
  progress : r.Progress parse kind

end Invariant

section Laws

variable {parse : List Char → ParsedLine} {kind : HubWatchKind} {r : ClientRun} {b : Body}
  {ls : List (List Char)}

theorem Inv.foreign_of_pump (h : Inv parse kind r) (hpump : r.watch.pump ≠ .returned) :
    Foreign r.watch := by
  intro e he
  exact h.foreign (by rw [he]; rfl) hpump e he

theorem Read.lines_isPrefix (h : r.Read ls) (hb : r.FedBy b) : ls <+: b.lines := by
  obtain ⟨consumed, htext, hlines⟩ := h.text
  obtain ⟨more, hmore⟩ := hb.bytes
  rw [Body.lines, ← hmore, StringDecoder.write_append, htext, List.append_assoc,
    Lines.lines_append, hlines]
  exact List.prefix_append _ _

theorem Read.lines_eq (h : r.Read ls) (hrest : '\n' ∉ r.watch.text) (hb : r.got = b) :
    b.lines = ls := by
  obtain ⟨consumed, htext, hlines⟩ := h.text
  rw [Body.lines, ← hb, htext, Lines.lines_append, hlines, List.nil_append,
    Lines.lines_of_notMem hrest, List.append_nil]

theorem Read.outcome_eq (h : r.Read ls) (hb : r.FedBy b) :
    b.outcome parse kind = ((Scan.run parse kind b.lines).events,
      (Scan.run parse kind b.lines).stopped.getD .disconnected) := by
  obtain ⟨o, ho, hrejection⟩ := h.response
  have hresponse := hb.response (by rw [ho]; rfl)
  rw [ho] at hresponse
  rw [Body.outcome, ← hresponse]
  simp only [hrejection]

theorem Read.events_isPrefix (h : r.Read ls) (hb : r.FedBy b) :
    (Scan.run parse kind ls).events <+: (b.outcome parse kind).1 := by
  obtain ⟨more, hmore⟩ := h.lines_isPrefix hb
  rw [h.outcome_eq hb, ← hmore, Scan.run_append]
  exact Scan.events_isPrefix _ _

theorem Read.outcome_of_stopped (h : r.Read ls) (hb : r.FedBy b) {code : HubWatchErrorCode}
    (hstopped : (Scan.run parse kind ls).stopped = some code) :
    b.outcome parse kind = ((Scan.run parse kind ls).events, code) := by
  obtain ⟨more, hmore⟩ := h.lines_isPrefix hb
  rw [h.outcome_eq hb, ← hmore, Scan.run_append,
    Scan.foldl_of_stopped (by rw [hstopped]; rfl), hstopped]
  rfl

theorem Inv.lost_stop (hcore : r.watch.Core) (hkind : r.watch.kind = kind)
    (hforeign : Foreign r.watch) (code : HubWatchErrorCode) (message : String)
    (details : HubWatchErrorDetails)
    (hout : ∀ b, r.FedBy b → b.outcome parse kind = (r.watch.accepted, code)) :
    Inv parse kind { r with watch := (r.watch.lost code message details).stop } := by
  have haccepted : (r.watch.lost code message details).accepted = r.watch.accepted :=
    HubEventWatch.accepted_selectTerminal _
  have hterminal : (r.watch.lost code message details).terminal = some (r.watch.terminal.getD _) :=
    HubEventWatch.terminal_selectTerminal _
  refine ⟨(hcore.selectTerminal _).stop, ?_, fun _ hne => absurd rfl hne, ?_, fun b hb => ?_⟩
  · exact (HubEventWatch.kind_selectTerminal _).trans hkind
  · show (r.watch.lost code message details).terminal.isSome
    rw [hterminal]
    rfl
  · have heq := hout b ⟨hb.bytes, hb.response, hb.whole⟩
    refine ⟨?_, fun e he hbody => ?_⟩
    · show (r.watch.lost code message details).accepted <+: _
      rw [haccepted, heq]
    · have he : (r.watch.lost code message details).terminal = some (.lost e) := he
      rw [hterminal] at he
      show _ = ((r.watch.lost code message details).accepted, e.code)
      rw [haccepted, heq]
      cases ht : r.watch.terminal with
      | none =>
        rw [ht] at he
        cases he
        rfl
      | some t =>
        rw [ht] at he
        cases he
        exact absurd hbody (hforeign e ht)

theorem Inv.foreign_stop (hcore : r.watch.Core) (hkind : r.watch.kind = kind)
    (hforeign : Foreign r.watch) (hsome : r.watch.terminal.isSome)
    (hout : ∀ b, r.FedBy b → r.watch.accepted <+: (b.outcome parse kind).1) :
    Inv parse kind { r with watch := r.watch.stop } :=
  ⟨hcore.stop, hkind, fun _ hne => absurd rfl hne, hsome,
    fun b hb => ⟨hout b ⟨hb.bytes, hb.response, hb.whole⟩,
      fun e he hbody => absurd hbody (hforeign e he)⟩⟩

theorem Read.congr (h : r.Read ls) {w : HubEventWatch} (hdecoder : w.decoder = r.watch.decoder)
    (htext : w.text = r.watch.text) : ({ r with watch := w } : ClientRun).Read ls := by
  refine ⟨h.response, h.going, ?_⟩
  show ∃ consumed, _ = (w.decoder, consumed ++ w.text) ∧ _
  rw [hdecoder, htext]
  exact h.text

theorem Inv.nextFrame (hcore : r.watch.Core) (hkind : r.watch.kind = kind)
    (hforeign : Foreign r.watch) (hread : r.Read ls) (hat : At r.watch (Scan.run parse kind ls)) :
    Inv parse kind { r with watch := r.watch.nextFrame parse } := by
  unfold HubEventWatch.nextFrame
  split
  next hnone =>
    refine ⟨hcore.steer _ _ _ _ _ _ _ _, hkind, fun _ _ => hforeign, ?_⟩
    exact ⟨Lines.nextLine_eq_none.mp hnone, ls, hread.congr rfl rfl, ⟨hat.1, hat.2, hat.3, hat.4⟩⟩
  next line rest hline =>
    obtain ⟨htext, hnot⟩ := Lines.nextLine_eq_some hline
    have hread' : ({ r with watch := { r.watch with text := rest } } : ClientRun).Read
        (ls ++ [line]) := by
      obtain ⟨consumed, hbytes, hlines⟩ := hread.text
      refine ⟨hread.response, hread.going, consumed ++ (line ++ ['\n']), ?_, ?_⟩
      · rw [hbytes, htext]
        simp
      · rw [Lines.lines_append, hlines, List.nil_append, Lines.lines_line hnot]
        rfl
    have hcore' : ({ r.watch with text := rest } : HubEventWatch).Core :=
      hcore.steer _ _ _ _ _ _ _ _
    have hstep : Scan.run parse kind (ls ++ [line]) =
        (Scan.run parse kind ls).line parse kind line := by
      rw [Scan.run_append]
      rfl
    rw [Scan.line, hat.going] at hstep
    split
    next message hmessage =>
      rw [hkind] at hmessage
      rw [hmessage] at hstep
      refine Inv.lost_stop (r := { r with watch := { r.watch with text := rest } }) hcore' hkind
        hforeign _ _ _ fun b hb => ?_
      have hstopped : (Scan.run parse kind (ls ++ [line])).stopped = some .protocolError := by
        rw [hstep]
        rfl
      rw [hread'.outcome_of_stopped hb hstopped, hstep]
      exact congrArg (·, _) hat.accepted.symm
    next frame hframe =>
      rw [hkind] at hframe
      exact ⟨hcore'.steer _ _ _ _ _ _ _ _, hkind, fun _ _ => hforeign, ls, line,
        hread'.congr rfl rfl, hframe, ⟨hat.1, hat.2, hat.3, hat.4⟩⟩

theorem Inv.afterFramed (h : Inv parse kind r) {frame : ClientFrame}
    (hpump : r.watch.pump = .framed frame) :
    Inv parse kind { r with watch := r.watch.afterFramed parse frame } := by
  have hprogress := h.progress
  rw [Progress, hpump] at hprogress
  obtain ⟨ls, line, hread, hframe, hat⟩ := hprogress
  have hforeign := h.foreign_of_pump (by rw [hpump]; simp)
  have hstep : Scan.run parse kind (ls ++ [line]) = (Scan.run parse kind ls).frame frame := by
    rw [Scan.run_append, List.foldl_cons, List.foldl_nil, Scan.line, hat.going, hframe]
    rfl
  unfold HubEventWatch.afterFramed
  rw [Scan.frame, ← hat.gotSnapshot, ← hat.cursor] at hstep
  split
  next code message details hcheck =>
    rw [hcheck] at hstep
    refine Inv.lost_stop h.core h.requested hforeign _ _ _ fun b hb => ?_
    have hstopped : (Scan.run parse kind (ls ++ [line])).stopped = some code := by rw [hstep]
    rw [hread.outcome_of_stopped hb hstopped, hstep]
    exact congrArg (·, _) hat.accepted.symm
  next hcheck =>
    rw [hcheck] at hstep
    have hread' : ({ r with watch := r.watch.setSilenceDeadline } : ClientRun).Read
        (ls ++ [line]) := hread.congr rfl rfl
    exact Inv.nextFrame (r := { r with watch := r.watch.setSilenceDeadline })
      (h.core.steer _ _ _ _ _ _ _ _) h.requested hforeign hread'
      (hstep ▸ ⟨hat.1, hat.2, hat.3, hat.4⟩)
  next cursor hcheck =>
    rw [hcheck] at hstep
    refine ⟨h.core.steer _ _ _ _ _ _ _ _, h.requested, fun _ _ => hforeign, ls ++ [line],
      hread.congr rfl rfl, ?_, ?_⟩
    · rw [hstep]
      exact ⟨hat.going, rfl, rfl, congrArg (· ++ [frame]) hat.accepted⟩
    · rintro ⟨k, c, items, rfl⟩
      have hnone : (Scan.run parse kind ls).reached = none := by
        by_contra hne
        have hgot : r.watch.gotSnapshot = true := by
          rw [hat.gotSnapshot]
          exact Option.isSome_iff_ne_none.mpr hne
        simp [checkFrame, hgot] at hcheck
      exact hat.accepted.trans ((Scan.sound_run parse kind ls).empty hnone)

theorem Inv.afterObserved (h : Inv parse kind r) {frame : ClientFrame}
    (hpump : r.watch.pump = .observed frame) :
    Inv parse kind { r with watch := r.watch.afterObserved parse frame } := by
  have hprogress := h.progress
  rw [Progress, hpump] at hprogress
  obtain ⟨ls, hread, hat, hfirst⟩ := hprogress
  have hforeign := h.foreign_of_pump (by rw [hpump]; simp)
  have hout : ∀ b, r.FedBy b → r.watch.accepted <+: (b.outcome parse kind).1 := by
    intro b hb
    refine List.IsPrefix.trans ?_ (hread.events_isPrefix hb)
    rw [← hat.accepted]
    exact List.prefix_append _ _
  unfold HubEventWatch.afterObserved
  split_ifs with hover
  · exact Inv.foreign_stop h.core h.requested hforeign hover hout
  · rw [Bool.not_eq_true, Option.isSome_eq_false_iff, Option.isNone_iff_eq_none] at hover
    -- the event goes to a promise, to the queue or to its place, and the loop goes on
    have hhanded : ∀ w, r.watch.Handed frame w →
        Inv parse kind { r with watch := w.nextFrame parse } := by
      intro w hw
      refine Inv.nextFrame (r := { r with watch := w }) hw.core (hw.kind.trans h.requested) ?_
        (hread.congr hw.decoder hw.text)
        ⟨hat.going, hw.cursor.trans hat.cursor, hw.gotSnapshot.trans hat.gotSnapshot,
          hw.accepted.trans hat.accepted⟩
      intro e he
      rw [hw.terminal, hover] at he
      cases he
    -- a change that finds the queue full loses the watch
    have hchange : Inv parse kind { r with
        watch := let delivered := r.watch.deliver frame
          if delivered.terminal.isSome then delivered.stop
          else delivered.setSilenceDeadline.nextFrame parse } := by
      rcases h.core.deliver_cases hover frame with hfull | hw
      · have hterminal : (r.watch.deliver frame).terminal = some (.lost ⟨.overflow,
            "Watch client queue capacity exceeded", r.watch.cursor,
            { side := some .client }⟩) := by
          rw [hfull, HubEventWatch.lost, HubEventWatch.terminal_selectTerminal, hover]
          rfl
        simp only [hterminal, Option.isSome_some, if_true]
        refine Inv.foreign_stop (r := { r with watch := r.watch.deliver frame })
          (h.core.deliver hover frame) ?_ ?_ (by rw [hterminal]; rfl) fun b hb => ?_
        · show (r.watch.deliver frame).kind = kind
          rw [hfull, HubEventWatch.lost, HubEventWatch.kind_selectTerminal]
          exact h.requested
        · intro e he hbody
          have he : (r.watch.deliver frame).terminal = some (.lost e) := he
          rw [hterminal, Option.some.injEq, WatchTerminal.lost.injEq] at he
          exact hbody.2.2 ⟨by rw [← he], by rw [← he]⟩
        · show (r.watch.deliver frame).accepted <+: _
          rw [hfull, HubEventWatch.lost, HubEventWatch.accepted_selectTerminal]
          exact hout b ⟨hb.bytes, hb.response, hb.whole⟩
      · have hopen : ¬ (r.watch.deliver frame).terminal.isSome := by
          rw [hw.terminal, hover]
          simp
        simp only [if_neg hopen]
        exact hhanded _ ⟨hw.core.steer _ _ _ _ _ _ _ _, hw.kind, hw.terminal, hw.decoder, hw.text,
          hw.cursor, hw.gotSnapshot, hw.accepted⟩
    split
    next k cursor items =>
      have hw := (h.core.steer r.watch.health r.watch.cursor r.watch.gotSnapshot r.watch.openTimer
        true r.watch.decoder r.watch.text r.watch.pump).handed_deliverSnapshot hover
          (hfirst ⟨k, cursor, items, rfl⟩) (.snapshot k cursor items)
      exact hhanded _ ⟨hw.core, hw.kind, hw.terminal, hw.decoder, hw.text, hw.cursor,
        hw.gotSnapshot, hw.accepted⟩
    next => exact hchange

/-! ### The events of the pump -/

section

variable (h : Inv parse kind r)
include h

theorem Inv.onOpened (hpump : r.watch.pump = .opening)
    (response : OpenedResponse) :
    Inv parse kind { r with
      watch := r.watch.onOpened response, got := { r.got with response := some response } } := by
  have hprogress := h.progress
  rw [Progress, hpump] at hprogress
  obtain ⟨hgot, hgoing, hat, hdecoder, htext⟩ := hprogress
  have hforeign := h.foreign_of_pump (by rw [hpump]; simp)
  have haccepted : r.watch.accepted = [] := hat.accepted
  unfold HubEventWatch.onOpened
  split_ifs with hover
  · have hcore : ({ r.watch with
        response := true, disposed := true, controllerAborted := true } : HubEventWatch).Core :=
      ⟨h.core.order, h.core.waiting, h.core.spent, h.core.capacity, h.core.given, h.core.held,
        fun _ => ⟨rfl, fun _ => rfl⟩⟩
    refine Inv.foreign_stop (r := { r with
      watch := { r.watch with response := true, disposed := true, controllerAborted := true }
      got := { r.got with response := some response } }) hcore h.requested hforeign hover
      fun b _ => ?_
    show r.watch.accepted <+: _
    rw [haccepted]
    exact List.nil_prefix
  · have hcore : ({ r.watch with response := true } : HubEventWatch).Core :=
      ⟨h.core.order, h.core.waiting, h.core.spent, h.core.capacity, h.core.given, h.core.held,
        fun hs => absurd hs hover⟩
    split
    next code message details hrejection =>
      refine Inv.lost_stop (r := { r with
        watch := { r.watch with response := true }
        got := { r.got with response := some response } }) hcore h.requested hforeign _ _ _
        fun b hb => ?_
      have hresponse : some response = b.response := hb.response rfl
      rw [Body.outcome, ← hresponse]
      simp only [hrejection]
      exact congrArg (·, code) haccepted.symm
    next hrejection =>
      refine ⟨hcore.steer _ _ _ _ _ _ _ _, h.requested, fun _ _ => hforeign, ?_⟩
      refine ⟨?_, [], ⟨⟨response, rfl, hrejection⟩, hgoing, [], ?_, rfl⟩, ⟨hat.1, hat.2, hat.3, hat.4⟩⟩
      · show '\n' ∉ r.watch.text
        rw [htext]
        exact List.not_mem_nil
      · show StringDecoder.write none r.got.bytes = (r.watch.decoder, [] ++ r.watch.text)
        rw [hgot, hdecoder, htext]
        rfl

theorem Inv.onChunk (hpump : r.watch.pump = .reading) (bytes : List UInt8) :
    Inv parse kind { r with
      watch := r.watch.onChunk parse bytes
      got := { r.got with bytes := r.got.bytes ++ bytes } } := by
  have hprogress := h.progress
  rw [Progress, hpump] at hprogress
  obtain ⟨hrest, ls, hread, hat⟩ := hprogress
  have hforeign := h.foreign_of_pump (by rw [hpump]; simp)
  unfold HubEventWatch.onChunk
  split_ifs with hover
  · refine Inv.foreign_stop (r := { r with got := { r.got with bytes := r.got.bytes ++ bytes } })
      h.core h.requested hforeign hover fun b hb => ?_
    have hb' : r.FedBy b := by
      refine ⟨(List.prefix_append _ _).trans hb.bytes, hb.response, fun hended => ?_⟩
      rw [hread.going] at hended
      cases hended
    rw [hat.accepted]
    exact hread.events_isPrefix hb'
  · obtain ⟨consumed, hbytes, hlines⟩ := hread.text
    let fed : ClientRun := { r with
      watch := { r.watch with
        decoder := (r.watch.decoder.write bytes).1
        text := r.watch.text ++ (r.watch.decoder.write bytes).2 }
      got := { r.got with bytes := r.got.bytes ++ bytes } }
    have hfed : fed.Read ls := by
      refine ⟨hread.response, hread.going, consumed, ?_, hlines⟩
      show StringDecoder.write none (r.got.bytes ++ bytes) = _
      rw [StringDecoder.write_append, hbytes, List.append_assoc]
    exact Inv.nextFrame (r := fed) (h.core.steer _ _ _ _ _ _ _ _) h.requested hforeign hfed
      ⟨hat.1, hat.2, hat.3, hat.4⟩

theorem Inv.ended (hpump : r.watch.pump = .reading) (message : String) :
    Inv parse kind { r with
      watch := (r.watch.lost .disconnected message {}).stop, ended := true } := by
  have hprogress := h.progress
  rw [Progress, hpump] at hprogress
  obtain ⟨hrest, ls, hread, hat⟩ := hprogress
  have hforeign := h.foreign_of_pump (by rw [hpump]; simp)
  refine Inv.lost_stop (r := { r with ended := true }) h.core h.requested hforeign _ _ _
    fun b hb => ?_
  have hwhole : r.got = b := hb.whole rfl
  rw [hread.outcome_eq (.of_eq hwhole), hread.lines_eq hrest hwhole, hat.going]
  exact congrArg (·, _) hat.accepted.symm

theorem Inv.onEnd (hpump : r.watch.pump = .reading) :
    Inv parse kind { r with watch := r.watch.onEnd, ended := true } := by
  unfold HubEventWatch.onEnd
  split_ifs <;> exact h.ended hpump _

theorem Inv.onFailed (hpump : r.watch.pump = .opening) :
    Inv parse kind { r with watch := r.watch.onFailed, ended := true } := by
  have hprogress := h.progress
  rw [Progress, hpump] at hprogress
  obtain ⟨hgot, -, hat, -⟩ := hprogress
  have hforeign := h.foreign_of_pump (by rw [hpump]; simp)
  refine Inv.lost_stop (r := { r with ended := true }) h.core h.requested hforeign _ _ _
    fun b hb => ?_
  have hwhole : r.got = b := hb.whole rfl
  rw [← hwhole, hgot]
  exact congrArg (·, _) hat.accepted.symm

end

/-! ### The calls of others -/

theorem Inv.aside (h : Inv parse kind r) {w : HubEventWatch} (hcore : w.Core)
    (hkind : w.kind = r.watch.kind) (hpump : w.pump = r.watch.pump)
    (hdecoder : w.decoder = r.watch.decoder) (htext : w.text = r.watch.text)
    (hcursor : w.cursor = r.watch.cursor) (hgot : w.gotSnapshot = r.watch.gotSnapshot)
    (haccepted : w.accepted = r.watch.accepted)
    (hterminal : w.terminal = r.watch.terminal ∨ r.watch.terminal = none ∧ Foreign w) :
    Inv parse kind { r with watch := w } := by
  have hat : ∀ s, At r.watch s → At w s := fun s hs =>
    ⟨hs.going, hcursor.trans hs.cursor, hgot.trans hs.gotSnapshot, haccepted.trans hs.accepted⟩
  refine ⟨hcore, hkind.trans h.requested, fun hsome hne => ?_, ?_⟩
  · rcases hterminal with heq | ⟨-, hforeign⟩
    · intro e he
      have he : w.terminal = some (.lost e) := he
      have hsome : w.terminal.isSome := hsome
      rw [heq] at he hsome
      exact h.foreign hsome (hpump ▸ hne) e he
    · exact hforeign
  · have hprogress := h.progress
    unfold Progress at hprogress ⊢
    show match w.pump with
      | .opening => _
      | .reading => _
      | .framed frame => _
      | .observed frame => _
      | .returned => _
    rw [hpump]
    cases hcase : r.watch.pump with
    | opening =>
      rw [hcase] at hprogress
      obtain ⟨hbody, hgoing, hstart, hd, ht⟩ := hprogress
      exact ⟨hbody, hgoing, hat _ hstart, hdecoder.trans hd, htext.trans ht⟩
    | reading =>
      rw [hcase] at hprogress
      obtain ⟨hrest, ls, hread, hscan⟩ := hprogress
      exact ⟨htext ▸ hrest, ls, hread.congr hdecoder htext, hat _ hscan⟩
    | framed frame =>
      rw [hcase] at hprogress
      obtain ⟨ls, line, hread, hframe, hscan⟩ := hprogress
      exact ⟨ls, line, hread.congr hdecoder htext, hframe, hat _ hscan⟩
    | observed frame =>
      rw [hcase] at hprogress
      obtain ⟨ls, hread, hscan, hfirst⟩ := hprogress
      exact ⟨ls, hread.congr hdecoder htext, ⟨hscan.going, hcursor.trans hscan.cursor,
        hgot.trans hscan.gotSnapshot, (congrArg (· ++ [frame]) haccepted).trans hscan.accepted⟩,
        fun hf => haccepted.trans (hfirst hf)⟩
    | returned =>
      rw [hcase] at hprogress
      obtain ⟨hsome, hout⟩ := hprogress
      -- the terminal has been selected already
      have heq : w.terminal = r.watch.terminal := by
        rcases hterminal with heq | ⟨hnone, -⟩
        · exact heq
        · rw [hnone] at hsome
          cases hsome
      refine ⟨by rw [heq]; exact hsome, fun b hb => ?_⟩
      obtain ⟨hpart, hbody⟩ := hout b ⟨hb.bytes, hb.response, hb.whole⟩
      refine ⟨haccepted ▸ hpart, fun e he hfrom => ?_⟩
      have he : w.terminal = some (.lost e) := he
      show _ = (w.accepted, e.code)
      rw [heq] at he
      rw [haccepted]
      exact hbody e he hfrom

theorem Inv.callNext (h : Inv parse kind r) :
    Inv parse kind { r with watch := r.watch.callNext } := by
  have hcore := (h.core.callNext).1
  refine h.aside hcore ?_ ?_ ?_ ?_ ?_ ?_ ?_ (.inl ?_) <;>
    (unfold HubEventWatch.callNext; split <;> rfl)

theorem Inv.selectTerminal (h : Inv parse kind r) {t : WatchTerminal}
    (ht : ∀ e, t = .lost e → ¬ e.FromBody) :
    Inv parse kind { r with watch := r.watch.selectTerminal t } := by
  have hterminal := HubEventWatch.terminal_selectTerminal (w := r.watch) t
  refine h.aside (h.core.selectTerminal t) ?_ ?_ ?_ ?_ ?_ ?_ ?_ ?_
  iterate 7 (unfold HubEventWatch.selectTerminal; split_ifs <;> rfl)
  cases hcase : r.watch.terminal with
  | some u =>
    rw [hcase] at hterminal
    exact .inl hterminal
  | none =>
    rw [hcase] at hterminal
    refine .inr ⟨rfl, fun e he => ht e ?_⟩
    rw [hterminal] at he
    exact Option.some.inj he

theorem Inv.next (h : Inv parse kind r) (a : Action) : Inv parse kind (r.next parse a) := by
  cases a with
  | opened response =>
    simp only [ClientRun.next]
    split
    next hpump => exact h.onOpened hpump response
    next => exact h
  | failed =>
    simp only [ClientRun.next]
    split
    next hpump => exact h.onFailed hpump
    next hpump => exact h.ended hpump _
    next => exact h
  | chunk bytes =>
    simp only [ClientRun.next]
    split
    next hpump => exact h.onChunk hpump bytes
    next => exact h
  | ended =>
    simp only [ClientRun.next]
    split
    next hpump => exact h.onEnd hpump
    next => exact h
  | observerReturned =>
    simp only [ClientRun.next]
    split
    next frame hpump => exact h.afterFramed hpump
    next frame hpump => exact h.afterObserved hpump
    next => exact h
  | next => exact h.callNext
  | close | abort => exact h.selectTerminal fun e he => by cases he
  | openTimeout =>
    have htimeout : Inv parse kind { r with watch := r.watch.onOpenTimeout } := by
      unfold HubEventWatch.onOpenTimeout
      split_ifs
      · refine h.selectTerminal fun e he hbody => ?_
        cases he
        exact hbody.1 rfl
      · exact h
    simp only [ClientRun.next]
    split
    · exact h
    · exact h
    · exact htimeout
  | silence expired =>
    have hsilence : Inv parse kind { r with watch := r.watch.onSilence expired } := by
      unfold HubEventWatch.onSilence
      split_ifs
      · refine h.selectTerminal fun e he hbody => ?_
        cases he
        exact hbody.2.1 rfl
      · exact h
    simp only [ClientRun.next]
    split
    · exact h
    · exact h
    · exact hsilence

theorem inv_start : Inv parse kind (start (.opening kind)) where
  core := {
    order := rfl
    waiting := fun hne => absurd rfl hne
    spent := nofun
    capacity := Nat.zero_le _
    given := List.prefix_rfl
    held := fun _ => rfl
    released := fun hs => by cases hs }
  requested := rfl
  foreign := nofun
  progress := ⟨rfl, rfl, ⟨rfl, rfl, rfl, rfl⟩, rfl, rfl⟩

theorem inv_alreadyAborted : Inv parse kind (start (.alreadyAborted kind)) where
  core := {
    order := rfl
    waiting := fun hne => absurd rfl hne
    spent := fun _ => ⟨rfl, rfl, rfl⟩
    capacity := Nat.zero_le _
    given := List.prefix_rfl
    held := nofun
    released := fun _ => ⟨rfl, nofun⟩ }
  requested := rfl
  foreign := fun _ hne => absurd rfl hne
  progress := ⟨rfl, fun _ _ => ⟨List.nil_prefix, fun _ he => by cases he⟩⟩

theorem inv_of_reachable (h : (system parse kind).Reachable System.anyStep r) :
    Inv parse kind r := by
  refine h.invariant (fun r hr => ?_) (fun r a r' _ hi _ hstep => ?_)
  · rcases hr with rfl | rfl
    · exact inv_start
    · exact inv_alreadyAborted
  · cases hstep
    exact hi.next a

open HubEventWatch in
theorem kept_next (hcore : r.watch.Core) (a : Action) : r.watch.Kept (r.next parse a).watch := by
  cases a with
  | opened response =>
    simp only [ClientRun.next]
    split
    · exact kept_onOpened response
    · exact .refl _
  | failed =>
    simp only [ClientRun.next]
    split
    · exact kept_lost_stop _ _ _
    · exact kept_lost_stop _ _ _
    · exact .refl _
  | chunk bytes =>
    simp only [ClientRun.next]
    split
    · exact kept_onChunk bytes
    · exact .refl _
  | ended =>
    simp only [ClientRun.next]
    split
    · exact kept_onEnd
    · exact .refl _
  | observerReturned =>
    simp only [ClientRun.next]
    split
    · exact kept_afterFramed _
    · exact kept_afterObserved _
    · exact .refl _
  | next => exact (hcore.callNext).2
  | close | abort => exact kept_selectTerminal _
  | openTimeout =>
    simp only [ClientRun.next]
    split
    · exact .refl _
    · exact .refl _
    · exact kept_onOpenTimeout
  | silence expired =>
    simp only [ClientRun.next]
    split
    · exact .refl _
    · exact .refl _
    · exact kept_onSilence expired

theorem Inv.accepted_isPrefix (h : Inv parse kind r) (hb : r.FedBy b) :
    r.watch.accepted <+: (b.outcome parse kind).1 := by
  have hprogress := h.progress
  unfold Progress at hprogress
  split at hprogress
  next =>
    obtain ⟨-, -, hat, -⟩ := hprogress
    rw [hat.accepted]
    exact List.nil_prefix
  next =>
    obtain ⟨-, ls, hread, hat⟩ := hprogress
    rw [hat.accepted]
    exact hread.events_isPrefix hb
  next =>
    obtain ⟨ls, line, hread, -, hat⟩ := hprogress
    rw [hat.accepted]
    refine List.IsPrefix.trans ?_ (hread.events_isPrefix hb)
    rw [Scan.run_append]
    exact Scan.events_isPrefix _ _
  next frame _ =>
    obtain ⟨ls, hread, hat, -⟩ := hprogress
    refine List.IsPrefix.trans ?_ (hread.events_isPrefix hb)
    rw [← hat.accepted]
    exact List.prefix_append _ _
  next => exact (hprogress.2 b hb).1

theorem Inv.outcome_eq (h : Inv parse kind r) (hb : r.FedBy b) {e : HubWatchError}
    (he : r.watch.terminal = some (.lost e)) (hbody : e.FromBody) :
    b.outcome parse kind = (r.watch.accepted, e.code) := by
  have hsome : r.watch.terminal.isSome := by rw [he]; rfl
  cases hpump : r.watch.pump with
  | returned =>
    have hprogress := h.progress
    rw [Progress, hpump] at hprogress
    exact (hprogress.2 b hb).2 e he hbody
  | _ => exact absurd hbody (h.foreign hsome (by rw [hpump]; simp) e he)

end Laws

end ClientRun

end TransformHub.RestApi2
