import TransformHub.RestApi2.HubEventWatchBody

/-!
# The promises of a client watch

Promises of `next` settle once, in the order of the calls, and with the events in the order in which
they were accepted (`Core`).
-/

namespace TransformHub.RestApi2

open Js HubState

def Settlement.event : Settlement → Option ClientFrame
  | .value event => some event
  | _ => none

namespace HubEventWatch

/-- The events given to promises of `next`, in the order in which they settled. -/
def delivered (w : HubEventWatch) : List ClientFrame := w.settled.filterMap fun s => s.2.event

/-- Promises settle in the order of the calls, and events are handed out in the order in which they
were accepted. -/
structure Core (w : HubEventWatch) : Prop where
  order : w.settled.map Prod.fst ++ w.pending = List.range w.calls
  waiting : w.pending ≠ [] → w.queue = [] ∧ w.snapshotPending = none
  spent : w.terminal.isSome → w.pending = [] ∧ w.queue = [] ∧ w.snapshotPending = none
  capacity : w.queue.length ≤ hubWatchQueueCapacity
  given : w.delivered <+: w.accepted
  held : w.terminal = none → w.delivered ++ w.snapshotPending.toList ++ w.queue = w.accepted
  released : w.terminal.isSome → w.controllerAborted = true ∧ (w.response = true → w.disposed = true)

/-- What a step keeps: no promise settles again, the terminal stays, and once there is one no
further event is delivered. -/
structure Kept (w w' : HubEventWatch) : Prop where
  settled : w.settled <+: w'.settled
  terminal : ∀ t, w.terminal = some t → w'.terminal = some t
  silent : w.terminal.isSome → w'.delivered = w.delivered

theorem Kept.refl (w : HubEventWatch) : Kept w w := ⟨List.prefix_rfl, fun _ h => h, fun _ => rfl⟩

theorem Kept.trans {w w' w'' : HubEventWatch} (h : Kept w w') (h' : Kept w' w'') : Kept w w'' where
  settled := h.settled.trans h'.settled
  terminal := fun t ht => h'.terminal t (h.terminal t ht)
  silent := fun hsome => by
    obtain ⟨t, ht⟩ := Option.isSome_iff_exists.mp hsome
    exact (h'.silent (by rw [h.terminal t ht]; rfl)).trans (h.silent hsome)

theorem Kept.of_eq {w w' : HubEventWatch} (hsettled : w'.settled = w.settled)
    (hterminal : w'.terminal = w.terminal) : Kept w w' where
  settled := hsettled ▸ List.prefix_rfl
  terminal := fun _ ht => hterminal.trans ht
  silent := fun _ => by rw [delivered, hsettled, delivered]

theorem Kept.from {w w₁ w' : HubEventWatch} (h : Kept w₁ w') (hsettled : w₁.settled = w.settled)
    (hterminal : w₁.terminal = w.terminal) : Kept w w' :=
  Kept.trans (.of_eq hsettled hterminal) h

section Steps

variable {w : HubEventWatch}

theorem delivered_append (settled : List (ℕ × Settlement)) (w' : HubEventWatch)
    (h : w'.settled = w.settled ++ settled) :
    w'.delivered = w.delivered ++ settled.filterMap fun s => s.2.event := by
  rw [delivered, h, List.filterMap_append, delivered]

theorem delivered_value {waiter : ℕ} {event : ClientFrame} (w' : HubEventWatch)
    (h : w'.settled = w.settled ++ [(waiter, .value event)]) :
    w'.delivered = w.delivered ++ [event] := delivered_append _ w' h

section

variable (t : WatchTerminal)
include t

theorem settlement_silent (waiters : List ℕ) :
    (waiters.map fun waiter => (waiter, t.settlement)).filterMap (fun s => s.2.event) = [] := by
  induction waiters with
  | nil => rfl
  | cons waiter waiters ih => cases t <;> exact ih

theorem delivered_selectTerminal : (w.selectTerminal t).delivered = w.delivered := by
  unfold selectTerminal
  split_ifs
  · rfl
  · rw [delivered_append (w := w) _ _ rfl, settlement_silent, List.append_nil]

theorem kept_selectTerminal : Kept w (w.selectTerminal t) := by
  refine ⟨?_, fun u hu => ?_, fun _ => delivered_selectTerminal t⟩
  · unfold selectTerminal
    split_ifs
    · exact List.prefix_rfl
    · exact List.prefix_append _ _
  · rw [selectTerminal, if_pos (by rw [hu]; rfl)]
    exact hu

theorem terminal_selectTerminal : (w.selectTerminal t).terminal = some (w.terminal.getD t) := by
  unfold selectTerminal
  split_ifs with h
  · obtain ⟨u, hu⟩ := Option.isSome_iff_exists.mp h
    rw [hu]
    rfl
  · rw [Bool.not_eq_true, Option.isSome_eq_false_iff, Option.isNone_iff_eq_none] at h
    rw [h]
    rfl

theorem accepted_selectTerminal : (w.selectTerminal t).accepted = w.accepted := by
  unfold selectTerminal
  split_ifs <;> rfl

theorem kind_selectTerminal : (w.selectTerminal t).kind = w.kind := by
  unfold selectTerminal
  split_ifs <;> rfl

end

theorem Core.selectTerminal (h : Core w) (t : WatchTerminal) : Core (w.selectTerminal t) := by
  have hdelivered := delivered_selectTerminal (w := w) t
  unfold HubEventWatch.selectTerminal at hdelivered ⊢
  split_ifs at hdelivered ⊢ with hsome
  · exact h
  · refine ⟨?_, fun hne => absurd rfl hne, fun _ => ⟨rfl, rfl, rfl⟩, Nat.zero_le _, ?_,
      nofun, fun _ => ⟨rfl, fun hr => ?_⟩⟩
    · rw [List.map_append, List.map_map, List.append_nil, ← h.order]
      exact congrArg _ (List.map_id _)
    · rw [hdelivered]
      exact h.given
    · show (w.disposed || w.response) = true
      rw [show w.response = true from hr, Bool.or_true]

theorem Core.steer (h : Core w) (health : HubWatchConnectionHealth) (cursor : Option HubCursor)
    (gotSnapshot openTimer silenceTimer : Bool) (decoder : StringDecoder) (text : List Char)
    (pump : PumpState) :
    Core { w with health, cursor, gotSnapshot, openTimer, silenceTimer, decoder, text, pump } :=
  { h with }

theorem Core.stop (h : Core w) : Core w.stop :=
  h.steer w.health w.cursor w.gotSnapshot w.openTimer w.silenceTimer w.decoder w.text .returned

theorem Core.settle (h : Core w) {waiter : ℕ} {rest : List ℕ}
    (hpending : w.pending = waiter :: rest)
    (event : ClientFrame) : Core (w.settle waiter rest event) := by
  have hne : w.pending ≠ [] := by simp [hpending]
  obtain ⟨hqueue, hslot⟩ := h.waiting hne
  have hopen : w.terminal = none := by
    cases ht : w.terminal with
    | none => rfl
    | some t => exact absurd (h.spent (by simp [ht])).1 hne
  have hall : w.delivered = w.accepted := by simpa [hqueue, hslot] using h.held hopen
  have hdelivered : (w.settle waiter rest event).delivered = w.delivered ++ [event] :=
    delivered_value _ rfl
  refine ⟨?_, fun _ => ⟨hqueue, hslot⟩, fun hs => ?_, h.capacity, ?_, fun _ => ?_, h.released⟩
  · show (w.settled ++ [(waiter, Settlement.value event)]).map Prod.fst ++ rest = List.range w.calls
    rw [← h.order, hpending]
    simp
  · have hs : w.terminal.isSome := hs
    simp [hopen] at hs
  · show (w.settle waiter rest event).delivered <+: w.accepted ++ [event]
    rw [hdelivered, hall]
  · show (w.settle waiter rest event).delivered ++ w.snapshotPending.toList ++ w.queue =
      w.accepted ++ [event]
    rw [hdelivered, hall, hqueue, hslot]
    simp

theorem Core.deliver (h : Core w) (hopen : w.terminal = none) (event : ClientFrame) :
    Core (w.deliver event) := by
  unfold HubEventWatch.deliver
  split
  next waiter rest hpending => exact h.settle hpending event
  next hpending =>
    split_ifs with hfull
    · exact h.selectTerminal _
    · refine ⟨h.order, fun hne => absurd hpending hne, fun hs => ?_, ?_,
        h.given.trans (List.prefix_append _ _), fun _ => ?_, h.released⟩
      · have hs : w.terminal.isSome := hs
        simp [hopen] at hs
      · show (w.queue ++ [event]).length ≤ _
        rw [List.length_append, List.length_singleton]
        omega
      · show w.delivered ++ w.snapshotPending.toList ++ (w.queue ++ [event]) = w.accepted ++ [event]
        rw [← List.append_assoc, h.held hopen]

theorem Core.deliverSnapshot (h : Core w) (hopen : w.terminal = none) (hfirst : w.accepted = [])
    (event : ClientFrame) : Core (w.deliverSnapshot event) := by
  unfold HubEventWatch.deliverSnapshot
  split
  next waiter rest hpending => exact h.settle hpending event
  next hpending =>
    have hheld := h.held hopen
    rw [hfirst, List.append_eq_nil_iff, List.append_eq_nil_iff] at hheld
    obtain ⟨⟨hdelivered, -⟩, hqueue⟩ := hheld
    refine ⟨h.order, fun hne => absurd hpending hne, fun hs => ?_, h.capacity,
      h.given.trans (List.prefix_append _ _), fun _ => ?_, h.released⟩
    · have hs : w.terminal.isSome := hs
      simp [hopen] at hs
    · show w.delivered ++ [event] ++ w.queue = w.accepted ++ [event]
      rw [hdelivered, hqueue, hfirst]
      rfl

theorem kept_deliver (hopen : w.terminal = none) (event : ClientFrame) :
    Kept w (w.deliver event) := by
  have hsome : ∀ {P : Prop}, w.terminal.isSome → P := fun hs => by simp [hopen] at hs
  unfold HubEventWatch.deliver
  split
  next =>
    refine ⟨List.prefix_append _ _, fun t ht => ?_, hsome⟩
    rw [hopen] at ht
    cases ht
  next =>
    split_ifs
    · exact kept_selectTerminal _
    · exact .of_eq rfl rfl

theorem kept_deliverSnapshot (hopen : w.terminal = none) (event : ClientFrame) :
    Kept w (w.deliverSnapshot event) := by
  have hsome : ∀ {P : Prop}, w.terminal.isSome → P := fun hs => by simp [hopen] at hs
  unfold HubEventWatch.deliverSnapshot
  split
  next =>
    refine ⟨List.prefix_append _ _, fun t ht => ?_, hsome⟩
    rw [hopen] at ht
    cases ht
  next => exact .of_eq rfl rfl

/-- The event has been handed over; the watch goes on. -/
structure Handed (event : ClientFrame) (w w' : HubEventWatch) : Prop where
  core : w'.Core
  kind : w'.kind = w.kind
  terminal : w'.terminal = w.terminal
  decoder : w'.decoder = w.decoder
  text : w'.text = w.text
  cursor : w'.cursor = w.cursor
  gotSnapshot : w'.gotSnapshot = w.gotSnapshot
  accepted : w'.accepted = w.accepted ++ [event]

theorem Core.handed_deliverSnapshot (h : Core w) (hopen : w.terminal = none)
    (hfirst : w.accepted = []) (event : ClientFrame) :
    Handed event w (w.deliverSnapshot event) := by
  have hcore := h.deliverSnapshot hopen hfirst event
  unfold HubEventWatch.deliverSnapshot at hcore ⊢
  split at hcore <;> exact ⟨hcore, rfl, rfl, rfl, rfl, rfl, rfl, rfl⟩

theorem Core.deliver_cases (h : Core w) (hopen : w.terminal = none) (event : ClientFrame) :
    w.deliver event = w.lost .overflow "Watch client queue capacity exceeded"
        { side := some .client } ∨ Handed event w (w.deliver event) := by
  have hcore := h.deliver hopen event
  unfold HubEventWatch.deliver at hcore ⊢
  split at hcore
  next => exact .inr ⟨hcore, rfl, rfl, rfl, rfl, rfl, rfl, rfl⟩
  next =>
    split_ifs at hcore ⊢
    · exact .inl rfl
    · exact .inr ⟨hcore, rfl, rfl, rfl, rfl, rfl, rfl, rfl⟩

theorem Core.callNext (h : Core w) : Core w.callNext ∧ Kept w w.callNext := by
  have horder : ∀ s : Settlement, w.pending = [] →
      (w.settled ++ [(w.calls, s)]).map Prod.fst ++ [] = List.range (w.calls + 1) := by
    intro s hpending
    have := h.order
    rw [hpending, List.append_nil] at this
    rw [List.map_append, this, List.range_succ, List.append_nil]
    rfl
  unfold HubEventWatch.callNext
  split
  next event hslot =>
    have hpending : w.pending = [] := by
      by_contra hne
      simp [(h.waiting hne).2] at hslot
    have hopen : w.terminal = none := by
      cases ht : w.terminal with
      | none => rfl
      | some t => simp [(h.spent (by simp [ht])).2.2] at hslot
    have hheld := h.held hopen
    rw [hslot, Option.toList_some] at hheld
    refine ⟨⟨?_, fun hne => absurd hpending hne, fun hs => ?_, h.capacity, ?_, fun _ => ?_,
      h.released⟩, ⟨List.prefix_append _ _, fun _ ht => ht, fun hs => ?_⟩⟩
    · rw [hpending]
      exact horder _ hpending
    · simp [hopen] at hs
    · rw [delivered_value (w := w) _ rfl, ← hheld]
      exact List.prefix_append _ _
    · rw [delivered_value (w := w) _ rfl]
      simpa using hheld
    · simp [hopen] at hs
  next event queue hslot hqueue =>
    have hpending : w.pending = [] := by
      by_contra hne
      simp [(h.waiting hne).1] at hqueue
    have hopen : w.terminal = none := by
      cases ht : w.terminal with
      | none => rfl
      | some t => simp [(h.spent (by simp [ht])).2.1] at hqueue
    have hheld := h.held hopen
    rw [hslot, hqueue, Option.toList_none, List.append_nil] at hheld
    refine ⟨⟨?_, fun hne => absurd hpending hne, fun hs => ?_, ?_, ?_, fun _ => ?_,
      h.released⟩, ⟨List.prefix_append _ _, fun _ ht => ht, fun hs => ?_⟩⟩
    · rw [hpending]
      exact horder _ hpending
    · simp [hopen] at hs
    · have := h.capacity
      rw [hqueue, List.length_cons] at this
      exact Nat.le_of_succ_le this
    · rw [delivered_value (w := w) _ rfl, ← hheld]
      exact ⟨queue, by simp⟩
    · rw [delivered_value (w := w) _ rfl]
      simpa [hslot] using hheld
    · simp [hopen] at hs
  next t hslot hqueue hterminal =>
    have hover := h.spent (by simp [hterminal])
    have hsilent : ∀ w' : HubEventWatch,
        w'.settled = w.settled ++ [(w.calls, t.settlement)] → w'.delivered = w.delivered := by
      intro w' hw'
      rw [delivered_append (w := w) _ _ hw']
      cases t <;> exact List.append_nil _
    refine ⟨⟨?_, fun hne => absurd hover.1 hne, fun _ => hover, h.capacity, ?_, fun hn => ?_,
      h.released⟩, ⟨List.prefix_append _ _, fun _ ht => ht, fun _ => hsilent _ rfl⟩⟩
    · rw [hover.1]
      exact horder _ hover.1
    · rw [hsilent _ rfl]
      exact h.given
    · simp [hterminal] at hn
  next hslot hqueue hterminal =>
    refine ⟨⟨?_, fun _ => ⟨hqueue, hslot⟩, fun hs => ?_, h.capacity, h.given, h.held, h.released⟩,
      .of_eq rfl rfl⟩
    · show w.settled.map Prod.fst ++ (w.pending ++ [w.calls]) = List.range (w.calls + 1)
      rw [← List.append_assoc, h.order, List.range_succ]
    · simp [hterminal] at hs

/-! ## What the pump keeps -/

variable {parse : List Char → ParsedLine}

theorem kept_lost_stop (code : HubWatchErrorCode) (message : String)
    (details : HubWatchErrorDetails) : Kept w (w.lost code message details).stop :=
  (kept_selectTerminal _).trans (.of_eq rfl rfl)

theorem kept_nextFrame : Kept w (w.nextFrame parse) := by
  unfold nextFrame
  split
  next => exact .of_eq rfl rfl
  next line rest _ =>
    split
    next message _ => exact (kept_lost_stop (w := { w with text := rest }) _ _ _).from rfl rfl
    next => exact .of_eq rfl rfl

theorem kept_afterFramed (frame : ClientFrame) : Kept w (w.afterFramed parse frame) := by
  unfold afterFramed
  split
  next => exact kept_lost_stop _ _ _
  next => exact (kept_nextFrame (w := w.setSilenceDeadline)).from rfl rfl
  next => exact .of_eq rfl rfl

theorem kept_afterObserved (frame : ClientFrame) : Kept w (w.afterObserved parse frame) := by
  unfold afterObserved
  split_ifs with hover
  · exact .of_eq rfl rfl
  · rw [Bool.not_eq_true, Option.isSome_eq_false_iff, Option.isNone_iff_eq_none] at hover
    split
    next =>
      exact ((kept_deliverSnapshot (w := w.setSilenceDeadline) hover _).trans
        kept_nextFrame).from rfl rfl
    next =>
      refine (kept_deliver hover frame).trans ?_
      simp only
      split_ifs
      · exact .of_eq rfl rfl
      · exact (kept_nextFrame (w := (w.deliver frame).setSilenceDeadline)).from rfl rfl

theorem kept_onOpened (response : OpenedResponse) : Kept w (w.onOpened response) := by
  unfold onOpened
  split_ifs
  · exact .of_eq rfl rfl
  · split
    next => exact (kept_lost_stop (w := { w with response := true }) _ _ _).from rfl rfl
    next => exact .of_eq rfl rfl

theorem kept_onChunk (bytes : List UInt8) : Kept w (w.onChunk parse bytes) := by
  unfold onChunk
  split_ifs
  · exact .of_eq rfl rfl
  · exact (kept_nextFrame (w := { w with
      decoder := (w.decoder.write bytes).1
      text := w.text ++ (w.decoder.write bytes).2 })).from rfl rfl

theorem kept_onEnd : Kept w w.onEnd := by
  unfold onEnd
  split_ifs <;> exact kept_lost_stop _ _ _

theorem kept_onOpenTimeout : Kept w w.onOpenTimeout := by
  unfold onOpenTimeout
  split_ifs
  · exact kept_selectTerminal _
  · exact .refl _

theorem kept_onSilence (expired : Bool) : Kept w (w.onSilence expired) := by
  unfold onSilence
  split_ifs
  · exact kept_selectTerminal _
  · exact .refl _

end Steps

end HubEventWatch

end TransformHub.RestApi2
