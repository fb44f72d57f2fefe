import Mathlib.Data.List.Infix
import TransformHub.Host.HubEventWatch

/-!
# Runs of a store and one watch stream

A `WatchRun` is a store with one open watch stream.
-/

namespace TransformHub.Host

open Js HubState RestApi2

/-- A store and one stream that watches it, with a record of what the subscription was given. -/
structure WatchRun where
  store : HubStateStore
  stream : HubWatchStream
  /-- the snapshot of the subscription -/
  opening : HubWatchSnapshot
  /-- the changes given to the subscription -/
  received : List HubWatchChange

namespace WatchRun

/-- The calls of the environment. `gate` decides on the frame that the pump comes to. -/
inductive Action where
  | consume (record : JsValue) (throws : ℕ → Bool) (gate : Frame → Bool)
  | subscribe (kind : HubWatchKind) (other : ℕ)
  | unsubscribe (other : ℕ)
  | close (gate : Frame → Bool)
  | read (gate : Frame → Bool)
  | heartbeat (gate : Frame → Bool)
  | pushReturned (accepted : Bool) (gate : Frame → Bool)
  | disconnect
  | shutdown (writable : Bool) (gate : Frame → Bool)
  | shutdownRest
  | destroy

section Steps

-- `valid` is the schema check of frames, `id` the number of the stream's subscription
variable (valid : Frame → Bool) (id : ℕ)

/-- The cursor that a snapshot of the store has. -/
def source (store : HubStateStore) (kind : HubWatchKind) : Option StoredCursor :=
  (store.snapshot kind).map HubWatchSnapshot.cursor

/-- Close the subscription in the store once the stream has closed it. -/
def sync (w : WatchRun) : WatchRun :=
  if w.stream.subscribed then w else { w with store := w.store.unsubscribe id }

/-- One callback of the subscription. -/
def receive (gate : Frame → Bool) (w : WatchRun) (n : Notice) : WatchRun :=
  { w with
    stream := w.stream.onNotice valid gate (source w.store w.stream.kind) n
    received := match n with
      | .change c => w.received ++ [c]
      | .error _ => w.received }

/-- A call of the store: its notices go to the callbacks. -/
def serve (gate : Frame → Bool) (w : WatchRun) (o : Outcome) : WatchRun :=
  ((noticesFor id o.notices).foldl (receive valid gate) { w with store := o.store }).sync id

/-- A step of the stream alone. -/
def act (w : WatchRun) (f : Option StoredCursor → HubWatchStream → HubWatchStream) : WatchRun :=
  ({ w with stream := f (source w.store w.stream.kind) w.stream } : WatchRun).sync id

/-- The callbacks of the stream do not throw, and its number is its own. -/
def next (w : WatchRun) : Action → WatchRun
  | .consume record throws gate =>
    w.serve valid id gate (w.store.consume record fun i => i ≠ id && throws i)
  | .subscribe kind other =>
    if other = id then w else { w with store := w.store.next (.subscribe kind other) }
  | .unsubscribe other => if other = id then w else { w with store := w.store.unsubscribe other }
  | .close gate => w.serve valid id gate w.store.close
  | .read gate => w.act id fun source s => s.read valid gate source
  | .heartbeat gate => w.act id fun source s => s.heartbeatTick valid gate source
  | .pushReturned accepted gate =>
    w.act id fun source s => s.pushReturned valid gate source accepted
  | .disconnect => w.act id fun _ s => s.onDisconnect
  | .shutdown writable gate => w.act id fun source s => s.shutdown valid gate source writable
  | .shutdownRest => w.act id fun _ s => s.shutdownRest
  | .destroy => w.act id fun _ s => { s with destroyed := true }

/-- The runs that start when a store, in any state it can reach, opens the subscription. -/
def system (kind : HubWatchKind) : System WatchRun Action where
  init := fun w => ∃ store snapshot, HubStateStore.system.Reachable System.anyStep store ∧
    (∀ sub ∈ store.subscribers, sub.id ≠ id) ∧
      store.subscribe kind id = some (w.store, snapshot) ∧
        w = ⟨w.store, .opened kind snapshot, snapshot, []⟩
  step := fun w a w' => w' = w.next valid id a

end Steps

/-! ## The invariant -/

/-- The frames pushed, as their reader sees the cursors. -/
def frames (s : HubWatchStream) : List (HubWatchFrame HubCursor) :=
  s.pushed.map (HubWatchFrame.map StoredCursor.cursor)

def changeOf : Frame → Option HubWatchChange
  | .change _ mutation cursor previousCursor => some ⟨mutation, cursor, previousCursor⟩
  | _ => none

def pushedChanges (s : HubWatchStream) : List HubWatchChange := s.pushed.filterMap changeOf

/-- Each change leads on from the one before it; the first from `reached`, the last to `last`. -/
def Linked : StoredCursor → List HubWatchChange → StoredCursor → Prop
  | reached, [], last => last = reached
  | reached, c :: cs, last =>
    c.previousCursor = reached ∧ reached.cursor.Before c.cursor.cursor ∧ Linked c.cursor cs last

theorem Linked.concat {reached last : StoredCursor} {cs : List HubWatchChange}
    (h : Linked reached cs last) {c : HubWatchChange} (hlink : c.previousCursor = last)
    (hbefore : last.cursor.Before c.cursor.cursor) : Linked reached (cs ++ [c]) c.cursor := by
  induction cs generalizing reached with
  | nil =>
    have hlast : last = reached := h
    subst hlast
    exact ⟨hlink, hbefore, rfl⟩
  | cons d ds ih => exact ⟨h.1, h.2.1, ih h.2.2⟩

/-- What the stream holds at each stage of its frames. -/
def Place (opening : HubWatchSnapshot) (s : HubWatchStream) : TraceState → Prop
  | .start =>
    s.pushed = [] ∧ s.hand = none ∧ s.deliveredCursor = opening.cursor ∧
      (s.detached = false → s.snapshot = some opening)
  | .live cursor =>
    s.snapshot = none ∧ s.deliveredCursor.cursor = cursor ∧
      ∀ k c e, s.hand ≠ some (.error k c e)
  | .finished => s.detached = true ∨ ∃ k c e, s.hand = some (.error k c e)

/-- What holds of a stream whose frames have come to `st`. -/
structure StreamInv (store : HubStateStore) (id : ℕ) (opening : HubWatchSnapshot)
    (received : List HubWatchChange) (s : HubWatchStream) (st : TraceState) : Prop where
  trace : traceState (frames s) = some st
  place : Place opening s st
  kinds : opening.kind = s.kind ∧ ∀ f ∈ s.pushed, f.kind = s.kind
  first : ∀ f, s.pushed.head? = some f →
    f = .snapshot opening.kind opening.cursor opening.items
  capacity : s.live.length ≤ hubWatchQueueCapacity
  subscribed : s.subscribed = true ↔ s.detached = false ∧ s.terminal = none ∧ st ≠ .finished
  given : pushedChanges s <+: received
  queued : s.detached = false → pushedChanges s ++ s.live <+: received
  complete : s.subscribed = true → pushedChanges s ++ s.live = received
  /-- the queue leads on from what was pushed last, up to where the subscription stands -/
  chain : s.detached = false → st ≠ .finished → ∃ last, Linked s.deliveredCursor s.live last ∧
    (s.subscribed = true → ∃ sub, store.subscription id = some sub ∧ sub.previousCursor = last)

section StreamInv

variable {valid gate : Frame → Bool} {store : HubStateStore} {id : ℕ}
  {opening : HubWatchSnapshot} {received : List HubWatchChange} {s : HubWatchStream}
  {st : TraceState}

section

variable (h : StreamInv store id opening received s st) {s' : HubWatchStream}
  (hpushed : s'.pushed = s.pushed) (hkind : s'.kind = s.kind)
include h hpushed hkind

theorem StreamInv.detached (hd : s'.detached = true)
    (hsub : s'.subscribed = false) (hlive : s'.live.length ≤ hubWatchQueueCapacity)
    (hplace : Place opening s' st) : StreamInv store id opening received s' st where
  trace := by rw [frames, hpushed]; exact h.trace
  place := hplace
  kinds := by rw [hkind, hpushed]; exact h.kinds
  first := by rw [hpushed]; exact h.first
  capacity := hlive
  subscribed := by simp [hsub, hd]
  given := by rw [pushedChanges, hpushed]; exact h.given
  queued := fun hf => by simp [hd] at hf
  complete := fun hf => by simp [hsub] at hf
  chain := fun hf => by simp [hd] at hf

theorem StreamInv.finish (hlive : s'.live.length ≤ hubWatchQueueCapacity)
    (hplace : Place opening s'.detach st) : StreamInv store id opening received s'.finish st := by
  unfold HubWatchStream.finish
  split
  · exact h.detached hpushed hkind rfl rfl hlive hplace
  · refine h.detached hpushed hkind rfl rfl hlive ?_
    cases st <;> exact hplace

end

theorem traceState_startPush {rest : HubWatchStream} (htrace : traceState (frames s) = some st)
    (hpushed : rest.pushed = s.pushed) {f : Frame} {st' : TraceState}
    (hnext : st.next (f.map StoredCursor.cursor) = some st') :
    traceState (frames (rest.startPush f)) = some st' := by
  have hframes : frames (rest.startPush f) = frames s ++ [f.map StoredCursor.cursor] := by
    simp [frames, HubWatchStream.startPush, hpushed]
  rw [hframes, traceState_concat, htrace]
  exact hnext

theorem pushedChanges_startPush (rest : HubWatchStream) (hpushed : rest.pushed = s.pushed)
    (f : Frame) :
    pushedChanges (rest.startPush f) = pushedChanges s ++ (changeOf f).toList := by
  simp only [pushedChanges, HubWatchStream.startPush, hpushed, List.filterMap_append]
  cases hf : changeOf f <;> simp [hf]

theorem first_startPush (h : StreamInv store id opening received s st)
    (hpushed : s.pushed ≠ []) (f : Frame) :
    ∀ g, (s.pushed ++ [f]).head? = some g →
      g = .snapshot opening.kind opening.cursor opening.items := by
  intro g hg
  rw [List.head?_append_of_ne_nil _ hpushed] at hg
  exact h.first g hg

theorem kinds_startPush (h : StreamInv store id opening received s st) {f : Frame}
    (hf : f.kind = s.kind) : opening.kind = s.kind ∧ ∀ g ∈ s.pushed ++ [f], g.kind = s.kind := by
  refine ⟨h.kinds.1, fun g hg => ?_⟩
  rcases List.mem_append.mp hg with hg | hg
  · exact h.kinds.2 g hg
  · rw [List.mem_singleton] at hg
    exact hg ▸ hf

variable {cursor : HubCursor}

theorem pushed_ne_nil_of_live (h : StreamInv store id opening received s (.live cursor)) :
    s.pushed ≠ [] := by
  intro hnil
  have := h.trace
  simp [frames, hnil, traceState] at this

theorem StreamInv.push_snapshot (h : StreamInv store id opening received s .start) :
    StreamInv store id opening received
      (({ s with snapshot := none } : HubWatchStream).startPush
        (.snapshot opening.kind opening.cursor opening.items)) (.live opening.cursor.cursor) := by
  obtain ⟨hnil, -, hcursor, -⟩ := h.place
  have hchanges := pushedChanges_startPush (s := s) { s with snapshot := none } rfl
    (.snapshot opening.kind opening.cursor opening.items)
  simp only [changeOf, Option.toList_none, List.append_nil] at hchanges
  refine ⟨traceState_startPush h.trace rfl rfl, ⟨rfl, congrArg _ hcursor, fun _ _ _ hf => by
    cases hf⟩, kinds_startPush h h.kinds.1, ?_, h.capacity, ?_, ?_, ?_, ?_, ?_⟩
  · intro g hg
    have hg : (s.pushed ++ [_]).head? = some g := hg
    rw [hnil] at hg
    exact (Option.some.inj hg).symm
  · exact h.subscribed.trans (by simp [HubWatchStream.startPush])
  · exact hchanges ▸ h.given
  · exact fun hd => hchanges ▸ h.queued hd
  · exact fun hs => hchanges ▸ h.complete hs
  · exact fun hd _ => h.chain hd (by simp)

theorem StreamInv.push_change (h : StreamInv store id opening received s (.live cursor))
    (hd : s.detached = false) {c : HubWatchChange} {cs : List HubWatchChange}
    (hlive : s.live = c :: cs) :
    StreamInv store id opening received
      (({ s with live := cs } : HubWatchStream).startPush (HubWatchStream.changeFrame s.kind c))
      (.live c.cursor.cursor) := by
  obtain ⟨hsnap, hcursor, -⟩ := h.place
  obtain ⟨last, hlinked, hsub⟩ := h.chain hd (by simp)
  rw [hlive] at hlinked
  obtain ⟨hprev, hbefore, hrest⟩ := hlinked
  have hchanges := pushedChanges_startPush (s := s) { s with live := cs } rfl
    (HubWatchStream.changeFrame s.kind c)
  have hgiven : pushedChanges s ++ s.live =
      (pushedChanges s ++ (changeOf (HubWatchStream.changeFrame s.kind c)).toList) ++ cs := by
    simp [hlive, changeOf, HubWatchStream.changeFrame]
  refine ⟨traceState_startPush h.trace rfl ?_, ⟨hsnap, rfl, fun _ _ _ h => by cases h⟩,
    kinds_startPush h rfl, first_startPush h (pushed_ne_nil_of_live h) _, ?_, ?_, ?_, ?_, ?_,
    fun _ _ => ⟨last, hrest, hsub⟩⟩
  · have hnext : c.previousCursor.cursor = cursor ∧ cursor.Before c.cursor.cursor :=
      ⟨hprev ▸ hcursor, hcursor ▸ hbefore⟩
    simp [HubWatchStream.changeFrame, HubWatchFrame.map, TraceState.next, hnext]
  · have := h.capacity
    rw [hlive, List.length_cons] at this
    exact Nat.le_of_succ_le this
  · exact h.subscribed.trans (by simp [HubWatchStream.startPush])
  · rw [hchanges]
    exact (List.prefix_append _ cs).trans (hgiven ▸ h.queued hd)
  · exact fun hd => hchanges ▸ hgiven ▸ h.queued hd
  · exact fun hs => hchanges ▸ hgiven ▸ h.complete hs

theorem StreamInv.push_error (h : StreamInv store id opening received s (.live cursor))
    {t : Terminal} (hterminal : s.terminal = some t) :
    StreamInv store id opening received
      (({ s with terminal := none } : HubWatchStream).startPush (.error s.kind t.cursor t.error))
      .finished := by
  have hsub : s.subscribed = false := by
    by_contra hs
    rw [Bool.not_eq_false, h.subscribed, hterminal] at hs
    simp at hs
  have hchanges := pushedChanges_startPush (s := s) { s with terminal := none } rfl
    (.error s.kind t.cursor t.error)
  simp only [changeOf, Option.toList_none, List.append_nil] at hchanges
  refine ⟨traceState_startPush h.trace rfl rfl, .inr ⟨_, _, _, rfl⟩, kinds_startPush h rfl,
    first_startPush h (pushed_ne_nil_of_live h) _, h.capacity, ?_, ?_, ?_, ?_,
    fun _ hne => absurd rfl hne⟩
  · simp [HubWatchStream.startPush, hsub]
  · exact hchanges ▸ h.given
  · exact fun hd => hchanges ▸ h.queued hd
  · intro hs
    have hs : s.subscribed = true := hs
    simp [hsub] at hs

/-- A heartbeat is pushed when nothing else is left: the subscription stands where the stream
does, and the store is not behind it. -/
theorem StreamInv.push_heartbeat {current : StoredCursor}
    (h : StreamInv store id opening received s (.live cursor))
    (hcurrent : cursor.AtMost current.cursor) :
    StreamInv store id opening received
      (({ s with heartbeatPending := false } : HubWatchStream).startPush
        (.heartbeat s.kind current s.deliveredCursor)) (.live cursor) := by
  obtain ⟨hsnap, hcursor, -⟩ := h.place
  have hchanges := pushedChanges_startPush (s := s) { s with heartbeatPending := false }
    rfl (.heartbeat s.kind current s.deliveredCursor)
  simp only [changeOf, Option.toList_none, List.append_nil] at hchanges
  refine ⟨traceState_startPush h.trace rfl ?_, ⟨hsnap, hcursor, fun _ _ _ h => by cases h⟩,
    kinds_startPush h rfl, first_startPush h (pushed_ne_nil_of_live h) _, h.capacity, ?_, ?_, ?_,
    ?_, fun hd hne => h.chain hd hne⟩
  · simp [HubWatchFrame.map, TraceState.next, hcursor, hcurrent]
  · exact h.subscribed
  · exact hchanges ▸ h.given
  · exact fun hd => hchanges ▸ h.queued hd
  · exact fun hs => hchanges ▸ h.complete hs

/-! ### The pump -/

/-- Some stage that the frames have come to. -/
def Holds (store : HubStateStore) (id : ℕ) (opening : HubWatchSnapshot)
    (received : List HubWatchChange) (s : HubWatchStream) : Prop :=
  ∃ st, StreamInv store id opening received s st

theorem StreamInv.steer (h : StreamInv store id opening received s st)
    (blocked heartbeatPending heartbeat destroyed ended : Bool) :
    StreamInv store id opening received
      { s with blocked, heartbeatPending, heartbeat, destroyed, ended } st :=
  { h with
    place := by cases st <;> exact h.place }

theorem holds_frame (h : StreamInv store id opening received s st) {rest : HubWatchStream}
    {f : Frame} (hfinish : StreamInv store id opening received rest.finish st)
    (hpush : Holds store id opening received (rest.startPush f)) :
    Holds store id opening received
      (if !valid f then rest.finish
        else if !gate f then { s with blocked := true } else rest.startPush f) := by
  split_ifs
  · exact ⟨st, hfinish⟩
  · exact ⟨st, h.steer true s.heartbeatPending s.heartbeat s.destroyed s.ended⟩
  · exact hpush

section

variable (ht : store.Tracking) (h : StreamInv store id opening received s st)
include ht h

theorem StreamInv.loop (hhand : s.hand = none) :
    Holds store id opening received (s.loop valid gate (source store s.kind)) := by
  by_cases hstop : s.detached = true ∨ s.destroyed = true
  · rw [HubWatchStream.loop, if_pos hstop]
    exact ⟨st, h⟩
  rw [not_or, Bool.not_eq_true, Bool.not_eq_true] at hstop
  obtain ⟨hd, hdestroyed⟩ := hstop
  cases st with
  | start =>
    obtain ⟨hpushed, -, hcursor, hsnap⟩ := h.place
    have htake : s.take (source store s.kind) =
        some (some (.snapshot opening.kind opening.cursor opening.items),
          { s with snapshot := none }) := by
      simp [HubWatchStream.take, hsnap hd]
    rw [HubWatchStream.loop_of_take valid gate _ hd hdestroyed htake]
    refine holds_frame h ?_ ⟨_, h.push_snapshot⟩
    exact h.finish rfl rfl h.capacity ⟨hpushed, hhand, hcursor, fun h => by cases h⟩
  | live cursor =>
    obtain ⟨hsnap, hcursor, herror⟩ := h.place
    cases hlive : s.live with
    | cons c cs =>
      have htake : s.take (source store s.kind) =
          some (some (HubWatchStream.changeFrame s.kind c), { s with live := cs }) := by
        simp [HubWatchStream.take, hsnap, hlive]
      rw [HubWatchStream.loop_of_take valid gate _ hd hdestroyed htake]
      refine holds_frame h ?_ ⟨_, h.push_change hd hlive⟩
      refine h.finish rfl rfl ?_ ⟨hsnap, hcursor, herror⟩
      have := h.capacity
      rw [hlive, List.length_cons] at this
      exact Nat.le_of_succ_le this
    | nil =>
      cases hterminal : s.terminal with
      | some t =>
        have htake : s.take (source store s.kind) =
            some (some (.error s.kind t.cursor t.error), { s with terminal := none }) := by
          simp [HubWatchStream.take, hsnap, hlive, hterminal]
        rw [HubWatchStream.loop_of_take valid gate _ hd hdestroyed htake]
        refine holds_frame h ?_ ⟨_, h.push_error hterminal⟩
        exact h.finish rfl rfl h.capacity ⟨hsnap, hcursor, herror⟩
      | none =>
        by_cases hpending : s.heartbeatPending = true
        · -- the subscription is open, so the source is available
          have hsubscribed : s.subscribed = true :=
            h.subscribed.mpr ⟨hd, hterminal, by simp⟩
          obtain ⟨last, hlinked, hsub⟩ := h.chain hd (by simp)
          rw [hlive] at hlinked
          have hlast : last = s.deliveredCursor := hlinked
          obtain ⟨sub, hsub, hprev⟩ := hsub hsubscribed
          obtain ⟨snap, hsnapshot, -, hle⟩ := ht.snapshot hsub s.kind
          rw [hprev, hlast, hcursor] at hle
          have htake : s.take (source store s.kind) =
              some (some (.heartbeat s.kind snap.cursor s.deliveredCursor),
                { s with heartbeatPending := false }) := by
            simp [HubWatchStream.take, hsnap, hlive, hterminal, hpending, source, hsnapshot]
          rw [HubWatchStream.loop_of_take valid gate _ hd hdestroyed htake]
          refine holds_frame h ?_ ⟨_, h.push_heartbeat hle⟩
          exact h.finish rfl rfl h.capacity ⟨hsnap, hcursor, herror⟩
        · have htake : s.take (source store s.kind) = none := by
            simp [HubWatchStream.take, hsnap, hlive, hterminal, hpending]
          simp only [HubWatchStream.loop, hd, hdestroyed, Bool.false_eq_true, or_self,
            if_false, htake]
          exact ⟨_, h⟩
  | finished =>
    rcases h.place with hdet | ⟨_, _, _, hf⟩
    · rw [hd] at hdet
      cases hdet
    · rw [hhand] at hf
      cases hf

theorem StreamInv.pump :
    Holds store id opening received (s.pump valid gate (source store s.kind)) := by
  unfold HubWatchStream.pump
  split_ifs with hbusy
  · exact ⟨st, h⟩
  · rw [not_or, Bool.not_eq_true, Option.isSome_eq_false_iff, Option.isNone_iff_eq_none] at hbusy
    exact h.loop ht hbusy.1

theorem StreamInv.pushReturned (accepted : Bool) :
    Holds store id opening received
      (s.pushReturned valid gate (source store s.kind) accepted) := by
  unfold HubWatchStream.pushReturned
  split
  next => exact ⟨st, h⟩
  next k c e hhand =>
    refine ⟨st, h.finish rfl rfl h.capacity ?_⟩
    cases st with
    | start =>
      have := h.place.2.1
      rw [hhand] at this
      cases this
    | live cursor => exact absurd hhand (h.place.2.2 k c e)
    | finished => exact .inl rfl
  next f herror hhand =>
    have hdone : StreamInv store id opening received { s with hand := none } st := by
      refine { h with place := ?_ }
      cases st with
      | start => exact ⟨h.place.1, rfl, h.place.2.2⟩
      | live cursor => exact ⟨h.place.1, h.place.2.1, nofun⟩
      | finished =>
        rcases h.place with hdet | ⟨k, c, e, hf⟩
        · exact .inl hdet
        · rw [hhand, Option.some.injEq] at hf
          exact (herror k c e hf).elim
    split_ifs
    · exact ⟨st, hdone.steer true s.heartbeatPending s.heartbeat s.destroyed s.ended⟩
    · exact hdone.loop ht rfl

end

/-! ### The callbacks and the other events -/

theorem StreamInv.silent (h : StreamInv store id opening received s st)
    (hsubscribed : s.subscribed = false) (store' : HubStateStore) {received' : List HubWatchChange}
    (hreceived : received <+: received') : StreamInv store' id opening received' s st :=
  { h with
    given := h.given.trans hreceived
    queued := fun hd => (h.queued hd).trans hreceived
    complete := fun hs => by simp [hsubscribed] at hs
    chain := fun hd hne => by
      obtain ⟨last, hlinked, -⟩ := h.chain hd hne
      exact ⟨last, hlinked, fun hs => by simp [hsubscribed] at hs⟩ }

section

variable {store' : HubStateStore} (ht : store'.Tracking)
  (h : StreamInv store id opening received s st)
include ht h

theorem StreamInv.fail {received' : List HubWatchChange}
    (hreceived : received <+: received') (code : HubWatchTerminalCode) (message : String)
    (cursor : StoredCursor) :
    Holds store' id opening received'
      (s.fail valid gate (source store' s.kind) code message cursor) := by
  unfold HubWatchStream.fail
  split_ifs with hguard
  · refine ⟨st, h.silent ?_ store' hreceived⟩
    by_contra hs
    rw [Bool.not_eq_false, h.subscribed] at hs
    rcases hguard with hd | hterminal
    · rw [hs.1] at hd
      cases hd
    · rw [hs.2.1] at hterminal
      cases hterminal
  · have hfailed : StreamInv store' id opening received'
        { s with
          terminal := some ⟨cursor, HubWatchStream.terminalError code message⟩
          live := []
          heartbeat := false
          subscribed := false } st := by
      refine ⟨h.trace, (by cases st <;> exact h.place), h.kinds, h.first, Nat.zero_le _, by simp,
        h.given.trans hreceived, fun _ => ?_, nofun,
        fun _ _ => ⟨_, rfl, nofun⟩⟩
      show pushedChanges s ++ [] <+: received'
      rw [List.append_nil]
      exact h.given.trans hreceived
    exact hfailed.pump ht

theorem StreamInv.enqueue (hsubscribed : s.subscribed = true)
    {sub : Subscriber} (hsub : store.subscription id = some sub) {change : HubWatchChange}
    (hlink : change.previousCursor = sub.previousCursor)
    (hbefore : sub.previousCursor.cursor.Before change.cursor.cursor)
    (hsub' : store'.subscription id = some { sub with previousCursor := change.cursor }) :
    Holds store' id opening (received ++ [change])
      (s.enqueue valid gate (source store' s.kind) change) := by
  obtain ⟨hd, hterminal, hne⟩ := h.subscribed.mp hsubscribed
  obtain ⟨last, hlinked, hlast⟩ := h.chain hd hne
  obtain ⟨sub₀, hsub₀, hprev⟩ := hlast hsubscribed
  rw [hsub, Option.some.injEq] at hsub₀
  subst hsub₀
  have hcomplete := h.complete hsubscribed
  unfold HubWatchStream.enqueue
  rw [if_neg (by simp [hd, hterminal])]
  split_ifs with hfull
  · exact h.fail ht (List.prefix_append _ _) _ _ _
  · have hqueued : StreamInv store' id opening (received ++ [change])
        { s with live := s.live ++ [change] } st := by
      refine ⟨h.trace, (by cases st <;> exact h.place), h.kinds, h.first, ?_, h.subscribed,
        h.given.trans (List.prefix_append _ _), fun _ => ?_, fun _ => ?_,
        fun _ _ => ⟨change.cursor, ?_, fun _ => ⟨_, hsub', rfl⟩⟩⟩
      · rw [List.length_append, List.length_singleton]
        omega
      · show pushedChanges s ++ (s.live ++ [change]) <+: _
        rw [← List.append_assoc, hcomplete]
      · show pushedChanges s ++ (s.live ++ [change]) = _
        rw [← List.append_assoc, hcomplete]
      · exact hlinked.concat (hlink.trans hprev) (hprev ▸ hbefore)
    exact hqueued.pump ht

end

section

variable (ht : store.Tracking) (h : StreamInv store id opening received s st)
include ht h

theorem StreamInv.read :
    Holds store id opening received (s.read valid gate (source store s.kind)) :=
  (h.steer false s.heartbeatPending s.heartbeat s.destroyed s.ended).pump ht

theorem StreamInv.heartbeatTick :
    Holds store id opening received (s.heartbeatTick valid gate (source store s.kind)) := by
  unfold HubWatchStream.heartbeatTick
  split_ifs
  · exact (h.steer s.blocked true s.heartbeat s.destroyed s.ended).pump ht
  · exact ⟨st, h⟩

theorem StreamInv.shutdown (writable : Bool) :
    Holds store id opening received
      (s.shutdown valid gate (source store s.kind) writable) := by
  unfold HubWatchStream.shutdown
  split_ifs
  · exact ⟨st, h⟩
  · exact h.fail ht List.prefix_rfl _ _ _

end

theorem place_detach (h : Place opening s st) : Place opening s.detach st := by
  cases st with
  | start => exact ⟨h.1, h.2.1, h.2.2.1, nofun⟩
  | live cursor => exact h
  | finished => exact .inl rfl

theorem StreamInv.shutdownRest (h : StreamInv store id opening received s st) :
    Holds store id opening received s.shutdownRest := by
  unfold HubWatchStream.shutdownRest
  split_ifs
  · have hend := h.finish rfl rfl h.capacity (place_detach h.place)
    exact ⟨st, hend.steer s.finish.blocked s.finish.heartbeatPending s.finish.heartbeat true
      s.finish.ended⟩
  · exact ⟨st, h⟩

theorem StreamInv.onDisconnect (h : StreamInv store id opening received s st) :
    Holds store id opening received s.onDisconnect := by
  unfold HubWatchStream.onDisconnect
  split_ifs
  · exact ⟨st, h⟩
  · have hdetach : StreamInv store id opening received s.detach st :=
      h.detached rfl rfl rfl rfl h.capacity (place_detach h.place)
    exact ⟨st, hdetach.steer s.blocked s.heartbeatPending false true s.ended⟩

end StreamInv

/-! ## Runs -/

section Runs

variable {valid : Frame → Bool} {id : ℕ}

theorem Holds.of_store {store store' : HubStateStore} {opening : HubWatchSnapshot}
    {received : List HubWatchChange} {s : HubWatchStream} (h : Holds store id opening received s)
    (hsub : s.subscribed = true → store'.subscription id = store.subscription id) :
    Holds store' id opening received s := by
  obtain ⟨st, h⟩ := h
  refine ⟨st, { h with chain := fun hd hne => ?_ }⟩
  obtain ⟨last, hlinked, hlast⟩ := h.chain hd hne
  exact ⟨last, hlinked, fun hs => hsub hs ▸ hlast hs⟩

structure Inv (id : ℕ) (w : WatchRun) : Prop where
  tracking : w.store.Tracking
  holds : Holds w.store id w.opening w.received w.stream
  closed : w.stream.subscribed = false → w.store.subscription id = none

variable {w : WatchRun}

theorem Inv.sync (ht : w.store.Tracking) (h : Holds w.store id w.opening w.received w.stream) :
    Inv id (w.sync id) := by
  unfold WatchRun.sync
  split_ifs with hs
  · exact ⟨ht, h, fun hf => by simp [hs] at hf⟩
  · refine ⟨HubStateStore.unsubscribe_tracking ht id, h.of_store fun hf => absurd hf hs, fun _ => ?_⟩
    rw [HubStateStore.subscription_unsubscribe, if_pos rfl]

theorem Inv.act (hw : Inv id w) (f : Option StoredCursor → HubWatchStream → HubWatchStream)
    (hf : ∀ st, StreamInv w.store id w.opening w.received w.stream st → Holds w.store id w.opening w.received (f (source w.store w.stream.kind) w.stream)) :
    Inv id (w.act id f) := by
  obtain ⟨st, h⟩ := hw.holds
  exact Inv.sync hw.tracking (hf st h)

theorem Inv.serve (hw : Inv id w) (gate : Frame → Bool) {o : Outcome} (ht : o.store.Tracking)
    (hserved : w.store.Served id o) :
    Inv id (w.serve valid id gate o) := by
  obtain ⟨st, h⟩ := hw.holds
  have hopen : (w.store.subscription id).isSome → w.stream.subscribed = true := by
    intro hsome
    by_contra hs
    rw [hw.closed (by simpa using hs)] at hsome
    cases hsome
  cases hserved with
  | quiet hnotices hafter =>
    unfold WatchRun.serve
    rw [hnotices]
    exact Inv.sync ht (hw.holds.of_store fun _ => hafter)
  | failed error hbefore hnotices hafter =>
    unfold WatchRun.serve
    rw [hnotices]
    exact Inv.sync ht (h.fail ht List.prefix_rfl _ _ _)
  | changed sub change hbefore hnotices hlinked hforward hafter =>
    unfold WatchRun.serve
    rw [hnotices]
    exact Inv.sync ht
      (h.enqueue ht (hopen (by simp [hbefore])) hbefore hlinked hforward hafter)

theorem Inv.next (hw : Inv id w) (a : Action) : Inv id (w.next valid id a) := by
  cases a with
  | consume record throws gate =>
    exact hw.serve gate (HubStateStore.consume_tracking hw.tracking record _)
      (HubStateStore.consume_served hw.tracking (by simp) record)
  | subscribe kind other =>
    simp only [WatchRun.next]
    split_ifs with hother
    · exact hw
    · have hsub : (w.store.next (.subscribe kind other)).subscription id =
          w.store.subscription id :=
        HubStateStore.subscription_subscribe hw.tracking kind hother
      exact ⟨hw.tracking.next (.subscribe kind other), hw.holds.of_store fun _ => hsub,
        fun hs => hsub.trans (hw.closed hs)⟩
  | unsubscribe other =>
    simp only [WatchRun.next]
    split_ifs with hother
    · exact hw
    · have hsub : (w.store.unsubscribe other).subscription id = w.store.subscription id := by
        rw [HubStateStore.subscription_unsubscribe, if_neg hother]
      exact ⟨HubStateStore.unsubscribe_tracking hw.tracking other,
        hw.holds.of_store fun _ => hsub, fun hs => hsub.trans (hw.closed hs)⟩
  | close gate => exact hw.serve gate (.of_empty rfl) (HubStateStore.close_served hw.tracking)
  | read gate =>
    exact hw.act (fun source s => s.read valid gate source) fun _ h => h.read hw.tracking
  | heartbeat gate =>
    exact hw.act (fun source s => s.heartbeatTick valid gate source)
      fun _ h => h.heartbeatTick hw.tracking
  | pushReturned accepted gate =>
    exact hw.act (fun source s => s.pushReturned valid gate source accepted)
      fun _ h => h.pushReturned hw.tracking accepted
  | disconnect => exact hw.act (fun _ s => s.onDisconnect) fun _ h => h.onDisconnect
  | shutdown writable gate =>
    exact hw.act (fun source s => s.shutdown valid gate source writable)
      fun _ h => h.shutdown hw.tracking writable
  | shutdownRest => exact hw.act (fun _ s => s.shutdownRest) fun _ h => h.shutdownRest
  | destroy =>
    refine hw.act (fun _ s => { s with destroyed := true }) fun st h => ⟨st, ?_⟩
    exact h.steer w.stream.blocked w.stream.heartbeatPending w.stream.heartbeat true
      w.stream.ended

theorem Inv.opened {kind : HubWatchKind} {before store : HubStateStore}
    {snapshot : HubWatchSnapshot} (ht : before.Tracking)
    (hnew : ∀ sub ∈ before.subscribers, sub.id ≠ id)
    (hsub : before.subscribe kind id = some (store, snapshot)) :
    Inv id ⟨store, .opened kind snapshot, snapshot, []⟩ := by
  obtain ⟨-, hsubscription, ht'⟩ := HubStateStore.subscribe_served ht hsub hnew
  refine ⟨ht', ⟨.start, ?_⟩, nofun⟩
  have hkind := HubStateStore.kind_of_subscribe hsub
  exact {
    trace := rfl
    place := ⟨rfl, rfl, rfl, fun _ => rfl⟩
    kinds := ⟨hkind, nofun⟩
    first := nofun
    capacity := Nat.zero_le _
    subscribed := by simp [HubWatchStream.opened]
    given := List.nil_prefix
    queued := fun _ => List.nil_prefix
    complete := fun _ => rfl
    chain := fun _ _ => ⟨snapshot.cursor, rfl, fun _ => ⟨_, hsubscription, rfl⟩⟩ }

theorem inv_of_reachable {kind : HubWatchKind}
    (h : (system valid id kind).Reachable System.anyStep w) : Inv id w := by
  refine h.invariant (fun w hw => ?_) (fun w a w' _ hi _ hstep => ?_)
  · obtain ⟨store, snapshot, hreach, hnew, hsub, hw⟩ := hw
    rw [hw]
    exact Inv.opened (HubStateStore.tracking_of_reachable hreach) hnew hsub
  · cases hstep
    exact hi.next a

/-! ### After the detach -/

/-- `s'` is detached and has pushed no more than `s`. -/
def Released (s s' : HubWatchStream) : Prop := s'.detached = true ∧ s'.pushed = s.pushed

variable {gate : Frame → Bool} {store : Option StoredCursor} {s : HubWatchStream}

theorem released_pump (hd : s.detached = true) : s.pump valid gate store = s := by
  simp [HubWatchStream.pump, HubWatchStream.loop, hd]

theorem released_finish : Released s s.finish := by
  unfold HubWatchStream.finish
  split <;> exact ⟨rfl, rfl⟩

theorem released_pushReturned (hd : s.detached = true) (accepted : Bool) :
    Released s (s.pushReturned valid gate store accepted) := by
  unfold HubWatchStream.pushReturned
  split
  next => exact ⟨hd, rfl⟩
  next => exact released_finish (s := { s with hand := none })
  next =>
    split_ifs
    · exact ⟨hd, rfl⟩
    · rw [HubWatchStream.loop, if_pos (.inl hd)]
      exact ⟨hd, rfl⟩

theorem onNotice_of_detached (hd : s.detached = true) (n : Notice) :
    s.onNotice valid gate store n = s := by
  cases n <;> simp [HubWatchStream.onNotice, HubWatchStream.enqueue, HubWatchStream.fail, hd]

theorem stream_sync (w : WatchRun) : (w.sync id).stream = w.stream := by
  unfold WatchRun.sync
  split_ifs <;> rfl

theorem stream_serve_of_detached (hd : w.stream.detached = true) (o : Outcome) :
    (w.serve valid id gate o).stream = w.stream := by
  unfold WatchRun.serve
  rw [stream_sync]
  suffices hfold : ∀ (notices : List Notice) (v : WatchRun), v.stream = w.stream →
      (notices.foldl (receive valid gate) v).stream = w.stream from
    hfold _ _ rfl
  intro notices
  induction notices with
  | nil => exact fun _ hv => hv
  | cons n ns ih =>
    intro v hv
    refine ih _ ?_
    show v.stream.onNotice valid gate _ n = w.stream
    rw [hv]
    exact onNotice_of_detached hd n

theorem released_next (hd : w.stream.detached = true) (a : Action) :
    Released w.stream (w.next valid id a).stream := by
  have hsame : Released w.stream w.stream := ⟨hd, rfl⟩
  cases a with
  | consume record throws gate =>
    simp only [WatchRun.next, stream_serve_of_detached hd]
    exact hsame
  | subscribe kind other | unsubscribe other =>
    simp only [WatchRun.next]
    split_ifs <;> exact hsame
  | close gate =>
    simp only [WatchRun.next, stream_serve_of_detached hd]
    exact hsame
  | read gate =>
    simp only [WatchRun.next, WatchRun.act, stream_sync, HubWatchStream.read]
    rw [released_pump (s := { w.stream with blocked := false }) hd]
    exact hsame
  | heartbeat gate =>
    simp only [WatchRun.next, WatchRun.act, stream_sync, HubWatchStream.heartbeatTick]
    split_ifs
    · rw [released_pump (s := { w.stream with heartbeatPending := true }) hd]
      exact hsame
    · exact hsame
  | pushReturned accepted gate =>
    simp only [WatchRun.next, WatchRun.act, stream_sync]
    exact released_pushReturned hd accepted
  | disconnect =>
    simp only [WatchRun.next, WatchRun.act, stream_sync, HubWatchStream.onDisconnect, if_pos hd]
    exact hsame
  | shutdown writable gate =>
    simp only [WatchRun.next, WatchRun.act, stream_sync, HubWatchStream.shutdown, hd, true_or,
      if_true]
    exact hsame
  | shutdownRest =>
    simp only [WatchRun.next, WatchRun.act, stream_sync, HubWatchStream.shutdownRest]
    split_ifs
    · exact released_finish
    · exact hsame
  | destroy =>
    simp only [WatchRun.next, WatchRun.act, stream_sync]
    exact hsame

end Runs

/-! ## The result -/

/-- In every run the frames pushed are a prefix of a well-formed stream: the snapshot, its changes in
order, heartbeats between them, then at most one error. The queue is bounded, and a detached stream
pushes nothing. -/
theorem watch_frames {valid : Frame → Bool} {id : ℕ} {kind : HubWatchKind} {w : WatchRun}
    (h : (system valid id kind).Reachable System.anyStep w) :
    WellFormed (frames w.stream) ∧
      (∀ f, w.stream.pushed.head? = some f →
        f = .snapshot w.opening.kind w.opening.cursor w.opening.items) ∧
      (∀ f ∈ w.stream.pushed, f.kind = w.opening.kind) ∧
      pushedChanges w.stream <+: w.received ∧
      (changeCursors (frames w.stream)).Pairwise HubCursor.Before ∧
      w.stream.live.length ≤ hubWatchQueueCapacity ∧
      (w.stream.detached = true →
        ∀ a, Released w.stream (w.next valid id a).stream) := by
  obtain ⟨st, hinv⟩ := (inv_of_reachable h).holds
  have hwell : WellFormed (frames w.stream) := Option.isSome_iff_exists.mpr ⟨st, hinv.trace⟩
  exact ⟨hwell, hinv.first, fun f hf => (hinv.kinds.2 f hf).trans hinv.kinds.1.symm, hinv.given,
    hwell.changeCursors_pairwise, hinv.capacity, released_next⟩

/-- A stream on an empty store that is read pushes the snapshot and the change that comes while
this push is in progress. -/
theorem watch_frames_upsert :
    ∃ w : WatchRun, (frames w.stream).length = 2 ∧ WellFormed (frames w.stream) ∧
      pushedChanges w.stream <+: w.received := by
  let store := HubStateStore.new.next (.consume (checkpointRecord 1 []) fun _ => false)
  have hstore : HubStateStore.system.Reachable System.anyStep store :=
    .step (.init rfl) (a := .consume (checkpointRecord 1 []) fun _ => false) trivial rfl
  let anyFrame : Frame → Bool := fun _ => true
  let start (opened : HubStateStore × HubWatchSnapshot) : WatchRun :=
    ⟨opened.1, .opened .sequence opened.2, opened.2, []⟩
  let run : List Action := [.read anyFrame, .consume (upsertRecord 1 "s") (fun _ => false) anyFrame,
    .pushReturned true anyFrame]
  have hany : (store.subscribe .sequence 0).any (fun opened =>
      (frames (run.foldl (WatchRun.next anyFrame 0) (start opened)).stream).length = 2) = true := by
    decide
  obtain ⟨opened, hopened, hlength⟩ := (Option.any_eq_true _ _).mp hany
  have hstart : (system anyFrame 0 .sequence).Reachable System.anyStep (start opened) :=
    .init ⟨store, opened.2, hstore, nofun, hopened, rfl⟩
  have hrun : (system anyFrame 0 .sequence).Reachable System.anyStep
      (run.foldl (WatchRun.next anyFrame 0) (start opened)) :=
    hstart.foldl (fun _ _ => rfl) run
  exact ⟨_, of_decide_eq_true hlength, (watch_frames hrun).1, (watch_frames hrun).2.2.2.1⟩

end WatchRun

end TransformHub.Host
