import TransformHub.Host.CommunicationStreams

/-!
# The intervals of the load check

`setLoadCheckMessageSender` sends a load and then starts an interval, which is kept in
`loadInterval` over the one that was there.
-/

namespace TransformHub.Host

structure LoadIntervals where
  streams : CommunicationStreams
  /-- the intervals that have been started and not been cleared -/
  active : List ℕ

namespace LoadIntervals

open CommunicationStreams (Action)

def new : LoadIntervals := ⟨.new, []⟩

section Steps

variable (s : LoadIntervals)

/-- `clearInterval(this.loadInterval)` -/
def cleared : List ℕ :=
  match s.streams.loadInterval with
  | none => s.active
  | some generation => s.active.erase generation

def intervals : Action → List ℕ
  | .connector (.closed _ generation) =>
    if s.streams.connector.isCurrent generation then s.cleared else s.active
  | .connector (.streamError generation) =>
    if s.streams.connector.isAbandoned then s.active
    else if s.streams.connector.isCurrent (some generation) then s.cleared
    else s.active
  | .connector .disconnect => s.cleared
  | .connector _ => s.active
  | .loadSent i =>
    match s.streams.requests[i]? with
    | none => s.active
    | some generation => s.active ++ [generation]

def next (a : Action) : LoadIntervals := ⟨s.streams.next a, s.intervals a⟩

end Steps

def run (actions : List Action) : LoadIntervals := actions.foldl next new

/-- At most one interval runs, and none without a communication stream. -/
structure OneInterval (s : LoadIntervals) : Prop where
  one : s.active.length ≤ 1
  stream : s.streams.connector.communicationStream = false → s.active = []

/-- When a first load has been sent, there is a stream, and `loadInterval` is not set. -/
def InTime (s : LoadIntervals) : Action → Prop
  | .loadSent i => s.streams.requests[i]? ≠ none →
      s.streams.connector.communicationStream = true ∧ s.streams.loadInterval = none
  | _ => True

/-- The intervals that run are the one that is kept. -/
def Kept (s : LoadIntervals) : Prop := s.active = s.streams.loadInterval.toList

variable {s : LoadIntervals}

theorem Kept.cleared (K : Kept s) : s.cleared = [] := by
  unfold LoadIntervals.cleared
  rw [K]
  cases s.streams.loadInterval with
  | none => rfl
  | some g => simp

/-- A step that is about neither the stream nor the interval. -/
def IsAside : Action → Prop
  | .connector .communicationRequest | .connector (.closed _ _) | .connector (.streamError _)
  | .connector .disconnect | .loadSent _ => False
  | _ => True

theorem stream_connector {a : CPMConnector.Action} (h : IsAside (.connector a))
    (c : CPMConnector) : (c.next a).communicationStream = c.communicationStream := by
  cases a with
  | connect =>
    show c.connect.communicationStream = _
    unfold CPMConnector.connect
    dsimp only
    split
    · rfl
    · exact (CPMConnector.sameLink_connectOnce { c with started := true }).stream
  | callResumed i =>
    show (c.callResumed i).communicationStream = _
    unfold CPMConnector.callResumed
    split
    · rfl
    · split
      · dsimp only
        split
        · rfl
        · exact (CPMConnector.sameLink_reconnect _).stream
      · rfl
  | attemptProceeds n =>
    show (c.attemptProceeds n).communicationStream = _
    unfold CPMConnector.attemptProceeds
    split <;> first | rfl | (split <;> first | rfl | (split <;> rfl))
  | attemptFails n =>
    show (c.attemptFails n).communicationStream = _
    unfold CPMConnector.attemptFails
    split <;> rfl
  | attemptCleared n => exact (CPMConnector.sameLink_attemptCleared c n).stream
  | backoffSettled i =>
    show (c.backoffSettled i).communicationStream = _
    unfold CPMConnector.backoffSettled
    split
    · split
      · rfl
      · split
        · rfl
        · exact (CPMConnector.sameLink_connectOnce c).stream
    · rfl
  | supervisorResumed i =>
    show (c.supervisorResumed i).communicationStream = _
    unfold CPMConnector.supervisorResumed
    split
    · split
      · rfl
      · split <;> rfl
      · rfl
    · rfl
  | dropMessage => rfl
  | communicationRequest | closed _ _ | streamError _ | disconnect => exact h.elim

theorem loadInterval_connector {a : CPMConnector.Action} (h : IsAside (.connector a))
    (s : CommunicationStreams) : (s.next (.connector a)).loadInterval = s.loadInterval := by
  cases a with
  | attemptProceeds n =>
    show (s.observe (.attemptProceeds n)).loadInterval = _
    unfold CommunicationStreams.observe
    dsimp only
    split
    · split <;> rfl
    · split <;> rfl
    · rfl
  | communicationRequest | closed _ _ | streamError _ | disconnect => exact h.elim
  | _ => rfl

structure Lost (s : LoadIntervals) (a : Action) : Prop where
  stream : (s.next a).streams.connector.communicationStream = false
  loadInterval : (s.next a).streams.loadInterval = none
  active : (s.next a).active = s.cleared

/-- What a step does to the stream and the intervals. -/
inductive Moves (s : LoadIntervals) (a : Action) : Prop where
  | same (inTime : InTime s a)
      (stream : (s.next a).streams.connector.communicationStream =
        s.streams.connector.communicationStream)
      (loadInterval : (s.next a).streams.loadInterval = s.streams.loadInterval)
      (active : (s.next a).active = s.active)
  | installed (inTime : InTime s a)
      (stream : (s.next a).streams.connector.communicationStream = true)
      (loadInterval : (s.next a).streams.loadInterval = s.streams.loadInterval)
      (active : (s.next a).active = s.active)
  | lost (inTime : InTime s a) (lost : Lost s a)
  | sent (i generation : ℕ) (action : a = .loadSent i)
      (request : s.streams.requests[i]? = some generation)
      (stream : (s.next a).streams.connector.communicationStream =
        s.streams.connector.communicationStream)
      (loadInterval : (s.next a).streams.loadInterval = some generation)
      (active : (s.next a).active = s.active ++ [generation])

theorem lost_closed {connectionStatusCode : ℕ} {generation : Option ℕ}
    (h : s.streams.connector.isCurrent generation = true) :
    Lost s (.connector (.closed connectionStatusCode generation)) := by
  obtain ⟨-, -, hstream, -⟩ :=
    CommunicationStreams.handleConnectionClose_current connectionStatusCode h
  refine ⟨hstream, ?_, ?_⟩
  · show (if s.streams.connector.isCurrent generation then s.streams.lose else s.streams).loadInterval
      = none
    rw [if_pos h]
    rfl
  · show (if s.streams.connector.isCurrent generation then s.cleared else s.active) = _
    rw [if_pos h]

theorem moves_closed (s : LoadIntervals) (connectionStatusCode : ℕ) (generation : Option ℕ) :
    Moves s (.connector (.closed connectionStatusCode generation)) := by
  by_cases hcurrent : s.streams.connector.isCurrent generation = true
  · exact .lost trivial (lost_closed hcurrent)
  · have hstale : s.streams.connector.handleConnectionClose connectionStatusCode generation =
        s.streams.connector := CommunicationStreams.handleConnectionClose_stale hcurrent
    have hnext : s.next (.connector (.closed connectionStatusCode generation)) = s := by
      simp [LoadIntervals.next, CommunicationStreams.next, CommunicationStreams.observe, intervals,
        CPMConnector.next, hcurrent, hstale]
    exact .same trivial (by rw [hnext]) (by rw [hnext]) (by rw [hnext])

theorem moves_streamError (s : LoadIntervals) (generation : ℕ) :
    Moves s (.connector (.streamError generation)) := by
  cases habandoned : s.streams.connector.isAbandoned with
  | true =>
    have hnext : s.next (.connector (.streamError generation)) = s := by
      simp [LoadIntervals.next, CommunicationStreams.next, CommunicationStreams.observe,
        intervals, CPMConnector.next, habandoned]
    exact .same trivial (by rw [hnext]) (by rw [hnext]) (by rw [hnext])
  | false =>
    -- the error is handled as a close
    have hnext : s.next (.connector (.streamError generation)) =
        s.next (.connector (.closed 1006 (some generation))) := by
      simp [LoadIntervals.next, CommunicationStreams.next, CommunicationStreams.observe,
        intervals, CPMConnector.next, habandoned]
    cases moves_closed s 1006 (some generation) with
    | same _ stream loadInterval active =>
      exact .same trivial (hnext ▸ stream) (hnext ▸ loadInterval) (hnext ▸ active)
    | installed _ stream loadInterval active =>
      exact .installed trivial (hnext ▸ stream) (hnext ▸ loadInterval) (hnext ▸ active)
    | lost _ lost =>
      exact .lost trivial
        ⟨hnext ▸ lost.stream, hnext ▸ lost.loadInterval, hnext ▸ lost.active⟩
    | sent i g action => cases action

theorem moves (s : LoadIntervals) (a : Action) : Moves s a := by
  cases a with
  | loadSent i =>
    cases hrequest : s.streams.requests[i]? with
    | none =>
      have hnext : s.next (.loadSent i) = s := by
        simp [LoadIntervals.next, CommunicationStreams.next, intervals, hrequest]
      have hunsent : InTime s (.loadSent i) := fun h => absurd hrequest h
      exact .same hunsent (by rw [hnext]) (by rw [hnext]) (by rw [hnext])
    | some generation =>
      refine .sent i generation rfl hrequest ?_ ?_ ?_ <;>
        simp [LoadIntervals.next, CommunicationStreams.next, intervals, hrequest]
  | connector a =>
    by_cases haside : IsAside (.connector a)
    · refine .same trivial (stream_connector haside _) (loadInterval_connector haside _) ?_
      cases a <;> first | rfl | exact haside.elim
    · cases a with
      | communicationRequest =>
        cases hstream : s.streams.connector.communicationStream with
        | true =>
          refine .same trivial ?_ ?_ rfl
          · simp [LoadIntervals.next, CommunicationStreams.next, CPMConnector.next,
              CPMConnector.handleCommunicationRequest, hstream]
          · simp [LoadIntervals.next, CommunicationStreams.next,
              CommunicationStreams.observe, hstream]
        | false =>
          refine .installed trivial ?_ ?_ rfl
          · simp [LoadIntervals.next, CommunicationStreams.next, CPMConnector.next,
              CPMConnector.handleCommunicationRequest, hstream]
          · simp [LoadIntervals.next, CommunicationStreams.next,
              CommunicationStreams.observe, hstream]
      | closed connectionStatusCode generation => exact moves_closed s _ generation
      | streamError generation => exact moves_streamError s generation
      | disconnect => exact .lost trivial ⟨rfl, rfl, rfl⟩
      | _ => exact absurd trivial haside

/-! ## Runs -/

theorem oneInterval_next_iff (K : Kept s) (O : OneInterval s) (a : Action) :
    OneInterval (s.next a) ↔ InTime s a := by
  cases moves s a with
  | same inTime stream loadInterval active =>
    refine iff_of_true ⟨?_, fun h => ?_⟩ inTime
    · rw [active]
      exact O.one
    · rw [active]
      exact O.stream (stream ▸ h)
  | installed inTime stream loadInterval active =>
    refine iff_of_true ⟨?_, fun h => ?_⟩ inTime
    · rw [active]
      exact O.one
    · rw [stream] at h
      cases h
  | lost inTime lost =>
    refine iff_of_true ⟨?_, fun _ => ?_⟩ inTime
    · rw [lost.active, K.cleared]
      exact Nat.zero_le 1
    · rw [lost.active, K.cleared]
  | sent i generation action request stream loadInterval active =>
    subst action
    constructor
    · intro O' _
      constructor
      · by_contra hstream
        have hempty := O'.stream (stream.trans (by simpa using hstream))
        rw [active] at hempty
        cases List.append_eq_nil_iff.mp hempty with
        | intro _ h => cases h
      · have hone := O'.one
        rw [active, List.length_append, List.length_singleton, K] at hone
        cases hinterval : s.streams.loadInterval with
        | none => rfl
        | some g =>
          rw [hinterval] at hone
          exact absurd hone (Nat.not_succ_le_self 1)
    · intro h
      obtain ⟨hstream, hnone⟩ := h (by rw [request]; exact Option.some_ne_none _)
      refine ⟨?_, fun hlost => ?_⟩
      · rw [active, K, hnone]
        exact Nat.le_refl 1
      · rw [stream, hstream] at hlost
        cases hlost

theorem Kept.next (K : Kept s) (a : Action) (h : InTime s a) : Kept (s.next a) := by
  cases moves s a with
  | same _ stream loadInterval active => exact active.trans (K.trans (by rw [loadInterval]))
  | installed _ stream loadInterval active => exact active.trans (K.trans (by rw [loadInterval]))
  | lost _ lost =>
    show _ = _
    rw [lost.active, lost.loadInterval, K.cleared]
    rfl
  | sent i generation action request stream loadInterval active =>
    subst action
    obtain ⟨-, hnone⟩ := h (by rw [request]; exact Option.some_ne_none _)
    show _ = _
    rw [active, loadInterval, K, hnone]
    rfl

/-- Every state of a run has at most one interval, and none without a stream, exactly when every first
load has been sent while there is a stream and no interval. -/
theorem oneInterval_iff (actions : List Action) :
    System.Always next OneInterval new actions ↔ System.Meets next InTime new actions := by
  apply System.always_iff_meets (A := fun _ => True) (I := Kept)
  · exact fun s a _ K O => oneInterval_next_iff K O a
  · exact fun s a _ K _ h => K.next a h
  · rfl
  · exact ⟨Nat.zero_le 1, fun _ => rfl⟩
  · exact fun _ _ => trivial

/-- The stream is lost while its first load is sent. -/
def lostDuringLoad : List Action :=
  [.connector .connect, .connector (.attemptProceeds 0), .connector (.attemptProceeds 0),
    .connector (.attemptProceeds 0), .connector .communicationRequest,
    .connector (.closed 1006 (some 1)), .loadSent 0]

theorem lostDuringLoad_not_oneInterval : ¬ OneInterval (run lostDuringLoad) := by
  intro O
  have hactive : [1] = [] := O.stream rfl
  cases hactive

end LoadIntervals

end TransformHub.Host
