import TransformHub.HubState.Subscribers

/-!
# Hub event watch contract

What both ends of a watch share (`hub-event-watch-contract.ts` and the defaults): the frames of the
stream, the error codes, and the capacity of the queues.
-/

namespace TransformHub.RestApi2

open Js HubState

def hubWatchQueueCapacity : ℕ := 256

inductive HubWatchTerminalCode where
  | gap
  | overflow
  | restarted
  | sourceUnavailable
deriving DecidableEq

inductive HubWatchErrorCode where
  | openTimeout
  | silenceTimeout
  | disconnected
  | gap
  | overflow
  | restarted
  | protocolError
  | httpError
  | sourceUnavailable
deriving DecidableEq

/-- The code under which a client reports a server's error. -/
def HubWatchTerminalCode.toErrorCode : HubWatchTerminalCode → HubWatchErrorCode
  | .gap => .gap
  | .overflow => .overflow
  | .restarted => .restarted
  | .sourceUnavailable => .sourceUnavailable

/-- Who gave up on a watch. -/
inductive HubWatchSide where
  | server
  | client
deriving DecidableEq

inductive HubWatchTerminalSide where
  | server

def HubWatchTerminalSide.toSide : HubWatchTerminalSide → HubWatchSide
  | .server => .server

structure HubWatchTerminalError where
  code : HubWatchTerminalCode
  message : String
  side : Option HubWatchTerminalSide

/-- The frames of a watch, with cursors in `γ`. -/
inductive HubWatchFrame (γ : Type) where
  | snapshot (kind : HubWatchKind) (cursor : γ) (items : List Json)
  | change (kind : HubWatchKind) (mutation : Json) (cursor previousCursor : γ)
  | heartbeat (kind : HubWatchKind) (cursor deliveredCursor : γ)
  | error (kind : HubWatchKind) (cursor : γ) (terminal : HubWatchTerminalError)

namespace HubWatchFrame

variable {γ δ : Type}

def kind : HubWatchFrame γ → HubWatchKind
  | .snapshot kind .. => kind
  | .change kind .. => kind
  | .heartbeat kind .. => kind
  | .error kind .. => kind

/-- Read the cursors with `f`. -/
def map (f : γ → δ) : HubWatchFrame γ → HubWatchFrame δ
  | .snapshot kind cursor items => .snapshot kind (f cursor) items
  | .change kind mutation cursor previousCursor =>
    .change kind mutation (f cursor) (f previousCursor)
  | .heartbeat kind cursor deliveredCursor => .heartbeat kind (f cursor) (f deliveredCursor)
  | .error kind cursor terminal => .error kind (f cursor) terminal

end HubWatchFrame

/-! ## Well-formed streams of frames -/

/-- How far a stream of frames has come. -/
inductive TraceState where
  | start
  | live (cursor : HubCursor)
  | finished

/-- One frame of a well-formed stream: first a snapshot, then changes that lead on from the cursor
reached, heartbeats that report that cursor and are not behind it, and at most one error frame,
after which nothing follows. -/
def TraceState.next : TraceState → HubWatchFrame HubCursor → Option TraceState
  | .start, .snapshot _ cursor _ => some (.live cursor)
  | .live reached, .change _ _ cursor previousCursor =>
    if previousCursor = reached ∧ reached.Before cursor then some (.live cursor) else none
  | .live reached, .heartbeat _ cursor deliveredCursor =>
    if deliveredCursor = reached ∧ reached.AtMost cursor then some (.live reached) else none
  | .live _, .error .. => some .finished
  | _, _ => none

/-- Where a stream of frames has come to, if it is well formed. -/
def traceState (frames : List (HubWatchFrame HubCursor)) : Option TraceState :=
  frames.foldlM TraceState.next .start

/-- The frames are a prefix of a well-formed stream. -/
def WellFormed (frames : List (HubWatchFrame HubCursor)) : Prop := (traceState frames).isSome

theorem traceState_concat (frames : List (HubWatchFrame HubCursor)) (f : HubWatchFrame HubCursor) :
    traceState (frames ++ [f]) = (traceState frames).bind fun st => st.next f := by
  simp only [traceState, List.foldlM_append, List.foldlM_cons, List.foldlM_nil]
  cases frames.foldlM TraceState.next .start with
  | none => rfl
  | some st => cases h : st.next f <;> simp [h]

/-- The cursors that the changes of a stream of frames lead to. -/
def changeCursors (frames : List (HubWatchFrame HubCursor)) : List HubCursor :=
  frames.filterMap fun
    | .change _ _ cursor _ => some cursor
    | _ => none

theorem changeCursors_forward {frames : List (HubWatchFrame HubCursor)} {st st' : TraceState}
    (h : frames.foldlM TraceState.next st = some st') :
    (changeCursors frames).Pairwise HubCursor.Before ∧
      ∀ reached, st = .live reached → ∀ cursor ∈ changeCursors frames, reached.Before cursor := by
  induction frames generalizing st with
  | nil => exact ⟨.nil, nofun⟩
  | cons f fs ih =>
    rw [List.foldlM_cons] at h
    obtain ⟨mid, hnext, hrest⟩ := Option.bind_eq_some_iff.mp h
    obtain ⟨hpair, hforward⟩ := ih hrest
    cases f with
    | snapshot kind cursor items =>
      cases st with
      | start => exact ⟨hpair, nofun⟩
      | live reached | finished => cases hnext
    | change kind mutation cursor previousCursor =>
      cases st with
      | start => cases hnext
      | live reached =>
        simp only [TraceState.next] at hnext
        split_ifs at hnext with hlink
        cases hnext
        refine ⟨.cons (hforward cursor rfl) hpair, fun r hr c hc => ?_⟩
        cases hr
        rcases List.mem_cons.mp hc with rfl | hc
        · exact hlink.2
        · exact hlink.2.atMost.before (hforward cursor rfl c hc)
      | finished => cases hnext
    | heartbeat kind cursor deliveredCursor =>
      cases st with
      | start => cases hnext
      | live reached =>
        simp only [TraceState.next] at hnext
        split_ifs at hnext
        cases hnext
        exact ⟨hpair, hforward⟩
      | finished => cases hnext
    | error kind cursor terminal =>
      cases st with
      | start => cases hnext
      | live reached =>
        cases hnext
        refine ⟨hpair, fun _ _ c hc => ?_⟩
        cases fs with
        | nil => cases hc
        | cons g gs => cases g <;> cases hrest
      | finished => cases hnext

theorem WellFormed.changeCursors_pairwise {frames : List (HubWatchFrame HubCursor)}
    (h : WellFormed frames) : (changeCursors frames).Pairwise HubCursor.Before := by
  obtain ⟨st, hst⟩ := Option.isSome_iff_exists.mp h
  exact (changeCursors_forward hst).1

end TransformHub.RestApi2
