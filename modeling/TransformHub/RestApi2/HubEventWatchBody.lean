import Mathlib.Data.List.Infix
import TransformHub.RestApi2.HubEventWatch

/-!
# The body of a client watch

What a watch makes of a body does not depend on how its bytes are cut into chunks: `Scan` follows
the checks of the pump along the lines, and `Body.outcome` reads the events and the terminal off the
bytes alone.
-/

namespace TransformHub.RestApi2

open Js HubState

/-! ## What the lines of a body carry -/

section Scan

-- `parse` reads a line, `kind` is the kind that was asked for
variable (parse : List Char → ParsedLine) (kind : HubWatchKind)

/-- What has been read off the lines so far. -/
structure Scan where
  /-- the cursor of the last event -/
  reached : Option HubCursor
  events : List ClientFrame
  stopped : Option HubWatchErrorCode

namespace Scan

def start : Scan := ⟨none, [], none⟩

def frame (s : Scan) (f : ClientFrame) : Scan :=
  match checkFrame s.reached.isSome s.reached f with
  | .lost code _ _ => { s with stopped := some code }
  | .heartbeat => s
  | .event cursor => { s with reached := some cursor, events := s.events ++ [f] }

def line (s : Scan) (l : List Char) : Scan :=
  if s.stopped.isSome then s
  else
    match readLine parse kind l with
    | .error _ => { s with stopped := some .protocolError }
    | .ok f => s.frame f

def run (ls : List (List Char)) : Scan := ls.foldl (line parse kind) start

/-- The stage of the stream of frames that the events make. -/
def stage (s : Scan) : TraceState := s.reached.elim .start .live

end Scan

structure Body where
  response : Option OpenedResponse
  bytes : List UInt8
deriving DecidableEq

namespace Body

def lines (b : Body) : List (List Char) :=
  (Lines.lines '\n' (StringDecoder.write none b.bytes).2).1

/-- The events of a body, and the code of the terminal that it leads to. -/
def outcome (b : Body) : List ClientFrame × HubWatchErrorCode :=
  match b.response with
  | none => ([], .disconnected)
  | some r =>
    match r.rejection with
    | some (code, _, _) => ([], code)
    | none =>
      let s := Scan.run parse kind b.lines
      (s.events, s.stopped.getD .disconnected)

end Body

end Scan

/-- Frames that are given to the consumer. -/
def HubWatchFrame.IsEvent {γ : Type} : HubWatchFrame γ → Prop
  | .snapshot .. => True
  | .change .. => True
  | _ => False

section ScanLaws

variable {parse : List Char → ParsedLine} {kind : HubWatchKind}

theorem checkFrame_event {reached : Option HubCursor} {f : ClientFrame} {cursor : HubCursor}
    (h : checkFrame reached.isSome reached f = .event cursor) :
    f.IsEvent ∧ (reached.elim TraceState.start .live).next f = some (.live cursor) := by
  cases f with
  | snapshot k next items =>
    cases reached with
    | none =>
      cases h
      exact ⟨trivial, rfl⟩
    | some r => cases h
  | change k mutation next previousCursor =>
    cases reached with
    | none => cases h
    | some r =>
      simp only [checkFrame, Option.isSome_some] at h
      split_ifs at h with hid hgap
      cases h
      rw [not_or, Decidable.not_not] at hgap
      refine ⟨trivial, if_pos ⟨hgap.1.symm, hid, ?_⟩⟩
      exact Nat.lt_of_not_le hgap.2
  | heartbeat k current deliveredCursor =>
    cases reached with
    | none => cases h
    | some r =>
      simp only [checkFrame] at h
      split_ifs at h
  | error k c terminal => cases h

theorem Scan.line_of_stopped {s : Scan} (h : s.stopped.isSome) (l : List Char) :
    s.line parse kind l = s := if_pos h

theorem Scan.foldl_of_stopped {s : Scan} (h : s.stopped.isSome) (ls : List (List Char)) :
    ls.foldl (Scan.line parse kind) s = s := by
  induction ls with
  | nil => rfl
  | cons l ls ih => rw [List.foldl_cons, Scan.line_of_stopped h, ih]

theorem Scan.run_append (a b : List (List Char)) :
    Scan.run parse kind (a ++ b) = b.foldl (Scan.line parse kind) (Scan.run parse kind a) := by
  rw [Scan.run, List.foldl_append, Scan.run]

variable (parse kind) in
theorem Scan.line_cases (s : Scan) (l : List Char) :
    s.line parse kind l = s ∨ (∃ code, s.line parse kind l = { s with stopped := some code }) ∨
      ∃ f cursor, readLine parse kind l = .ok f ∧
        checkFrame s.reached.isSome s.reached f = .event cursor ∧
          s.line parse kind l = { s with reached := some cursor, events := s.events ++ [f] } := by
  unfold Scan.line
  split_ifs
  · exact .inl rfl
  · split
    next => exact .inr (.inl ⟨_, rfl⟩)
    next f hread =>
      unfold Scan.frame
      split
      next code _ _ _ => exact .inr (.inl ⟨code, rfl⟩)
      next => exact .inl rfl
      next cursor hcheck => exact .inr (.inr ⟨f, cursor, hread, hcheck, rfl⟩)

theorem Scan.events_isPrefix (s : Scan) (ls : List (List Char)) :
    s.events <+: (ls.foldl (Scan.line parse kind) s).events := by
  induction ls generalizing s with
  | nil => exact List.prefix_rfl
  | cons l ls ih =>
    rw [List.foldl_cons]
    refine List.IsPrefix.trans ?_ (ih _)
    rcases Scan.line_cases parse kind s l with
      h | ⟨code, h⟩ | ⟨f, cursor, -, -, h⟩
    · rw [h]
    · rw [h]
    · rw [h]
      exact List.prefix_append _ _

/-- The events of a body are events of its kind, and make a well-formed stream. -/
structure Scan.Sound (kind : HubWatchKind) (s : Scan) : Prop where
  events : ∀ f ∈ s.events, f.IsEvent ∧ f.kind = kind
  trace : traceState s.events = some s.stage
  empty : s.reached = none → s.events = []

theorem readLine_kind {l : List Char} {f : ClientFrame} (h : readLine parse kind l = .ok f) :
    f.kind = kind := by
  unfold readLine at h
  split_ifs at h
  split at h
  next => cases h
  next => cases h
  next g _ =>
    split_ifs at h with hkind
    cases h
    exact Decidable.not_not.mp hkind

theorem Scan.Sound.line {s : Scan} (h : s.Sound kind) (l : List Char) :
    (s.line parse kind l).Sound kind := by
  rcases Scan.line_cases parse kind s l with
    heq | ⟨code, heq⟩ | ⟨f, cursor, hread, hcheck, heq⟩
  · rw [heq]
    exact h
  · rw [heq]
    exact ⟨h.events, h.trace, h.empty⟩
  · rw [heq]
    obtain ⟨hevent, hnext⟩ := checkFrame_event hcheck
    refine ⟨fun g hg => ?_, ?_, nofun⟩
    · rcases List.mem_append.mp hg with hg | hg
      · exact h.events g hg
      · rw [List.mem_singleton] at hg
        rw [hg]
        exact ⟨hevent, readLine_kind hread⟩
    · rw [traceState_concat, h.trace]
      exact hnext

theorem Scan.Sound.foldl {s : Scan} (h : s.Sound kind) (ls : List (List Char)) :
    (ls.foldl (Scan.line parse kind) s).Sound kind := by
  induction ls generalizing s with
  | nil => exact h
  | cons l ls ih => exact ih (h.line l)

variable (parse kind) in
theorem Scan.sound_run (ls : List (List Char)) : (Scan.run parse kind ls).Sound kind :=
  .foldl ⟨fun _ hf => (by cases hf), rfl, fun _ => rfl⟩ ls

theorem wellFormed_of_isPrefix {fs gs : List ClientFrame} (h : fs <+: gs) (hg : WellFormed gs) :
    WellFormed fs := by
  obtain ⟨more, rfl⟩ := h
  unfold WellFormed traceState at hg ⊢
  rw [List.foldlM_append] at hg
  cases hfs : fs.foldlM TraceState.next .start with
  | some st => rfl
  | none =>
    rw [hfs] at hg
    cases hg

variable (parse kind) in
theorem outcome_sound (b : Body) : WellFormed (b.outcome parse kind).1 ∧
    ∀ f ∈ (b.outcome parse kind).1, f.IsEvent ∧ f.kind = kind := by
  have hempty : WellFormed [] ∧ ∀ f ∈ ([] : List ClientFrame), f.IsEvent ∧ f.kind = kind :=
    ⟨rfl, nofun⟩
  unfold Body.outcome
  split
  next => exact hempty
  next =>
    split
    next => exact hempty
    next =>
      have hsound := Scan.sound_run parse kind b.lines
      exact ⟨by rw [WellFormed, hsound.trace]; rfl, hsound.events⟩

end ScanLaws

end TransformHub.RestApi2
