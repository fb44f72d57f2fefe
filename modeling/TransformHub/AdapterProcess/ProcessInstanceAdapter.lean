import Mathlib.Data.Nat.Notation
import Mathlib.Data.Int.Notation
import TransformHub.Lib.Transition

/-!
# The exit code of a runner process

`ProcessInstanceAdapter`: one listener keeps the code of the process in a field, each call of
`waitUntilExit` listens on its own and looks at the field first.
-/

namespace TransformHub.ProcessInstanceAdapter

inductive Ending
  | code (n : ℕ)
  | signal

namespace Ending

/-- The first argument of the `exit` event; the code of a signal is null. -/
def statusCode : Ending → Option ℤ
  | code n => some n
  | signal => none

/-- `Number(code) || -1`. -/
def number : Ending → ℤ
  | code n => if n = 0 then -1 else n
  | signal => -1

/-- The exit code that is the process's own. -/
def exitCode : Ending → ℤ
  | code n => n
  | signal => 137

end Ending

/-- Where a call of `waitUntilExit` stands. -/
inductive Call
  /-- It was made without a process, and looks for a file of the runner whose pid is set elsewhere. -/
  | polling
  /-- It listens for the `exit` event. -/
  | waiting
  /-- It waits for the crash log, to return the code then. -/
  | logging (statusCode : ℤ)
  | resolved (exitCode : ℤ)
  deriving DecidableEq

structure State where
  exitCode : ℤ := -1
  /-- `runnerProcess` is set. -/
  runnerProcess : Bool := false
  /-- The output streams have ended, so that `crashLogStreams` is settled. -/
  crashLog : Bool := false
  /-- How the process has ended, if it has. -/
  ended : Option Ending := none
  calls : List Call := []

inductive Action
  | dispatch
  | waitUntilExit
  | exit (e : Ending)
  | outputEnd

namespace State

/-- What `waitUntilExit` does once it has a status code. -/
def exited (s : State) : Option ℤ → Call
  | none => .resolved 137
  | some code => if code > 0 ∧ s.crashLog = false then .logging code else .resolved code

/-- The listener of a call on the `exit` event. -/
def notify (s : State) (statusCode : Option ℤ) : Call → Call
  | .waiting => s.exited statusCode
  | c => c

def readCrashLog : Call → Call
  | .logging code => .resolved code
  | c => c

/-- How `waitUntilExit` begins. -/
def called (s : State) : Call :=
  if s.runnerProcess = false then .polling
  else if s.exitCode > -1 then s.exited (some s.exitCode)
  else .waiting

/-- A process is spawned once, and ends once. -/
def next (s : State) : Action → State
  | .dispatch => { s with runnerProcess := true }
  | .waitUntilExit => { s with calls := s.calls ++ [s.called] }
  | .exit e =>
    if s.runnerProcess = false ∨ s.ended.isSome then s
    else
      { s with
        exitCode := e.number
        ended := some e
        calls := s.calls.map (s.notify e.statusCode) }
  | .outputEnd =>
    if s.runnerProcess = false then s
    else { s with crashLog := true, calls := s.calls.map readCrashLog }

/-- A call made after the dispatch has the exit code of the process that has ended, unless its crash
log is still being written; and no call has another code. -/
structure Settles (s : State) : Prop where
  settled : ∀ e, s.ended = some e → ∀ c ∈ s.calls, c ≠ .polling →
    c = .resolved e.exitCode ∨ c = .logging e.exitCode ∧ s.crashLog = false
  own : ∀ n, .resolved n ∈ s.calls → ∃ e, s.ended = some e ∧ n = e.exitCode

/-- No call is made once the process has ended with code 0 or by a signal. -/
def InTime (s : State) (a : Action) : Prop :=
  a = .waitUntilExit → ∀ e, s.ended = some e → ∃ n, 0 < n ∧ e = .code n

/-- The field is the number of the code, and no call goes on before the process ends. -/
structure Inv (s : State) : Prop where
  exitCode : s.exitCode = (s.ended.map Ending.number).getD (-1)
  started : s.ended.isSome → s.runnerProcess = true
  pending : s.ended = none → ∀ c ∈ s.calls, c = .polling ∨ c = .waiting

variable {s : State}

theorem exited_statusCode (e : Ending) : s.exited e.statusCode = .resolved e.exitCode ∨
    s.exited e.statusCode = .logging e.exitCode ∧ s.crashLog = false := by
  cases e with
  | signal => exact .inl rfl
  | code n =>
    show s.exited (some ↑n) = .resolved ↑n ∨ s.exited (some ↑n) = .logging ↑n ∧ _
    rw [exited]
    split
    · next h => exact .inr ⟨rfl, h.2⟩
    · exact .inl rfl

theorem called_of_none (h : s.Inv) (hnone : s.ended = none) :
    s.called = .polling ∨ s.called = .waiting := by
  have hcode := h.exitCode
  rw [hnone] at hcode
  rw [called, hcode]
  cases s.runnerProcess
  · exact .inl rfl
  · exact .inr rfl

theorem called_of_some (h : s.Inv) {e : Ending} (he : s.ended = some e) :
    s.called = if e.number > -1 then s.exited e.statusCode else .waiting := by
  have hcode := h.exitCode
  have hrun := h.started (by rw [he]; rfl)
  rw [he] at hcode
  rw [called, hrun, hcode]
  cases e with
  | signal => rfl
  | code n => cases n <;> rfl

theorem number_gt_iff {e : Ending} : e.number > -1 ↔ ∃ n, 0 < n ∧ e = .code n := by
  constructor
  · intro h
    cases e with
    | signal => cases h
    | code n =>
      cases n with
      | zero => cases h
      | succ n => exact ⟨n + 1, n.succ_pos, rfl⟩
  · rintro ⟨n, hn, rfl⟩
    rw [Ending.number, if_neg (Nat.ne_of_gt hn)]
    omega

theorem Inv.next (h : s.Inv) (a : Action) : (s.next a).Inv := by
  cases a with
  | dispatch => exact { h with started := fun _ => rfl }
  | waitUntilExit =>
    refine { h with pending := fun hnone c hc => ?_ }
    rcases List.mem_append.mp hc with hc | hc
    · exact h.pending hnone c hc
    · rw [List.mem_singleton.mp hc]
      exact called_of_none h hnone
  | exit e =>
    rw [State.next]
    split
    · exact h
    · next hskip =>
      rw [not_or, Bool.not_eq_false] at hskip
      exact ⟨rfl, fun _ => hskip.1, fun hnone => (nomatch hnone)⟩
  | outputEnd =>
    rw [State.next]
    split
    · exact h
    · refine { h with pending := fun hnone c hc => ?_ }
      obtain ⟨d, hd, rfl⟩ := List.mem_map.mp hc
      rcases h.pending hnone d hd with rfl | rfl
      · exact .inl rfl
      · exact .inr rfl

theorem settles_waitUntilExit (h : s.Inv) (hs : s.Settles) :
    (s.next .waitUntilExit).Settles ↔ s.InTime .waitUntilExit := by
  constructor
  · intro hnext _ e he
    have hcall := hnext.settled e he _ (List.mem_append_right _ List.mem_cons_self)
    rw [called_of_some h he] at hcall
    apply number_gt_iff.mp
    apply Decidable.byContradiction
    intro hnumber
    rw [if_neg hnumber] at hcall
    rcases hcall (by decide) with hc | ⟨hc, -⟩ <;> cases hc
  · intro hok
    have hcalled : ∀ e, s.ended = some e → s.called = s.exited e.statusCode := by
      intro e he
      rw [called_of_some h he, if_pos (number_gt_iff.mpr (hok rfl e he))]
    refine ⟨fun e he c hc hne => ?_, fun n hn => ?_⟩
    · rcases List.mem_append.mp hc with hc | hc
      · exact hs.settled e he c hc hne
      · rw [List.mem_singleton.mp hc, hcalled e he]
        exact exited_statusCode e
    · rcases List.mem_append.mp hn with hn | hn
      · exact hs.own n hn
      · have hn := List.mem_singleton.mp hn
        cases he : s.ended with
        | none => rcases called_of_none h he with hc | hc <;> rw [hc] at hn <;> cases hn
        | some e =>
          rw [hcalled e he] at hn
          refine ⟨e, he, ?_⟩
          rcases exited_statusCode (s := s) e with hc | ⟨hc, -⟩ <;> rw [hc] at hn <;> cases hn
          rfl

theorem settles_next (h : s.Inv) (hs : s.Settles) {a : Action} (ha : a ≠ .waitUntilExit) :
    (s.next a).Settles := by
  cases a with
  | dispatch => exact ⟨hs.settled, hs.own⟩
  | waitUntilExit => exact absurd rfl ha
  | exit e =>
    rw [State.next]
    split
    · exact hs
    · next hskip =>
      rw [not_or, Bool.not_eq_true, Option.isSome_eq_false_iff, Option.isNone_iff_eq_none] at hskip
      have hcalls : ∀ c ∈ s.calls.map (s.notify e.statusCode),
          c = .polling ∨ c = s.exited e.statusCode := by
        intro c hc
        obtain ⟨d, hd, rfl⟩ := List.mem_map.mp hc
        rcases h.pending hskip.2 d hd with rfl | rfl
        · exact .inl rfl
        · exact .inr rfl
      refine ⟨?_, fun n hn => ⟨e, rfl, ?_⟩⟩
      · rintro _ ⟨rfl⟩ c hc hne
        rw [(hcalls c hc).resolve_left hne]
        exact exited_statusCode (s := s) e
      · have hn := (hcalls _ hn).resolve_left Call.noConfusion
        rcases exited_statusCode (s := s) e with hc | ⟨hc, -⟩ <;> rw [hc] at hn <;> cases hn
        rfl
  | outputEnd =>
    rw [State.next]
    split
    · exact hs
    · refine ⟨fun e he c hc hne => ?_, fun n hn => ?_⟩
      · obtain ⟨d, hd, rfl⟩ := List.mem_map.mp hc
        have hd' : d ≠ .polling := by
          rintro rfl
          exact hne rfl
        rcases hs.settled e he d hd hd' with rfl | ⟨rfl, -⟩ <;> exact .inl rfl
      · obtain ⟨d, hd, hread⟩ := List.mem_map.mp hn
        cases d with
        | polling | waiting => cases hread
        | resolved m => exact hs.own n (hread ▸ hd)
        | logging m =>
          cases hread
          cases he : s.ended with
          | none => rcases h.pending he _ hd with hc | hc <;> cases hc
          | some e =>
            refine ⟨e, rfl, ?_⟩
            rcases hs.settled e he _ hd Call.noConfusion with hc | ⟨hc, -⟩ <;> cases hc
            rfl

/-- In every run the calls made after the dispatch are answered, and all with the exit code of the
process, exactly if none of them is made once the process has ended with code 0 or by a signal. -/
theorem settles_iff_inTime (as : List Action) :
    System.Always next Settles {} as ↔ System.Meets next InTime {} as := by
  have hinv : ({} : State).Inv := ⟨rfl, fun h => (nomatch h), fun _ _ hc => (nomatch hc)⟩
  have hsettles : ({} : State).Settles := ⟨fun _ _ _ hc => (nomatch hc), fun _ hn => (nomatch hn)⟩
  apply System.always_iff_meets (I := Inv) (A := fun _ => True) _ _ hinv hsettles as
    fun _ _ => trivial
  · intro s a _ h hs
    cases a with
    | waitUntilExit => exact settles_waitUntilExit h hs
    | dispatch => exact iff_of_true (settles_next h hs Action.noConfusion) Action.noConfusion
    | exit e => exact iff_of_true (settles_next h hs Action.noConfusion) Action.noConfusion
    | outputEnd => exact iff_of_true (settles_next h hs Action.noConfusion) Action.noConfusion
  · exact fun s a _ h _ _ => h.next a

/-- A call after an exit with code 0 is pending for ever. -/
theorem calledAfterZero_not_settles :
    ¬ System.Always next Settles {} [.dispatch, .exit (.code 0), .outputEnd, .waitUntilExit] := by
  intro h
  have hcall := (System.always_last h).settled (.code 0) rfl .waiting List.mem_cons_self
    (by decide)
  rcases hcall with hc | ⟨hc, -⟩ <;> cases hc

/-! ## The codes that are returned -/

def code? : Call → Option ℤ
  | .logging n | .resolved n => some n
  | _ => none

/-- A call that has a code has that of the process, which has ended, and waits for the crash log only. -/
structure Own (s : State) (c : Call) : Prop where
  code : ∀ n, code? c = some n → ∃ e, s.ended = some e ∧ n = e.exitCode
  logging : ∀ n, c = .logging n → s.crashLog = false

theorem own_of_none {c : Call} (h : code? c = none) : s.Own c where
  code n hn := by
    rw [h] at hn
    cases hn
  logging n hn := by
    rw [hn] at h
    cases h

theorem own_exited {e : Ending} (he : s.ended = some e) : s.Own (s.exited e.statusCode) := by
  rcases exited_statusCode (s := s) e with hc | ⟨hc, hlog⟩
  · rw [hc]
    exact ⟨fun n hn => ⟨e, he, (Option.some_inj.mp hn).symm⟩, fun n hn => by cases hn⟩
  · rw [hc]
    exact ⟨fun n hn => ⟨e, he, (Option.some_inj.mp hn).symm⟩, fun _ _ => hlog⟩

theorem own_called (h : s.Inv) : s.Own s.called := by
  cases he : s.ended with
  | none => rcases called_of_none h he with hc | hc <;> exact own_of_none (by rw [hc]; rfl)
  | some e =>
    rw [called_of_some h he]
    split
    · exact own_exited he
    · exact own_of_none rfl

theorem own_next (h : s.Inv) (ho : ∀ c ∈ s.calls, s.Own c) (a : Action) :
    ∀ c ∈ (s.next a).calls, (s.next a).Own c := by
  intro c hc
  cases a with
  | dispatch => exact ⟨(ho c hc).code, (ho c hc).logging⟩
  | waitUntilExit =>
    have hown : s.Own c := by
      rcases List.mem_append.mp hc with hc | hc
      · exact ho c hc
      · rw [List.mem_singleton.mp hc]
        exact own_called h
    exact ⟨hown.code, hown.logging⟩
  | exit e =>
    rw [State.next] at hc ⊢
    split at hc
    · next hskip =>
      rw [if_pos hskip]
      exact ho c hc
    · next hskip =>
      rw [if_neg hskip]
      rw [not_or, Bool.not_eq_true, Option.isSome_eq_false_iff, Option.isNone_iff_eq_none] at hskip
      obtain ⟨d, hd, rfl⟩ := List.mem_map.mp hc
      rcases h.pending hskip.2 d hd with rfl | rfl
      · exact own_of_none rfl
      · have hown := own_exited (s := { s with ended := some e }) rfl
        exact ⟨hown.code, hown.logging⟩
  | outputEnd =>
    rw [State.next] at hc ⊢
    split at hc
    · next hskip =>
      rw [if_pos hskip]
      exact ho c hc
    · next hskip =>
      rw [if_neg hskip]
      obtain ⟨d, hd, rfl⟩ := List.mem_map.mp hc
      -- the calls that waited for the log have returned
      cases d with
      | polling | waiting => exact own_of_none rfl
      | resolved n | logging n => exact ⟨(ho _ hd).code, fun n hn => by cases hn⟩

/-- In every run, what a call returns is the exit code of the process, which has ended; and no call
with a code waits once the output has ended. -/
theorem codes_own (as : List Action) :
    let s := as.foldl next {}
    ∀ c ∈ s.calls, s.Own c := by
  intro s
  have h : s.Inv ∧ ∀ c ∈ s.calls, s.Own c :=
    (System.reachable_foldl as).invariant_ofFun
      (I := fun s : State => s.Inv ∧ ∀ c ∈ s.calls, s.Own c)
      ⟨⟨rfl, fun h => (by cases h), fun _ _ hc => by cases hc⟩, fun _ hc => by cases hc⟩
      fun s a hs _ => ⟨hs.1.next a, own_next hs.1 hs.2 a⟩
  exact h.2

end State

end TransformHub.ProcessInstanceAdapter
