import Mathlib.Data.List.Basic
import TransformHub.Host.CpmConnector

/-!
# The connector is never stranded

At most one supervisor and one attempt are active, whatever happens.
-/

namespace TransformHub.Host.CPMConnector

variable {c : CPMConnector}

/-- A supervisor that goes on after what it awaits. -/
def WillAttempt (c : CPMConnector) : Supervisor → Prop
  | .backoff => True
  | .attempt n => c.phase? n ≠ some .fulfilled

/-- Without a connection there is an attempt, a call of `connect` that has not gone on yet, or a
supervisor that makes another attempt. -/
def NotStranded (c : CPMConnector) : Prop :=
  c.started = true → c.isAbandoned = false → c.connected = false →
    (∃ a ∈ c.attempts, a.phase.settled = false) ∨ c.calls ≠ [] ∨ ∃ s ∈ c.supervisors, c.WillAttempt s

def AtMostOne (c : CPMConnector) : Prop :=
  c.supervisors.length ≤ 1 ∧ ∀ (n m : ℕ) (a b : ConnectionAttempt), c.attempts[n]? = some a →
    c.attempts[m]? = some b → a.phase.settled = false → b.phase.settled = false → n = m

/-- A close of the current stream does not meet a supervisor whose attempt has succeeded. -/
def Timely (c : CPMConnector) : Action → Prop
  | .closed connectionStatusCode generation => c.isCurrent generation = true →
      connectionStatusCode ≠ 403 → c.isAbandoned = false →
        ∀ n, .attempt n ∈ c.supervisors → c.phase? n ≠ some .fulfilled
  | .streamError generation => c.isCurrent (some generation) = true → c.isAbandoned = false →
      ∀ n, .attempt n ∈ c.supervisors → c.phase? n ≠ some .fulfilled
  | _ => True

/-! ## One supervisor, one attempt -/

/-- The promises say which supervisor and which attempt there is. -/
structure Inv (c : CPMConnector) : Prop where
  single : c.supervisors.length ≤ 1
  promise : c.reconnectPromise = true ↔ c.supervisors ≠ []
  current : ∀ (n : ℕ) (a : ConnectionAttempt), c.attempts[n]? = some a → a.cleared = false →
    c.connectionAttempt = some n
  cleared : ∀ a ∈ c.attempts, a.cleared = true → a.phase.settled = true
  pointer : ∀ n, c.connectionAttempt = some n → ∃ a, c.attempts[n]? = some a ∧ a.cleared = false

theorem inv_new : new.Inv where
  single := Nat.zero_le _
  promise := by simp [new]
  current := fun n a h => by simp [new] at h
  cleared := nofun
  pointer := nofun

theorem Inv.atMostOne (h : c.Inv) : c.AtMostOne := by
  refine ⟨h.single, fun n m a b ha hb hna hnb => ?_⟩
  have hcurrent : ∀ (n : ℕ) (a : ConnectionAttempt), c.attempts[n]? = some a →
      a.phase.settled = false → c.connectionAttempt = some n := by
    intro n a ha hna
    apply h.current n a ha
    by_contra hcleared
    rw [h.cleared a (List.mem_of_getElem? ha) (by simpa using hcleared)] at hna
    cases hna
  have hn := hcurrent n a ha hna
  rw [hcurrent m b hb hnb] at hn
  exact (Option.some.inj hn).symm

theorem Inv.congr (h : c.Inv) {c' : CPMConnector} (hsupervisors : c'.supervisors = c.supervisors)
    (hpromise : c'.reconnectPromise = c.reconnectPromise)
    (hcurrent : c'.connectionAttempt = c.connectionAttempt)
    (hattempts : c'.attempts = c.attempts) : c'.Inv where
  single := hsupervisors ▸ h.single
  promise := by rw [hpromise, hsupervisors, h.promise]
  current := by rw [hattempts, hcurrent]; exact h.current
  cleared := by rw [hattempts]; exact h.cleared
  pointer := by rw [hattempts, hcurrent]; exact h.pointer

theorem Inv.reconnect (h : c.Inv) : c.reconnect.Inv := by
  unfold CPMConnector.reconnect
  split_ifs with hnone
  · exact h
  · have hempty : c.supervisors = [] := by
      by_contra hne
      exact hnone (.inr (h.promise.mpr hne))
    exact { h with
      single := by simp [hempty]
      promise := by simp }

theorem Inv.connectOnce (h : c.Inv) : c.connectOnce.1.Inv := by
  unfold CPMConnector.connectOnce
  split
  · exact h
  · rename_i hnone
    -- there was no attempt that is not cleared
    have hall : ∀ (n : ℕ) (a : ConnectionAttempt), c.attempts[n]? = some a → a.cleared = true := by
      intro n a ha
      by_contra hcleared
      rw [h.current n a ha (by simpa using hcleared)] at hnone
      cases hnone
    refine ⟨h.single, h.promise, fun n a ha hcleared => ?_, fun a ha hcleared => ?_, fun n hn => ?_⟩
    · rw [List.getElem?_append] at ha
      split_ifs at ha with hlt
      · rw [hall n a ha] at hcleared
        cases hcleared
      · have hn : n - c.attempts.length = 0 := by
          by_contra hne
          simp [hne] at ha
        exact congrArg some (by omega)
    · rcases List.mem_append.mp ha with ha | ha
      · exact h.cleared a ha hcleared
      · rw [List.mem_singleton.mp ha] at hcleared
        cases hcleared
    · cases hn
      exact ⟨⟨.broker, false⟩, by simp, rfl⟩

theorem Inv.supervisorEnds (h : c.Inv) {i : ℕ} (hi : i < c.supervisors.length) :
    (c.supervisorEnds i).Inv := by
  have hempty : c.supervisors.eraseIdx i = [] := by
    have hlength := List.length_eraseIdx_of_lt hi
    have hsingle := h.single
    exact List.length_eq_zero_iff.mp (by omega)
  exact { h with
    single := by simp [CPMConnector.supervisorEnds, hempty]
    promise := by simp [CPMConnector.supervisorEnds, hempty] }

theorem Inv.setSupervisor (h : c.Inv) (i : ℕ) (s : Supervisor) (c' : CPMConnector)
    (hsupervisors : c'.supervisors = c.supervisors.set i s)
    (hpromise : c'.reconnectPromise = c.reconnectPromise)
    (hcurrent : c'.connectionAttempt = c.connectionAttempt)
    (hattempts : c'.attempts = c.attempts) : c'.Inv where
  single := by
    rw [hsupervisors, List.length_set]
    exact h.single
  promise := by
    rw [hpromise, hsupervisors, h.promise, ne_eq, ne_eq, List.set_eq_nil_iff]
  current := by rw [hattempts, hcurrent]; exact h.current
  cleared := by rw [hattempts]; exact h.cleared
  pointer := by rw [hattempts, hcurrent]; exact h.pointer

theorem getElem?_setPhase (c : CPMConnector) (n m : ℕ) (phase : AttemptPhase) :
    (c.setPhase n phase).attempts[m]? =
      if n = m then (c.attempts[m]?).map fun a => { a with phase } else c.attempts[m]? := by
  rw [setPhase, List.getElem?_modify]
  split_ifs <;> simp

theorem Inv.setPhase (h : c.Inv) {n : ℕ} (hn : c.hasSettled n = false) (phase : AttemptPhase) :
    (c.setPhase n phase).Inv := by
  have hcleared : ∀ a, c.attempts[n]? = some a → a.cleared = false := by
    intro a ha
    by_contra hne
    have hsettled := h.cleared a (List.mem_of_getElem? ha) (by simpa using hne)
    simp [hasSettled, phase?, ha, hsettled] at hn
  refine ⟨h.single, h.promise, fun m a ha hc => ?_, fun a ha hc => ?_, fun m hm => ?_⟩
  · rw [getElem?_setPhase] at ha
    split_ifs at ha with heq
    · obtain ⟨b, hb, rfl⟩ := Option.map_eq_some_iff.mp ha
      exact h.current m b hb hc
    · exact h.current m a ha hc
  · obtain ⟨m, hm⟩ := List.mem_iff_getElem?.mp ha
    rw [getElem?_setPhase] at hm
    split_ifs at hm with heq
    · subst heq
      obtain ⟨b, hb, rfl⟩ := Option.map_eq_some_iff.mp hm
      rw [hcleared b hb] at hc
      cases hc
    · exact h.cleared a (List.mem_of_getElem? hm) hc
  · obtain ⟨a, ha, hc⟩ := h.pointer m hm
    rw [getElem?_setPhase, ha]
    split_ifs
    · exact ⟨_, rfl, hc⟩
    · exact ⟨a, rfl, hc⟩

theorem Inv.attemptCleared (h : c.Inv) (n : ℕ) : (c.attemptCleared n).Inv := by
  unfold CPMConnector.attemptCleared
  split
  · exact h
  · rename_i a ha
    split_ifs with hsettled
    · rw [Bool.and_eq_true, Bool.not_eq_true'] at hsettled
      have hcurrent := h.current n a ha hsettled.2
      have hget : ∀ m, (c.attempts.modify n fun a => { a with cleared := true })[m]? =
          if n = m then (c.attempts[m]?).map fun a => { a with cleared := true }
          else c.attempts[m]? := fun m => by
        rw [List.getElem?_modify]
        split_ifs <;> simp
      refine ⟨h.single, h.promise, fun m b hb hc => ?_, fun b hb hc => ?_, nofun⟩
      · rw [hget] at hb
        split_ifs at hb with heq
        · obtain ⟨b', -, rfl⟩ := Option.map_eq_some_iff.mp hb
          cases hc
        · have hm := h.current m b hb hc
          rw [hcurrent] at hm
          exact absurd (Option.some.inj hm) heq
      · obtain ⟨m, hm⟩ := List.mem_iff_getElem?.mp hb
        rw [hget] at hm
        split_ifs at hm with heq
        · subst heq
          rw [ha] at hm
          cases hm
          exact hsettled.1
        · exact h.cleared b (List.mem_of_getElem? hm) hc
    · exact h

theorem Inv.next (h : c.Inv) (a : Action) : (c.next a).Inv := by
  have hclose : ∀ code generation, (c.handleConnectionClose code generation).Inv := by
    intro code generation
    unfold handleConnectionClose
    split_ifs
    · exact h.congr rfl rfl rfl rfl
    · have hclosed : ({ c with
          registrationAttemptGeneration := c.registrationAttemptGeneration + 1
          communicationStream := false
          connected := false } : CPMConnector).Inv := h.congr rfl rfl rfl rfl
      exact hclosed.reconnect
    · exact h
  cases a with
  | connect =>
    simp only [CPMConnector.next, connect]
    split_ifs
    · exact h.congr rfl rfl rfl rfl
    · have hbegun : ({ c with started := true } : CPMConnector).Inv := h.congr rfl rfl rfl rfl
      exact hbegun.connectOnce.congr rfl rfl rfl rfl
  | callResumed i =>
    simp only [CPMConnector.next, callResumed]
    split
    · exact h
    · have hreturned : ({ c with calls := c.calls.eraseIdx i } : CPMConnector).Inv :=
        h.congr rfl rfl rfl rfl
      split_ifs
      · exact hreturned
      · exact hreturned.reconnect
      · exact h
  | attemptProceeds n =>
    simp only [CPMConnector.next, attemptProceeds]
    split
    · rename_i hphase
      exact h.setPhase (by simp [hasSettled, hphase, AttemptPhase.settled]) _
    · rename_i hphase
      exact h.setPhase (by simp [hasSettled, hphase, AttemptPhase.settled]) _
    · rename_i generation hphase
      have hrunning : c.hasSettled n = false := by simp [hasSettled, hphase, AttemptPhase.settled]
      split_ifs
      · exact h.setPhase hrunning _
      · exact h.setPhase hrunning _
      · exact (h.setPhase hrunning .fulfilled).congr rfl rfl rfl rfl
    · exact h
  | attemptFails n =>
    simp only [CPMConnector.next, attemptFails]
    split_ifs with hsettled
    · exact h
    · exact h.setPhase (Bool.eq_false_iff.mpr hsettled) _
  | attemptCleared n => exact h.attemptCleared n
  | backoffSettled i =>
    simp only [CPMConnector.next, backoffSettled]
    split
    · rename_i hget
      split_ifs
      · exact h.supervisorEnds (List.getElem?_eq_some_iff.mp hget).1
      · exact h
      · refine h.connectOnce.setSupervisor i (.attempt c.connectOnce.2) _ ?_ rfl rfl rfl
        unfold CPMConnector.connectOnce
        split <;> rfl
    · exact h
  | supervisorResumed i =>
    simp only [CPMConnector.next, supervisorResumed]
    split
    · rename_i n hget
      have hi := (List.getElem?_eq_some_iff.mp hget).1
      split
      · exact h.supervisorEnds hi
      · split_ifs
        · exact h.supervisorEnds hi
        · exact h.setSupervisor i .backoff _ rfl rfl rfl rfl
      · exact h
    · exact h
  | communicationRequest =>
    simp only [CPMConnector.next, handleCommunicationRequest]
    split_ifs
    · exact h
    · exact h.congr rfl rfl rfl rfl
  | closed code generation => exact hclose code generation
  | streamError generation =>
    simp only [CPMConnector.next]
    split_ifs
    · exact h
    · exact hclose 1006 (some generation)
  | dropMessage | disconnect => exact h.congr rfl rfl rfl rfl

/-! ## Whoever goes on -/

/-- Someone goes on, and no supervisor is about to end without a connection. -/
structure Served (c : CPMConnector) : Prop where
  goesOn : c.connected = false → c.isAbandoned = false →
    ∀ n, .attempt n ∈ c.supervisors → c.phase? n ≠ some .fulfilled
  served : c.started = true → c.isAbandoned = false → c.connected = false →
    c.calls ≠ [] ∨ c.supervisors ≠ []

theorem Served.notStranded (h : c.Served) : c.NotStranded := by
  intro hstarted habandoned hconnected
  refine .inr ((h.served hstarted habandoned hconnected).imp_right fun hne => ?_)
  obtain ⟨s, hs⟩ := List.exists_mem_of_ne_nil _ hne
  refine ⟨s, hs, ?_⟩
  cases s with
  | backoff => trivial
  | attempt n => exact h.goesOn hconnected habandoned n hs

theorem served_of_connected (hc : c.connected = true) : c.Served where
  goesOn := fun hf => by rw [hc] at hf; cases hf
  served := fun _ _ hf => by rw [hc] at hf; cases hf

theorem served_of_abandoned (ha : c.isAbandoned = true) : c.Served where
  goesOn := fun _ hf => by rw [ha] at hf; cases hf
  served := fun _ hf => by rw [ha] at hf; cases hf

theorem served_reconnect (hi : c.Inv) (hg : c.isAbandoned = false →
    ∀ n, .attempt n ∈ c.supervisors → c.phase? n ≠ some .fulfilled) : c.reconnect.Served := by
  unfold reconnect
  split_ifs with hnone
  · rcases hnone with habandoned | hpromise
    · exact served_of_abandoned habandoned
    · exact ⟨fun _ ha => hg ha, fun _ _ _ => .inr (hi.promise.mp hpromise)⟩
  · refine ⟨fun _ ha n hn => ?_, fun _ _ _ => .inr (by simp)⟩
    rcases List.mem_append.mp hn with hn | hn
    · exact hg ha n hn
    · cases List.mem_singleton.mp hn

theorem phase?_setPhase (c : CPMConnector) (n m : ℕ) (phase : AttemptPhase) :
    (c.setPhase n phase).phase? m =
      if n = m then (c.phase? m).map fun _ => phase else c.phase? m := by
  rw [phase?, getElem?_setPhase]
  split_ifs
  · rw [phase?, Option.map_map, Option.map_map]
    rfl
  · rfl

theorem Served.setPhase (h : c.Served) (n : ℕ) {phase : AttemptPhase} (hp : phase ≠ .fulfilled) :
    (c.setPhase n phase).Served where
  goesOn := fun hc ha m hm => by
    rw [phase?_setPhase]
    split_ifs with heq
    · rw [ne_eq, Option.map_eq_some_iff]
      rintro ⟨-, -, heq⟩
      exact hp heq
    · exact h.goesOn hc ha m hm
  served := h.served

theorem phase?_connectOnce (c : CPMConnector) (n : ℕ) :
    c.connectOnce.1.phase? n = c.phase? n ∨ c.connectOnce.1.phase? n = some .broker := by
  unfold connectOnce
  split
  · exact .inl rfl
  · simp only [phase?, List.getElem?_append]
    split_ifs with hlt
    · exact .inl rfl
    · rw [List.getElem?_singleton]
      split_ifs
      · exact .inr rfl
      · left
        rw [List.getElem?_eq_none (by omega)]

theorem phase?_connectOnce_snd (hi : c.Inv) (hleft : c.reactionsLeft = false) :
    c.connectOnce.1.phase? c.connectOnce.2 ≠ some .fulfilled := by
  unfold connectOnce
  split
  · rename_i n hn
    obtain ⟨a, ha, hcleared⟩ := hi.pointer n hn
    intro hphase
    simp only [phase?, ha, Option.map_some, Option.some.injEq] at hphase
    -- an attempt that has settled is waited for until it is cleared
    simp only [reactionsLeft, Bool.or_eq_false_iff, List.any_eq_false] at hleft
    have hnot := hleft.1.1 a (List.mem_of_getElem? ha)
    simp [hphase, hcleared, AttemptPhase.settled] at hnot
  · simp [phase?]

theorem Served.handleConnectionClose (hi : c.Inv) (h : c.Served) (code : ℕ)
    (generation : Option ℕ) (hok : c.isCurrent generation = true → code ≠ 403 →
      c.isAbandoned = false → ∀ n, .attempt n ∈ c.supervisors → c.phase? n ≠ some .fulfilled) :
    (c.handleConnectionClose code generation).Served := by
  unfold CPMConnector.handleConnectionClose
  split_ifs with hcurrent hcode
  · exact served_of_abandoned rfl
  · exact served_reconnect (hi.congr rfl rfl rfl rfl) (hok hcurrent hcode)
  · exact h

theorem Served.next (hi : c.Inv) (h : c.Served) {a : Action} (hok : c.Timely a) :
    (c.next a).Served := by
  cases a with
  | connect =>
    simp only [CPMConnector.next, connect]
    split_ifs with hnone
    · rcases hnone with habandoned | hpromise
      · exact served_of_abandoned habandoned
      · exact ⟨h.goesOn, fun _ _ _ => .inr (hi.promise.mp hpromise)⟩
    · have hbegun : ({ c with started := true } : CPMConnector).connectOnce.1.supervisors =
          c.supervisors ∧ ({ c with started := true } : CPMConnector).connectOnce.1.connected =
          c.connected ∧ ({ c with started := true } : CPMConnector).connectOnce.1.isAbandoned =
          c.isAbandoned := by
        unfold connectOnce
        split <;> exact ⟨rfl, rfl, rfl⟩
      refine ⟨fun hc ha n hn => ?_, fun _ _ _ => .inl (by simp)⟩
      have hold := h.goesOn (hbegun.2.1 ▸ hc) (hbegun.2.2 ▸ ha) n (hbegun.1 ▸ hn)
      rcases phase?_connectOnce { c with started := true } n with heq | heq
      · exact fun hf => hold (heq.symm.trans hf)
      · exact fun hf => by cases heq.symm.trans hf
  | callResumed i =>
    simp only [CPMConnector.next, callResumed]
    split
    · exact h
    · split_ifs with hsettled hconnected
      · exact served_of_connected hconnected
      · refine served_reconnect (hi.congr rfl rfl rfl rfl) fun ha => ?_
        exact h.goesOn (Bool.eq_false_iff.mpr hconnected) ha
      · exact h
  | attemptProceeds n =>
    simp only [CPMConnector.next, attemptProceeds]
    split
    · split_ifs with habandoned
      · exact served_of_abandoned habandoned
      · exact h.setPhase n (by simp)
    · split_ifs with habandoned
      · exact served_of_abandoned habandoned
      · exact h.setPhase n (by simp)
    · split_ifs with habandoned hgeneration
      · exact served_of_abandoned habandoned
      · exact h.setPhase n (by simp)
      · exact served_of_connected rfl
    · exact h
  | attemptFails n =>
    simp only [CPMConnector.next, attemptFails]
    split_ifs
    · exact h
    · exact h.setPhase n (by simp)
  | attemptCleared n =>
    simp only [CPMConnector.next, attemptCleared]
    split
    · exact h
    · split_ifs
      · refine ⟨fun hc ha m hm => ?_, h.served⟩
        have hold := h.goesOn hc ha m hm
        simp only [phase?, List.getElem?_modify] at hold ⊢
        cases hget : c.attempts[m]? with
        | none => simp
        | some a =>
          rw [hget] at hold
          split_ifs <;> simpa using hold
      · exact h
  | backoffSettled i =>
    simp only [CPMConnector.next, backoffSettled]
    split
    · rename_i hget
      split_ifs with habandoned hleft
      · exact served_of_abandoned habandoned
      · exact h
      · refine ⟨fun hc _ n hn => ?_, fun _ _ _ => .inr ?_⟩
        · have hsame : c.connectOnce.1.connected = c.connected := by
            unfold connectOnce
            split <;> rfl
          rcases List.mem_or_eq_of_mem_set hn with hn | hn
          · have hold := h.goesOn (hsame ▸ hc) (Bool.eq_false_iff.mpr habandoned) n hn
            rcases phase?_connectOnce c n with heq | heq
            · exact fun hf => hold (heq.symm.trans hf)
            · exact fun hf => by cases heq.symm.trans hf
          · cases hn
            exact phase?_connectOnce_snd hi (Bool.eq_false_iff.mpr hleft)
        · rw [ne_eq, List.set_eq_nil_iff]
          exact List.ne_nil_of_mem (List.mem_of_getElem? hget)
    · exact h
  | supervisorResumed i =>
    simp only [CPMConnector.next, supervisorResumed]
    split
    · rename_i n hget
      have hmem := List.mem_of_getElem? hget
      split
      · rename_i hphase
        -- the supervisor ends, as the connector is connected or abandoned
        by_cases hc : c.connected = true
        · exact served_of_connected hc
        · by_cases ha : c.isAbandoned = true
          · exact served_of_abandoned ha
          · exact absurd hphase
              (h.goesOn (Bool.eq_false_iff.mpr hc) (Bool.eq_false_iff.mpr ha) n hmem)
      · split_ifs with habandoned
        · exact served_of_abandoned habandoned
        · refine ⟨fun hc ha m hm => ?_, fun _ _ _ => .inr ?_⟩
          · rcases List.mem_or_eq_of_mem_set hm with hm | hm
            · exact h.goesOn hc ha m hm
            · cases hm
          · rw [ne_eq, List.set_eq_nil_iff]
            exact List.ne_nil_of_mem hmem
      · exact h
    · exact h
  | communicationRequest =>
    simp only [CPMConnector.next, handleCommunicationRequest]
    split_ifs
    · exact h
    · exact ⟨h.goesOn, h.served⟩
  | closed code generation => exact Served.handleConnectionClose hi h code generation hok
  | streamError generation =>
    simp only [CPMConnector.next]
    split_ifs
    · exact h
    · exact Served.handleConnectionClose hi h 1006 (some generation) fun hcurrent _ => hok hcurrent
  | dropMessage | disconnect => exact served_of_abandoned rfl

/-! ## Runs -/

/-- A run in which every close is timely never leaves the connector without anyone who connects. -/
theorem notStranded_of_timely (h : system.Reachable Timely c) : c.NotStranded ∧ c.AtMostOne := by
  have hboth : c.Inv ∧ c.Served := by
    refine h.invariant_ofFun (I := fun c => c.Inv ∧ c.Served) ⟨inv_new, ?_⟩ fun c a hc hok =>
      ⟨hc.1.next a, hc.2.next hc.1 hok⟩
    exact ⟨nofun, nofun⟩
  exact ⟨hboth.2.notStranded, hboth.1.atMostOne⟩

/-- In no run are there two supervisors, or two attempts that are not settled. -/
theorem connects_once (as : List Action) :
    (as.foldl next new).AtMostOne ∧
      ((as.foldl next new).reconnectPromise = true ↔ (as.foldl next new).supervisors ≠ []) := by
  have h : (as.foldl next new).Inv :=
    (System.reachable_foldl as).invariant_ofFun inv_new fun _ a h _ => h.next a
  exact ⟨h.atMostOne, h.promise⟩

/-! ## Two reconnects -/

section Sample

def timelyTest (c : CPMConnector) : Action → Bool
  | .closed code generation => !c.isCurrent generation || code = 403 || c.isAbandoned ||
      c.supervisors.all fun
        | .backoff => true
        | .attempt n => c.phase? n ≠ some .fulfilled
  | .streamError _ => false
  | _ => true

theorem timelyTest_sound (c : CPMConnector) (a : Action) (h : timelyTest c a = true) :
    c.Timely a := by
  cases a with
  | closed code generation =>
    intro hcurrent hcode habandoned n hn
    simp only [timelyTest, hcurrent, habandoned, decide_eq_false hcode, Bool.not_true,
      Bool.false_or, List.all_eq_true] at h
    simpa using h _ hn
  | streamError generation => cases h
  | _ => trivial

/-- The first attempt fails, and the supervisor makes a second one, in which the Manager opens the
communication stream. -/
def reconnected : List Action :=
  [.connect, .attemptFails 0, .attemptCleared 0, .callResumed 0, .backoffSettled 0,
    .attemptProceeds 1, .attemptProceeds 1, .communicationRequest, .attemptProceeds 1]

/-- The stream closes after the supervisor has ended, or just before. -/
def lateClose : List Action :=
  reconnected ++ [.attemptCleared 1, .supervisorResumed 0, .closed 1006 (some 1)]

def earlyClose : List Action :=
  reconnected ++ [.closed 1006 (some 1), .attemptCleared 1, .supervisorResumed 0]

theorem lateClose_notStranded :
    (lateClose.foldl next new).NotStranded ∧ (lateClose.foldl next new).AtMostOne :=
  notStranded_of_timely (System.Reachable.of_checks timelyTest_sound (.init rfl)
    (by decide +kernel : System.checks next timelyTest new lateClose = true))

theorem earlyClose_stranded :
    ¬ ∀ c, system.Reachable System.anyStep c → c.NotStranded ∧ c.AtMostOne := by
  intro hall
  have hnobody : ¬ ((∃ a ∈ (earlyClose.foldl next new).attempts, a.phase.settled = false) ∨
      (earlyClose.foldl next new).calls ≠ [] ∨ (earlyClose.foldl next new).supervisors ≠ []) := by
    decide +kernel
  have hsomebody := (hall _ (System.reachable_foldl earlyClose)).1 (by decide +kernel)
    (by decide +kernel) (by decide +kernel)
  exact hnobody (hsomebody.imp_right fun h => h.imp_right fun ⟨s, hs, _⟩ => List.ne_nil_of_mem hs)

end Sample

end TransformHub.Host.CPMConnector
