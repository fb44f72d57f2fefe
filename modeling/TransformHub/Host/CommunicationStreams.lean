import TransformHub.Host.CpmConnectorRun

/-!
# Notifications of communication streams

The streams that `handleCommunicationRequest` installs, the interval that each of them sets, and the
registrations of the connector.
-/

namespace TransformHub.Host

/-- A connector with `loadInterval`. What follows the requests is not in the code: it numbers the
registrations, to say which of them are later than the loss of a stream. -/
structure CommunicationStreams where
  connector : CPMConnector
  /-- the generation whose request has set `loadInterval` -/
  loadInterval : Option ℕ
  /-- the generations whose requests are still in `setLoadCheckMessageSender` -/
  requests : List ℕ
  /-- how many registrations were sent -/
  registrations : ℕ
  /-- the registration that an attempt has sent -/
  registration : ℕ → ℕ
  /-- the registration that has set `connected` last -/
  standing : ℕ
  /-- how many registrations were sent when the loss of a stream was handled -/
  lostAfter : ℕ → Option ℕ

namespace CommunicationStreams

def new : CommunicationStreams where
  connector := .new
  loadInterval := none
  requests := []
  registrations := 0
  registration := fun _ => 0
  standing := 0
  lostAfter := fun _ => none

inductive Action where
  | connector (a : CPMConnector.Action)
  /-- `setLoadCheckMessageSender` has sent the first load -/
  | loadSent (i : ℕ)

section Steps

variable (s : CommunicationStreams)

/-- `handleConnectionClose` next to what it does to the connector. -/
def lose : CommunicationStreams :=
  { s with
    loadInterval := none
    lostAfter := fun g =>
      if g = s.connector.communicationGeneration ∧ s.lostAfter g = none then some s.registrations
      else s.lostAfter g }

/-- What a step of the connector means besides. -/
def observe : CPMConnector.Action → CommunicationStreams
  | .communicationRequest =>
    if s.connector.communicationStream then s
    else { s with requests := s.requests ++ [s.connector.communicationGeneration + 1] }
  | .attemptProceeds n =>
    match s.connector.phase? n with
    | some .guest =>
      if s.connector.isAbandoned then s
      else
        { s with
          registrations := s.registrations + 1
          registration := fun m => if m = n then s.registrations + 1 else s.registration m }
    | some (.registration generation) =>
      if s.connector.isAbandoned ∨ generation ≠ s.connector.registrationAttemptGeneration then s
      else { s with standing := s.registration n }
    | _ => s
  | .closed _ generation => if s.connector.isCurrent generation then s.lose else s
  | .streamError generation =>
    if s.connector.isAbandoned then s
    else if s.connector.isCurrent (some generation) then s.lose else s
  | .disconnect => { s with loadInterval := none }
  | _ => s

def next : Action → CommunicationStreams
  | .connector a => { s.observe a with connector := s.connector.next a }
  | .loadSent i =>
    match s.requests[i]? with
    | none => s
    | some generation =>
      { s with
        requests := s.requests.eraseIdx i
        loadInterval := some generation }

end Steps

def system : System CommunicationStreams Action := .ofFun new next

/-! ## Later registrations -/

/-- A notification of stream `g`: its end, its close, or an error. -/
inductive Notifies (g : ℕ) : Action → Prop
  | closed (connectionStatusCode : ℕ) :
      Notifies g (.connector (.closed connectionStatusCode (some g)))
  | streamError : Notifies g (.connector (.streamError g))

section Later

variable (s : CommunicationStreams)

/-- The registration was sent after the loss of stream `g` was handled. -/
def LaterThan (g registration : ℕ) : Prop := ∃ k, s.lostAfter g = some k ∧ k < registration

/-- The connector is connected by this registration. -/
def Stands (registration : ℕ) : Prop :=
  s.connector.connected = true ∧ s.standing = registration

/-- This registration is on its way, and will be accepted. -/
def InFlight (registration : ℕ) : Prop :=
  s.connector.isAbandoned = false ∧
    ∃ n, s.connector.phase? n = some (.registration s.connector.registrationAttemptGeneration) ∧
      s.registration n = registration

end Later

/-- What a notification of stream `g` leaves as it is: the registrations that are later than the
loss of the stream, their streams and their interval. -/
structure Harmless (g : ℕ) (s s' : CommunicationStreams) : Prop where
  connected : ∀ r, s.LaterThan g r → s.Stands r → s'.Stands r
  registration : ∀ r, s.LaterThan g r → s.InFlight r → s'.InFlight r
  interval : ∀ g', g < g' → s.loadInterval = some g' → s'.loadInterval = some g'
  stream : g < s.connector.communicationGeneration →
    s'.connector.communicationStream = s.connector.communicationStream
  reconnect : ∀ r, s.LaterThan g r → s.Stands r ∨ s.InFlight r →
    s'.connector.supervisors = s.connector.supervisors

/-- No registration stands, and none is on its way that would be accepted. -/
def Unregistered (c : CPMConnector) : Prop :=
  c.connected = false ∧
    (c.isAbandoned = true ∨ ∀ n, c.phase? n ≠ some (.registration c.registrationAttemptGeneration))

/-- The notification is not of the latest generation, or there is no registration to be lost. -/
def Ignorable (s : CommunicationStreams) : Action → Prop
  | .connector (.closed _ (some g)) =>
    g = s.connector.communicationGeneration → Unregistered s.connector
  | .connector (.streamError g) =>
    g = s.connector.communicationGeneration → s.connector.isAbandoned = false →
      Unregistered s.connector
  | _ => True

end CommunicationStreams

/-! ## Steps of the connector that leave the link alone -/

namespace CPMConnector

/-- The connection and the streams are the same, and no registration was sent. -/
structure SameLink (c c' : CPMConnector) : Prop where
  connected : c'.connected = c.connected
  stream : c'.communicationStream = c.communicationStream
  generation : c'.communicationGeneration = c.communicationGeneration
  attemptGeneration : c'.registrationAttemptGeneration = c.registrationAttemptGeneration
  phase : ∀ n generation, c'.phase? n = some (.registration generation) →
    c.phase? n = some (.registration generation)

variable {c c' c'' : CPMConnector}

theorem SameLink.refl (c : CPMConnector) : SameLink c c := ⟨rfl, rfl, rfl, rfl, fun _ _ h => h⟩

theorem sameLink_connectOnce (c : CPMConnector) : SameLink c c.connectOnce.1 := by
  unfold connectOnce
  split
  · exact .refl c
  · refine ⟨rfl, rfl, rfl, rfl, fun n generation hn => ?_⟩
    unfold phase? at hn ⊢
    rw [List.getElem?_append] at hn
    split_ifs at hn with hlt
    · exact hn
    · cases hi : n - c.attempts.length <;> simp [hi] at hn

theorem sameLink_reconnect (c : CPMConnector) : SameLink c c.reconnect := by
  unfold reconnect
  split_ifs
  · exact .refl c
  · exact ⟨rfl, rfl, rfl, rfl, fun _ _ h => h⟩

theorem sameLink_setPhase (c : CPMConnector) (n : ℕ) {p : AttemptPhase}
    (hphase : ∀ generation, p ≠ .registration generation) : SameLink c (c.setPhase n p) := by
  refine ⟨rfl, rfl, rfl, rfl, fun m generation hm => ?_⟩
  rw [phase?_setPhase] at hm
  split_ifs at hm
  · obtain ⟨_, -, heq⟩ := Option.map_eq_some_iff.mp hm
    exact absurd heq (hphase generation)
  · exact hm

theorem sameLink_attemptCleared (c : CPMConnector) (n : ℕ) : SameLink c (c.attemptCleared n) := by
  unfold attemptCleared
  split
  · exact .refl c
  · split_ifs
    · refine ⟨rfl, rfl, rfl, rfl, fun m generation hm => ?_⟩
      unfold phase? at hm ⊢
      rw [List.getElem?_modify] at hm
      cases hget : c.attempts[m]? with
      | none => simp [hget] at hm
      | some a =>
        rw [hget] at hm
        split_ifs at hm <;> exact hm
    · exact .refl c

end CPMConnector

namespace CommunicationStreams

/-! ## The invariant -/

/-- What stands or will be accepted is later than every loss. -/
structure Inv (s : CommunicationStreams) : Prop where
  lost : ∀ g k, s.lostAfter g = some k → k ≤ s.registrations ∧
    g ≤ s.connector.communicationGeneration ∧
      (g = s.connector.communicationGeneration → s.connector.communicationStream = false)
  inFlight : ∀ n generation, s.connector.phase? n = some (.registration generation) →
    generation ≤ s.connector.registrationAttemptGeneration ∧
      (generation = s.connector.registrationAttemptGeneration →
        ∀ g k, s.lostAfter g = some k → k < s.registration n)
  stands : s.connector.connected = true →
    ∀ g k, s.lostAfter g = some k → k < s.standing
  interval : ∀ g, s.loadInterval = some g → g ≤ s.connector.communicationGeneration
  requests : ∀ g ∈ s.requests, g ≤ s.connector.communicationGeneration

theorem inv_new : new.Inv where
  lost := nofun
  inFlight := fun n generation h => by simp [new, CPMConnector.new, CPMConnector.phase?] at h
  stands := nofun
  interval := nofun
  requests := nofun

variable {s : CommunicationStreams}

theorem Inv.sameLink (h : s.Inv) {c' : CPMConnector}
    (hlink : CPMConnector.SameLink s.connector c') :
    ({ s with connector := c' } : CommunicationStreams).Inv where
  lost := fun g k hk => by
    rw [hlink.generation, hlink.stream]
    exact h.lost g k hk
  inFlight := fun n generation hn => by
    rw [hlink.attemptGeneration]
    exact h.inFlight n generation (hlink.phase n generation hn)
  stands := fun hc => h.stands (hlink.connected.symm.trans hc)
  interval := fun g hg => by
    rw [hlink.generation]
    exact h.interval g hg
  requests := fun g hg => by
    rw [hlink.generation]
    exact h.requests g hg

theorem Inv.lose (h : s.Inv) {c' : CPMConnector}
    (hgeneration : c'.communicationGeneration = s.connector.communicationGeneration)
    (hattempt : c'.registrationAttemptGeneration = s.connector.registrationAttemptGeneration + 1)
    (hstream : c'.communicationStream = false) (hconnected : c'.connected = false)
    (hphase : ∀ n, c'.phase? n = s.connector.phase? n) :
    ({ s.lose with connector := c' } : CommunicationStreams).Inv where
  lost := by
    intro g k hk
    rw [hgeneration, hstream]
    simp only [CommunicationStreams.lose] at hk
    split_ifs at hk with hg
    · exact ⟨Nat.le_of_eq (Option.some_inj.mp hk).symm, Nat.le_of_eq hg.1, fun _ => rfl⟩
    · obtain ⟨hle, hbound, -⟩ := h.lost g k hk
      exact ⟨hle, hbound, fun _ => rfl⟩
  inFlight := by
    intro n generation hn
    rw [hphase] at hn
    have hle := (h.inFlight n generation hn).1
    rw [hattempt]
    exact ⟨Nat.le_succ_of_le hle, fun heq => by omega⟩
  stands := fun hc => by
    rw [hconnected] at hc
    cases hc
  interval := nofun
  requests := by
    intro g hg
    rw [hgeneration]
    exact h.requests g hg

theorem phase?_reconnect (c : CPMConnector) (n : ℕ) : c.reconnect.phase? n = c.phase? n := by
  unfold CPMConnector.reconnect
  split_ifs <;> rfl

theorem handleConnectionClose_current {c : CPMConnector} (connectionStatusCode : ℕ)
    {generation : Option ℕ} (h : c.isCurrent generation = true) :
    (c.handleConnectionClose connectionStatusCode generation).communicationGeneration =
        c.communicationGeneration ∧
      (c.handleConnectionClose connectionStatusCode generation).registrationAttemptGeneration =
          c.registrationAttemptGeneration + 1 ∧
        (c.handleConnectionClose connectionStatusCode generation).communicationStream = false ∧
          (c.handleConnectionClose connectionStatusCode generation).connected = false ∧
            ∀ n, (c.handleConnectionClose connectionStatusCode generation).phase? n =
              c.phase? n := by
  unfold CPMConnector.handleConnectionClose
  rw [if_pos h]
  dsimp only
  split_ifs
  · exact ⟨rfl, rfl, rfl, rfl, fun _ => rfl⟩
  · have hlink := CPMConnector.sameLink_reconnect
      { c with
        registrationAttemptGeneration := c.registrationAttemptGeneration + 1
        communicationStream := false
        connected := false }
    exact ⟨hlink.generation, hlink.attemptGeneration, hlink.stream, hlink.connected,
      fun n => phase?_reconnect _ n⟩

theorem handleConnectionClose_stale {c : CPMConnector} {connectionStatusCode : ℕ}
    {generation : Option ℕ} (h : ¬ c.isCurrent generation = true) :
    c.handleConnectionClose connectionStatusCode generation = c :=
  if_neg h

theorem Inv.closed (h : s.Inv) (connectionStatusCode : ℕ) (generation : Option ℕ) :
    ({ (if s.connector.isCurrent generation then s.lose else s) with
        connector := s.connector.handleConnectionClose connectionStatusCode generation } :
      CommunicationStreams).Inv := by
  split_ifs with hcurrent
  · obtain ⟨hgeneration, hattempt, hstream, hconnected, hphase⟩ :=
      handleConnectionClose_current connectionStatusCode hcurrent
    exact h.lose hgeneration hattempt hstream hconnected hphase
  · rw [handleConnectionClose_stale hcurrent]
    exact h

theorem Inv.communicationRequest (h : s.Inv) : (s.next (.connector .communicationRequest)).Inv := by
  simp only [CommunicationStreams.next, observe, CPMConnector.next,
    CPMConnector.handleCommunicationRequest]
  split_ifs with hstream
  · exact h
  · refine ⟨fun g k hk => ?_, h.inFlight, h.stands, fun g hg => ?_, fun g hg => ?_⟩
    · -- nothing is known to be lost of the new generation
      obtain ⟨hle, hbound, -⟩ := h.lost g k hk
      exact ⟨hle, Nat.le_succ_of_le hbound,
        fun heq => absurd heq (Nat.ne_of_lt (Nat.lt_succ_of_le hbound))⟩
    · exact Nat.le_succ_of_le (h.interval g hg)
    · obtain hmem | hlast := List.mem_append.mp hg
      · exact Nat.le_succ_of_le (h.requests g hmem)
      · exact Nat.le_of_eq (List.mem_singleton.mp hlast)

theorem Inv.registrationSent (h : s.Inv) {n : ℕ} (hphase : s.connector.phase? n = some .guest) :
    ({ s with
        connector := s.connector.setPhase n
          (.registration s.connector.registrationAttemptGeneration)
        registrations := s.registrations + 1
        registration := fun m => if m = n then s.registrations + 1 else s.registration m } :
      CommunicationStreams).Inv :=
  { h with
    lost := fun g k hk => ⟨Nat.le_succ_of_le (h.lost g k hk).1, (h.lost g k hk).2⟩
    inFlight := by
      intro m generation hm
      rw [CPMConnector.phase?_setPhase] at hm
      by_cases hmn : m = n
      · subst hmn
        rw [if_pos rfl, hphase, Option.map_some, Option.some_inj,
          AttemptPhase.registration.injEq] at hm
        refine ⟨Nat.le_of_eq hm.symm, fun _ g k hk => ?_⟩
        dsimp only
        rw [if_pos rfl]
        exact Nat.lt_succ_of_le (h.lost _ k hk).1
      · rw [if_neg (Ne.symm hmn)] at hm
        dsimp only
        rw [if_neg hmn]
        exact h.inFlight m generation hm }

theorem Inv.registered (h : s.Inv) {n : ℕ} (hphase : s.connector.phase? n =
    some (.registration s.connector.registrationAttemptGeneration)) :
    ({ s with
        connector :=
          { s.connector.setPhase n .fulfilled with
            connected := true
            connectionAttempts := 0 }
        standing := s.registration n } : CommunicationStreams).Inv :=
  { h with
    inFlight := (h.sameLink (s.connector.sameLink_setPhase n (p := .fulfilled) (by simp))).inFlight
    stands := fun _ => (h.inFlight n _ hphase).2 rfl }

theorem Inv.attemptProceeds (h : s.Inv) (n : ℕ) :
    (s.next (.connector (.attemptProceeds n))).Inv := by
  have hsettles : ({ s with connector := s.connector.setPhase n .fulfilled } :
      CommunicationStreams).Inv := h.sameLink (s.connector.sameLink_setPhase n (by simp))
  have hrejects : ({ s with connector := s.connector.setPhase n .rejected } :
      CommunicationStreams).Inv := h.sameLink (s.connector.sameLink_setPhase n (by simp))
  have hguest : ({ s with connector := s.connector.setPhase n .guest } :
      CommunicationStreams).Inv := h.sameLink (s.connector.sameLink_setPhase n (by simp))
  simp only [CommunicationStreams.next, observe, CPMConnector.next, CPMConnector.attemptProceeds]
  cases hphase : s.connector.phase? n with
  | none => exact h
  | some phase =>
    cases phase with
    | broker =>
      cases habandoned : s.connector.isAbandoned with
      | true => exact hsettles
      | false => exact hguest
    | guest =>
      cases habandoned : s.connector.isAbandoned with
      | true => exact hsettles
      | false => exact h.registrationSent hphase
    | registration generation =>
      dsimp only
      cases habandoned : s.connector.isAbandoned with
      | true => simpa using hsettles
      | false =>
        by_cases hstale : generation = s.connector.registrationAttemptGeneration
        · subst hstale
          simpa using h.registered hphase
        · simpa [hstale] using hrejects
    | fulfilled | rejected => exact h

theorem Inv.next (h : s.Inv) (a : Action) : (s.next a).Inv := by
  cases a with
  | loadSent i =>
    simp only [CommunicationStreams.next]
    split
    · exact h
    · rename_i generation hget
      refine ⟨h.lost, h.inFlight, h.stands, fun g hg => ?_,
        fun g hg => h.requests g (List.mem_of_mem_eraseIdx hg)⟩
      cases hg
      exact h.requests generation (List.mem_of_getElem? hget)
  | connector a =>
    cases a with
    | connect =>
      refine h.sameLink ?_
      simp only [CPMConnector.next, CPMConnector.connect]
      split_ifs
      · exact ⟨rfl, rfl, rfl, rfl, fun _ _ hn => hn⟩
      · have hbegun := CPMConnector.sameLink_connectOnce { s.connector with started := true }
        exact ⟨hbegun.connected, hbegun.stream, hbegun.generation, hbegun.attemptGeneration,
          hbegun.phase⟩
    | callResumed i =>
      refine h.sameLink ?_
      simp only [CPMConnector.next, CPMConnector.callResumed]
      split
      · exact .refl _
      · split_ifs
        · exact ⟨rfl, rfl, rfl, rfl, fun _ _ hn => hn⟩
        · have hreturned := CPMConnector.sameLink_reconnect
            { s.connector with calls := s.connector.calls.eraseIdx i }
          exact ⟨hreturned.connected, hreturned.stream, hreturned.generation,
            hreturned.attemptGeneration, hreturned.phase⟩
        · exact .refl _
    | attemptProceeds n => exact h.attemptProceeds n
    | attemptFails n =>
      refine h.sameLink ?_
      simp only [CPMConnector.next, CPMConnector.attemptFails]
      split_ifs
      · exact .refl _
      · exact s.connector.sameLink_setPhase n (by simp)
    | attemptCleared n => exact h.sameLink (s.connector.sameLink_attemptCleared n)
    | backoffSettled i =>
      refine h.sameLink ?_
      simp only [CPMConnector.next, CPMConnector.backoffSettled]
      split
      · split_ifs
        · exact ⟨rfl, rfl, rfl, rfl, fun _ _ hn => hn⟩
        · exact .refl _
        · have honce := s.connector.sameLink_connectOnce
          exact ⟨honce.connected, honce.stream, honce.generation, honce.attemptGeneration,
            honce.phase⟩
      · exact .refl _
    | supervisorResumed i =>
      refine h.sameLink ?_
      simp only [CPMConnector.next, CPMConnector.supervisorResumed]
      split
      · split
        · exact ⟨rfl, rfl, rfl, rfl, fun _ _ hn => hn⟩
        · split_ifs <;> exact ⟨rfl, rfl, rfl, rfl, fun _ _ hn => hn⟩
        · exact .refl _
      · exact .refl _
    | communicationRequest => exact h.communicationRequest
    | closed connectionStatusCode generation => exact h.closed connectionStatusCode generation
    | streamError generation =>
      simp only [CommunicationStreams.next, observe, CPMConnector.next]
      split_ifs with habandoned hcurrent
      · exact h
      · simpa only [if_pos hcurrent] using h.closed 1006 (some generation)
      · simpa only [if_neg hcurrent] using h.closed 1006 (some generation)
    | dropMessage => exact h.sameLink ⟨rfl, rfl, rfl, rfl, fun _ _ hn => hn⟩
    | disconnect =>
      refine ⟨fun g k hk => ?_, h.inFlight, fun h => (by cases h),
        fun _ h => (by cases h), h.requests⟩
      obtain ⟨hle, hbound, -⟩ := h.lost g k hk
      exact ⟨hle, hbound, fun _ => rfl⟩

/-- Whatever overlaps, a lost stream is not the one that is installed, and a registration that
stands or will be accepted was sent after all losses. -/
theorem registered_after_losses (as : List Action) :
    let s := as.foldl next new
    ∀ g k, s.lostAfter g = some k →
      (s.connector.communicationStream = true → g < s.connector.communicationGeneration) ∧
        ∀ r, s.Stands r ∨ s.InFlight r → k < r := by
  intro s g k hk
  have h : s.Inv := (System.reachable_foldl as).invariant_ofFun inv_new fun _ a hs _ => hs.next a
  obtain ⟨-, hle, hlost⟩ := h.lost g k hk
  refine ⟨fun hstream => Nat.lt_of_le_of_ne hle fun hg => ?_, ?_⟩
  · rw [hlost hg] at hstream
    cases hstream
  · rintro r (⟨hon, rfl⟩ | ⟨-, n, hn, rfl⟩)
    · exact h.stands hon g k hk
    · exact (h.inFlight n _ hn).2 rfl g k hk

/-! ## Notifications of lost streams -/

theorem isCurrent_some {c : CPMConnector} {g : ℕ} :
    c.isCurrent (some g) = true ↔ g = c.communicationGeneration := by
  simp [CPMConnector.isCurrent]

theorem Harmless.refl (g : ℕ) (s : CommunicationStreams) : Harmless g s s :=
  ⟨fun _ _ h => h, fun _ _ h => h, fun _ _ h => h, fun _ => rfl, fun _ _ _ => rfl⟩

/-- The step that a notification makes unless it is ignored. -/
def notified (s : CommunicationStreams) (connectionStatusCode g : ℕ) : CommunicationStreams :=
  { (if s.connector.isCurrent (some g) then s.lose else s) with
    connector := s.connector.handleConnectionClose connectionStatusCode (some g) }

theorem notified_stale {g : ℕ} (connectionStatusCode : ℕ)
    (h : g ≠ s.connector.communicationGeneration) : s.notified connectionStatusCode g = s := by
  have hstale : ¬ s.connector.isCurrent (some g) = true := fun hc => h (isCurrent_some.mp hc)
  rw [notified, if_neg hstale, handleConnectionClose_stale hstale]

/-- A notification of the latest generation, after the loss of its stream, hits whatever
registration there is. -/
theorem Inv.harmless_notified_iff (h : s.Inv) {g : ℕ} (hlost : (s.lostAfter g).isSome)
    (connectionStatusCode : ℕ) : Harmless g s (s.notified connectionStatusCode g) ↔
      (g = s.connector.communicationGeneration → Unregistered s.connector) := by
  by_cases hg : g = s.connector.communicationGeneration
  · have hcurrent := isCurrent_some.mpr hg
    obtain ⟨k, hk⟩ := Option.isSome_iff_exists.mp hlost
    obtain ⟨hgeneration, hattempt, hstream, hconnected, hphase⟩ :=
      handleConnectionClose_current connectionStatusCode hcurrent
    constructor
    · intro hharmless _
      constructor
      · by_contra hc
        have hstands : s.Stands s.standing := ⟨by simpa using hc, rfl⟩
        have hlater := h.stands hstands.1 g k hk
        have hafter := (hharmless.connected _ ⟨k, hk, hlater⟩ hstands).1
        exact absurd (hconnected.symm.trans hafter) (by simp)
      · by_contra hflying
        rw [not_or, not_forall_not] at hflying
        obtain ⟨habandoned, n, hn⟩ := hflying
        have hinFlight : s.InFlight (s.registration n) := ⟨by simpa using habandoned, n, hn, rfl⟩
        have hlater := (h.inFlight n _ hn).2 rfl g k hk
        obtain ⟨-, m, hm, -⟩ := hharmless.registration _ ⟨k, hk, hlater⟩ hinFlight
        -- the attempt that would be accepted belongs to a generation that has passed
        have hm' : s.connector.phase? m =
            some (.registration (s.connector.registrationAttemptGeneration + 1)) := by
          rw [← hphase m, ← hattempt]
          exact hm
        have hbound := (h.inFlight m _ hm').1
        omega
    · intro hunregistered
      obtain ⟨hoff, hnone⟩ := hunregistered hg
      have hnotStands : ∀ r, ¬ s.Stands r := by
        rintro r ⟨hon, -⟩
        rw [hoff] at hon
        cases hon
      have hnotInFlight : ∀ r, ¬ s.InFlight r := by
        rintro r ⟨habandoned, n, hn, -⟩
        obtain ha | hphases := hnone
        · rw [ha] at habandoned
          cases habandoned
        · exact hphases n hn
      refine ⟨fun r _ hr => absurd hr (hnotStands r), fun r _ hr => absurd hr (hnotInFlight r),
        fun g' hlt hinterval => ?_, fun hlt => absurd hg (Nat.ne_of_lt hlt), fun r _ hr => ?_⟩
      · have hbound := h.interval g' hinterval
        omega
      · exact (hr.elim (hnotStands r) (hnotInFlight r)).elim
  · rw [notified_stale connectionStatusCode hg]
    exact ⟨fun _ heq => absurd heq hg, fun _ => .refl g s⟩

/-- A notification of a stream whose loss has been handled leaves the later registrations alone exactly
if it is not of the latest generation, or no registration stands or is on its way. -/
theorem harmless_iff (h : system.Reachable System.anyStep s) {g : ℕ} {a : Action}
    (hlost : (s.lostAfter g).isSome) (ha : Notifies g a) :
    Harmless g s (s.next a) ↔ Ignorable s a := by
  have hinv : s.Inv := h.invariant_ofFun inv_new fun _ a hs _ => hs.next a
  cases ha with
  | closed connectionStatusCode => exact hinv.harmless_notified_iff hlost connectionStatusCode
  | streamError =>
    unfold Ignorable
    cases habandoned : s.connector.isAbandoned with
    | true =>
      have hsame : s.next (.connector (.streamError g)) = s := by
        simp [CommunicationStreams.next, observe, CPMConnector.next, habandoned]
      rw [hsame]
      exact ⟨fun _ _ h => (by cases h), fun _ => .refl g s⟩
    | false =>
      have hstep : s.next (.connector (.streamError g)) = s.notified 1006 g := by
        simp [CommunicationStreams.next, observe, CPMConnector.next, habandoned, notified]
      rw [hstep, hinv.harmless_notified_iff hlost 1006]
      exact ⟨fun himp hg _ => himp hg, fun himp hg => himp hg rfl⟩

/-! ## Runs -/

/-- The connector registers, its first stream is installed and lost, and it registers again. -/
def reregistered : List Action :=
  [.connector .connect, .connector (.attemptProceeds 0), .connector (.attemptProceeds 0),
    .connector .communicationRequest, .connector (.attemptProceeds 0),
    .connector (.attemptCleared 0), .connector (.callResumed 0),
    .connector (.closed 1000 (some 1)), .connector (.backoffSettled 0),
    .connector (.attemptProceeds 1), .connector (.attemptProceeds 1),
    .connector (.attemptProceeds 1)]

/-- Then a second stream is installed. -/
def replaced : List Action := reregistered ++ [.connector .communicationRequest]

theorem harmless_replaced :
    Harmless 1 (replaced.foldl next new)
      ((replaced.foldl next new).next (.connector (.closed 1006 (some 1)))) :=
  (harmless_iff (System.reachable_foldl _) (by decide +kernel) (.closed 1006)).mpr fun hg =>
    absurd hg (by decide +kernel)

/-- The response of the first stream tells of an error once more, before a second one is there. -/
theorem repeated_disconnects :
    (reregistered.foldl next new).connector.connected = true ∧
      (reregistered.foldl next new).LaterThan 1 (reregistered.foldl next new).standing ∧
      ((reregistered.foldl next new).next (.connector (.streamError 1))).connector.connected =
        false ∧
      ¬ Harmless 1 (reregistered.foldl next new)
        ((reregistered.foldl next new).next (.connector (.streamError 1))) := by
  have hconnected : (reregistered.foldl next new).connector.connected = true := by decide +kernel
  have hlater : (reregistered.foldl next new).LaterThan 1 (reregistered.foldl next new).standing :=
    ⟨1, by decide +kernel, by decide +kernel⟩
  have hoff : ((reregistered.foldl next new).next (.connector (.streamError 1))).connector.connected =
      false := by
    decide +kernel
  refine ⟨hconnected, hlater, hoff, fun hharmless => ?_⟩
  have hafter := (hharmless.connected _ hlater ⟨hconnected, rfl⟩).1
  rw [hoff] at hafter
  cases hafter

end CommunicationStreams

end TransformHub.Host
