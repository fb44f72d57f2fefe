import TransformHub.Manager.Verser2Transport

/-!
# Every waiter is settled once

A call of `waitForRoute` is pending, and then its interval and its timeout are running and it has an
entry in the set, or it has been settled once, and then it has nothing of these.
-/

namespace TransformHub.Manager.Verser2Transport

variable {s s' : State} {id n : ℕ} {outcome : Except TransportError Unit}

/-- The call is waiting. -/
structure Pending (s : State) (id : ℕ) : Prop where
  finished : (s.waits id).finished = false
  interval : (s.waits id).interval = true
  timeout : (s.waits id).timeout = (s.waits id).timeoutMs.isSome
  settlements : (s.waits id).settlements = []
  entry : id ∈ s.routeWaiters

/-- The promise of the call has been settled, and nothing is left of its waiter. -/
structure Settled (s : State) (id : ℕ) (outcome : Except TransportError Unit) : Prop where
  finished : (s.waits id).finished = true
  interval : (s.waits id).interval = false
  timeout : (s.waits id).timeout = false
  settlements : (s.waits id).settlements = [outcome]
  entry : id ∉ s.routeWaiters

/-- Every call that has been made is pending or settled, and none is pending when the transport is
closed. -/
structure Sound (s : State) : Prop where
  waits : ∀ id, id < s.next → Pending s id ∨ ∃ outcome, Settled s id outcome
  entries : ∀ id ∈ s.routeWaiters, id < s.next
  closed : s.closed = true → s.routeWaiters = []

/-- Nothing but the routes and what is suppressed has changed. -/
structure SameWaiters (s s' : State) : Prop where
  waits : s'.waits = s.waits
  routeWaiters : s'.routeWaiters = s.routeWaiters
  next : s'.next = s.next
  closed : s'.closed = s.closed

theorem SameWaiters.refl (s : State) : SameWaiters s s := ⟨rfl, rfl, rfl, rfl⟩

/-- The calls keep how they have been settled, and what is pending may be settled. -/
structure Goes (s s' : State) : Prop where
  settled : ∀ id outcome, Settled s id outcome → Settled s' id outcome
  pending : ∀ id, Pending s id → Pending s' id ∨ ∃ outcome, Settled s' id outcome
  entries : ∀ id ∈ s'.routeWaiters, id ∈ s.routeWaiters
  next : s'.next = s.next
  closed : s'.closed = s.closed
  names : ∀ id, (s'.waits id).domain = (s.waits id).domain

theorem Goes.refl (s : State) : Goes s s :=
  ⟨fun _ _ h => h, fun _ h => .inl h, fun _ h => h, rfl, rfl, fun _ => rfl⟩

theorem Pending.congr (h : Pending s id) (hwait : s'.waits id = s.waits id)
    (hentry : id ∈ s'.routeWaiters ↔ id ∈ s.routeWaiters) : Pending s' id := by
  obtain ⟨h₁, h₂, h₃, h₄, h₅⟩ := h
  exact ⟨by rwa [hwait], by rwa [hwait], by rwa [hwait], by rwa [hwait], hentry.mpr h₅⟩

theorem Settled.congr (h : Settled s id outcome) (hwait : s'.waits id = s.waits id)
    (hentry : id ∈ s'.routeWaiters ↔ id ∈ s.routeWaiters) : Settled s' id outcome := by
  obtain ⟨h₁, h₂, h₃, h₄, h₅⟩ := h
  exact ⟨by rwa [hwait], by rwa [hwait], by rwa [hwait], by rwa [hwait],
    fun h => h₅ (hentry.mp h)⟩

theorem SameWaiters.goes (h : SameWaiters s s') : Goes s s' := by
  refine ⟨fun id outcome hs => hs.congr (by rw [h.waits]) (by rw [h.routeWaiters]),
    fun id hp => .inl (hp.congr (by rw [h.waits]) (by rw [h.routeWaiters])), fun id hid => ?_,
    h.next, h.closed, fun id => by rw [h.waits]⟩
  rwa [h.routeWaiters] at hid

theorem Goes.trans {s'' : State} (h : Goes s s') (h' : Goes s' s'') : Goes s s'' := by
  refine ⟨fun id outcome hs => h'.settled id outcome (h.settled id outcome hs), fun id hp => ?_,
    fun id hid => h.entries id (h'.entries id hid), h'.next.trans h.next, h'.closed.trans h.closed,
    fun id => (h'.names id).trans (h.names id)⟩
  rcases h.pending id hp with hp | ⟨outcome, hs⟩
  · exact h'.pending id hp
  · exact .inr ⟨outcome, h'.settled id outcome hs⟩

theorem Sound.goes (S : Sound s) (h : Goes s s') : Sound s' := by
  refine ⟨fun id hid => ?_, fun id hid => ?_, fun hclosed => ?_⟩
  · rw [h.next] at hid
    rcases S.waits id hid with hp | ⟨outcome, hs⟩
    · exact h.pending id hp
    · exact .inr ⟨outcome, h.settled id outcome hs⟩
  · rw [h.next]
    exact S.entries id (h.entries id hid)
  · rw [h.closed] at hclosed
    apply List.eq_nil_iff_forall_not_mem.mpr
    intro id hid
    have hentry := h.entries id hid
    rw [S.closed hclosed] at hentry
    cases hentry

/-! ## `finish` -/

theorem finish_eq_of_not_finished (h : (s.waits id).finished = false)
    (outcome : Except TransportError Unit) :
    s.finish id outcome =
      { s with
        waits := Function.update s.waits id
          { s.waits id with
            finished := true, interval := false, timeout := false,
            settlements := (s.waits id).settlements ++ [outcome] }
        routeWaiters := s.routeWaiters.filter (· ≠ id) } := by
  unfold State.finish
  simp [h]

theorem finish_of_finished (h : (s.waits id).finished = true)
    (outcome : Except TransportError Unit) : s.finish id outcome = s := by
  unfold State.finish
  simp [h]

theorem Pending.finish (h : Pending s id) (outcome : Except TransportError Unit) :
    Settled (s.finish id outcome) id outcome := by
  rw [finish_eq_of_not_finished h.finished]
  constructor <;> simp [h.settlements]

theorem finish_other {j : ℕ} (hj : j ≠ id) (outcome : Except TransportError Unit) :
    (s.finish id outcome).waits j = s.waits j ∧
      (j ∈ (s.finish id outcome).routeWaiters ↔ j ∈ s.routeWaiters) := by
  cases hfinished : (s.waits id).finished with
  | true =>
    rw [finish_of_finished hfinished]
    exact ⟨rfl, Iff.rfl⟩
  | false =>
    rw [finish_eq_of_not_finished hfinished]
    exact ⟨Function.update_of_ne hj .., by simp [hj]⟩

theorem goes_finish (s : State) (id : ℕ) (outcome : Except TransportError Unit) :
    Goes s (s.finish id outcome) := by
  cases hfinished : (s.waits id).finished with
  | true =>
    rw [finish_of_finished hfinished]
    exact .refl s
  | false =>
    refine ⟨fun j o hs => ?_, fun j hp => ?_, fun j hj => ?_, ?_, ?_, fun j => ?_⟩
    · by_cases hj : j = id
      · subst hj
        rw [hs.finished] at hfinished
        cases hfinished
      · exact hs.congr (finish_other hj outcome).1 (finish_other hj outcome).2
    · by_cases hj : j = id
      · subst hj
        exact .inr ⟨outcome, hp.finish outcome⟩
      · exact .inl (hp.congr (finish_other hj outcome).1 (finish_other hj outcome).2)
    · rw [finish_eq_of_not_finished hfinished] at hj
      exact (List.mem_filter.mp hj).1
    · rw [finish_eq_of_not_finished hfinished]
    · rw [finish_eq_of_not_finished hfinished]
    · rw [finish_eq_of_not_finished hfinished]
      by_cases hj : j = id
      · subst hj
        simp
      · simp [hj]

/-! ## Routes -/

theorem sameWaiters_getRoutes (s : State) : SameWaiters s s.getRoutes.2 := by
  unfold State.getRoutes
  split
  · exact .refl s
  · split
    · exact .refl s
    · split
      · exact .refl s
      · exact ⟨rfl, rfl, rfl, rfl⟩

theorem isRouteReady_state (s : State) (domain : Name) :
    (s.isRouteReady domain).2 = s.getRoutes.2 := by
  show (s.findRoute domain).2 = _
  unfold State.findRoute
  dsimp only
  split <;> rfl

theorem sameWaiters_isRouteReady (s : State) (domain : Name) :
    SameWaiters s (s.isRouteReady domain).2 := by
  rw [isRouteReady_state]
  exact sameWaiters_getRoutes s

theorem isRouteReady_of_closed (h : s.closed = true) (domain : Name) :
    (s.isRouteReady domain).1 = .ok false := by
  have hroutes : s.getRoutes.1 = [] := by
    unfold State.getRoutes
    rw [if_pos h]
  unfold State.isRouteReady State.findRoute
  simp [hroutes]
  rfl

/-! ## Steps -/

theorem goes_check (s : State) (id : ℕ) : Goes s (s.check id) := by
  have hsame := sameWaiters_isRouteReady s (s.waits id).domain
  unfold State.check
  dsimp only
  split
  · exact goes_finish s id _
  · rcases hready : s.isRouteReady (s.waits id).domain with ⟨_ | _ | _, s₁⟩
    all_goals rw [hready] at hsame
    · exact hsame.goes.trans (goes_finish s₁ id _)
    · exact hsame.goes
    · exact hsame.goes.trans (goes_finish s₁ id _)

theorem Pending.check (h : Pending s id)
    (hready : (s.isRouteReady (s.waits id).domain).1 = .ok true) :
    Settled (s.check id) id (.ok ()) := by
  have hclosed : s.closed = false := by
    by_contra hclosed
    rw [isRouteReady_of_closed (by simpa using hclosed)] at hready
    cases hready
  have hsame := sameWaiters_isRouteReady s (s.waits id).domain
  unfold State.check
  rcases hroute : s.isRouteReady (s.waits id).domain with ⟨route, s₁⟩
  rw [hroute] at hready hsame
  cases hready
  simp only [hclosed, Bool.false_eq_true, if_false, hroute]
  exact (h.congr (by rw [hsame.waits]) (by rw [hsame.routeWaiters])).finish _

/-- What holds after a call has been made: it has the next number, and the others are as they were,
or have moved on. -/
structure Called (s s' : State) : Prop where
  settled : ∀ id outcome, id < s.next → Settled s id outcome → Settled s' id outcome
  pending : ∀ id, id < s.next → Pending s id → Pending s' id ∨ ∃ outcome, Settled s' id outcome
  call : Pending s' s.next ∧ s'.closed = false ∨ ∃ outcome, Settled s' s.next outcome
  rejected : s.closed = true → ∃ error, Settled s' s.next (.error error)
  entries : ∀ id ∈ s'.routeWaiters, id ∈ s.routeWaiters ∨ id = s.next
  next : s'.next = s.next + 1
  closed : s'.closed = s.closed

theorem settled_settle (s : State) (id : ℕ) (hid : id ∉ s.routeWaiters) (domain : Name)
    (timeoutMs : Option ℕ) (outcome : Except TransportError Unit) :
    Settled (s.settle id domain timeoutMs outcome) id outcome := by
  constructor <;> simp [State.settle, State.setWait, hid]

theorem called_settle {s₁ : State} (S : Sound s)
    (hsame : SameWaiters { s with next := s.next + 1 } s₁) (domain : Name) (timeoutMs : Option ℕ)
    (hrejects : s.closed = true → ∃ error, outcome = .error error) :
    Called s (s₁.settle s.next domain timeoutMs outcome) := by
  have hwaits : s₁.waits = s.waits := hsame.waits
  have hentries : s₁.routeWaiters = s.routeWaiters := hsame.routeWaiters
  have hnot : s.next ∉ s₁.routeWaiters := by
    intro hmem
    rw [hentries] at hmem
    exact Nat.lt_irrefl _ (S.entries _ hmem)
  have hset := settled_settle s₁ s.next hnot domain timeoutMs outcome
  have hother : ∀ id, id < s.next →
      (s₁.settle s.next domain timeoutMs outcome).waits id = s.waits id := by
    intro id hid
    rw [← hwaits]
    exact Function.update_of_ne (Nat.ne_of_lt hid) ..
  refine ⟨fun id o hid hs => hs.congr (hother id hid) ?_, fun id hid hp =>
    .inl (hp.congr (hother id hid) ?_), .inr ⟨outcome, hset⟩, fun hclosed => ?_, fun id hid => .inl ?_,
    hsame.next, hsame.closed⟩
  · show id ∈ s₁.routeWaiters ↔ _
    rw [hentries]
  · show id ∈ s₁.routeWaiters ↔ _
    rw [hentries]
  · obtain ⟨error, rfl⟩ := hrejects hclosed
    exact ⟨error, hset⟩
  · rwa [← hentries]

theorem called_createRouteWaiter {s₁ : State}
    (hsame : SameWaiters { s with next := s.next + 1 } s₁) (hopen : s.closed = false)
    (domain : Name) (timeoutMs : Option ℕ) :
    Called s (s₁.createRouteWaiter s.next domain timeoutMs) := by
  have hwaits : s₁.waits = s.waits := hsame.waits
  have hentries : s₁.routeWaiters = s.routeWaiters := hsame.routeWaiters
  -- the waiter as it is made, before it is checked
  let made : State :=
    { s₁.setWait s.next ⟨domain, timeoutMs, false, true, timeoutMs.isSome, []⟩ with
      routeWaiters := s₁.routeWaiters ++ [s.next] }
  have hpending : Pending made s.next := by constructor <;> simp [made, State.setWait]
  have hwait : ∀ id, id < s.next → made.waits id = s.waits id := by
    intro id hid
    rw [← hwaits]
    exact Function.update_of_ne (Nat.ne_of_lt hid) ..
  have hentry : ∀ id, id < s.next → (id ∈ made.routeWaiters ↔ id ∈ s.routeWaiters) := by
    intro id hid
    show id ∈ s₁.routeWaiters ++ [s.next] ↔ _
    rw [hentries, List.mem_append, List.mem_singleton]
    exact or_iff_left (Nat.ne_of_lt hid)
  have hgoes : Goes made (s₁.createRouteWaiter s.next domain timeoutMs) := goes_check made s.next
  have hclosed : (s₁.createRouteWaiter s.next domain timeoutMs).closed = s.closed :=
    hgoes.closed.trans hsame.closed
  refine ⟨fun id o hid hs => hgoes.settled id o (hs.congr (hwait id hid) (hentry id hid)),
    fun id hid hp => hgoes.pending id (hp.congr (hwait id hid) (hentry id hid)), ?_, fun h => ?_,
    fun id hid => ?_, hgoes.next.trans hsame.next, hclosed⟩
  · rcases hgoes.pending s.next hpending with hp | hs
    · exact .inl ⟨hp, by rw [hclosed, hopen]⟩
    · exact .inr hs
  · rw [hopen] at h
    cases h
  · have hmem : id ∈ s₁.routeWaiters ++ [s.next] := hgoes.entries id hid
    rwa [hentries, List.mem_append, List.mem_singleton] at hmem

theorem called_waitForRoute (S : Sound s) (domain : Name) (timeoutMs : Option ℕ) :
    Called s (s.waitForRoute domain timeoutMs) := by
  have hsame := sameWaiters_isRouteReady { s with next := s.next + 1 } domain
  unfold State.waitForRoute
  dsimp only
  have hready := fun h => isRouteReady_of_closed (s := { s with next := s.next + 1 }) h domain
  rcases hroute : ({ s with next := s.next + 1 } : State).isRouteReady domain with ⟨_ | _ | _, s₁⟩
  all_goals rw [hroute] at hsame hready
  · exact called_settle S hsame domain timeoutMs fun _ => ⟨_, rfl⟩
  · have hclosed : s₁.closed = s.closed := hsame.closed
    dsimp only
    split
    · exact called_settle S hsame domain timeoutMs fun _ => ⟨_, rfl⟩
    · next hopen =>
        exact called_createRouteWaiter hsame (by simpa [hclosed] using hopen) domain timeoutMs
  · refine called_settle S hsame domain timeoutMs fun hclosed => ?_
    cases hready hclosed

theorem Sound.called (S : Sound s) (C : Called s s') : Sound s' := by
  refine ⟨fun id hid => ?_, fun id hid => ?_, fun hclosed => ?_⟩
  · rw [C.next] at hid
    rcases Nat.lt_succ_iff_lt_or_eq.mp hid with hlt | rfl
    · rcases S.waits id hlt with hp | ⟨o, hs⟩
      · exact C.pending id hlt hp
      · exact .inr ⟨o, C.settled id o hlt hs⟩
    · exact C.call.imp And.left id
  · rw [C.next]
    rcases C.entries id hid with hid | rfl
    · exact Nat.lt_succ_of_lt (S.entries id hid)
    · exact Nat.lt_succ_self _
  · rw [C.closed] at hclosed
    apply List.eq_nil_iff_forall_not_mem.mpr
    intro id hid
    rcases C.entries id hid with hid | rfl
    · rw [S.closed hclosed] at hid
      cases hid
    · obtain ⟨error, hs⟩ := C.rejected hclosed
      exact hs.entry hid

/-! ## `close` -/

theorem goes_foldl_finish (ids : List ℕ) (s : State) (outcome : Except TransportError Unit) :
    Goes s (ids.foldl (fun s id => s.finish id outcome) s) := by
  induction ids generalizing s with
  | nil => exact .refl s
  | cons id ids ih => exact (goes_finish s id outcome).trans (ih _)

theorem settled_foldl_finish {ids : List ℕ} (outcome : Except TransportError Unit)
    (hp : Pending s id) (hid : id ∈ ids) :
    Settled (ids.foldl (fun s id => s.finish id outcome) s) id outcome := by
  induction ids generalizing s with
  | nil => cases hid
  | cons j ids ih =>
    rw [List.foldl_cons]
    by_cases hj : id = j
    · subst hj
      exact (goes_foldl_finish ids _ outcome).settled id outcome (hp.finish outcome)
    · have hother : (s.finish j outcome).waits id = s.waits id ∧
          (id ∈ (s.finish j outcome).routeWaiters ↔ id ∈ s.routeWaiters) :=
        finish_other hj outcome
      exact ih (hp.congr hother.1 hother.2) ((List.mem_cons.mp hid).resolve_left hj)

/-- What `close` rejects the waiters with. -/
def closingError (reason : Option Name) : TransportError :=
  .closing (match reason with
    | none | some [] => "Verser2 broker transport closed".toList
    | some reason => reason)

structure Closes (s s' : State) (reason : Option Name) : Prop where
  settled : ∀ id outcome, Settled s id outcome → Settled s' id outcome
  pending : ∀ id, Pending s id → Settled s' id (.error (closingError reason))
  entries : s'.routeWaiters = []
  next : s'.next = s.next
  closed : s'.closed = true

theorem closes_close (s : State) (reason : Option Name) : Closes s (s.close reason) reason := by
  let marked : State :=
    { s with suppressedRouteSignature := some (routeSignature s.routes), closed := true }
  let rejected : State :=
    s.routeWaiters.foldl (fun s id => s.finish id (.error (closingError reason))) marked
  have hgoes : Goes marked rejected := goes_foldl_finish _ _ _
  have hcleared : ∀ id outcome, Settled rejected id outcome →
      Settled (s.close reason) id outcome := fun id outcome hs =>
    ⟨hs.finished, hs.interval, hs.timeout, hs.settlements, List.not_mem_nil⟩
  refine ⟨fun id o hs => hcleared id o (hgoes.settled id o (hs.congr rfl Iff.rfl)),
    fun id hp => hcleared id _ ?_, rfl, hgoes.next, hgoes.closed⟩
  exact settled_foldl_finish _ (hp.congr rfl Iff.rfl) hp.entry

theorem Sound.close (S : Sound s) (reason : Option Name) : Sound (s.close reason) := by
  have C := closes_close s reason
  refine ⟨fun id hid => ?_, fun id hid => ?_, fun _ => C.entries⟩
  · rw [C.next] at hid
    rcases S.waits id hid with hp | ⟨o, hs⟩
    · exact .inr ⟨_, C.pending id hp⟩
    · exact .inr ⟨o, C.settled id o hs⟩
  · rw [C.entries] at hid
    cases hid

/-! ## Every step -/

theorem goes_next (s : State) {a : Action}
    (hcall : ∀ domain timeoutMs, a ≠ .waitForRoute domain timeoutMs)
    (hclose : ∀ reason, a ≠ .close reason) (hconnect : a ≠ .connected) : Goes s (next s a) := by
  cases a with
  | routes routes =>
    have hsame : SameWaiters s (next s (.routes routes)) := ⟨rfl, rfl, rfl, rfl⟩
    exact hsame.goes
  | waitForRoute domain timeoutMs => exact absurd rfl (hcall domain timeoutMs)
  | tick id =>
    show Goes s (if (s.waits id).interval then s.check id else s)
    split
    · exact goes_check s id
    · exact .refl s
  | expire id =>
    show Goes s (if (s.waits id).timeout then _ else s)
    split
    · exact goes_finish s id _
    · exact .refl s
  | close reason => exact absurd rfl (hclose reason)
  | connected => exact absurd rfl hconnect
  | getRoutes => exact (sameWaiters_getRoutes s).goes

theorem Sound.connected (S : Sound s) : Sound { s with closed := false } := by
  refine ⟨fun id hid => ?_, S.entries, nofun⟩
  rcases S.waits id hid with hp | ⟨o, hs⟩
  · exact .inl (hp.congr rfl Iff.rfl)
  · exact .inr ⟨o, hs.congr rfl Iff.rfl⟩

theorem Sound.next (S : Sound s) (a : Action) : Sound (next s a) := by
  cases a with
  | waitForRoute domain timeoutMs => exact S.called (called_waitForRoute S domain timeoutMs)
  | close reason => exact S.close reason
  | connected => exact S.connected
  | _ => exact S.goes (goes_next s (by rintro _ _ ⟨⟩) (by rintro _ ⟨⟩) (by rintro ⟨⟩))

theorem Sound.foldl (S : Sound s) (actions : List Action) :
    Sound (actions.foldl Verser2Transport.next s) := by
  induction actions generalizing s with
  | nil => exact S
  | cons a actions ih => exact ih (S.next a)

theorem sound_new (routes : List Verser2Route) : Sound (new routes) :=
  ⟨fun id hid => absurd hid (Nat.not_lt_zero id), nofun, fun _ => rfl⟩

theorem sound_run (routes : List Verser2Route) (actions : List Action) : Sound (run routes actions) :=
  (sound_new routes).foldl actions

theorem Settled.next (S : Sound s) (hid : id < s.next) (hs : Settled s id outcome) (a : Action) :
    Settled (Verser2Transport.next s a) id outcome := by
  cases a with
  | waitForRoute domain timeoutMs =>
    exact (called_waitForRoute S domain timeoutMs).settled id outcome hid hs
  | close reason => exact (closes_close s reason).settled id outcome hs
  | connected => exact hs.congr rfl Iff.rfl
  | _ =>
    exact (goes_next s (by rintro _ _ ⟨⟩) (by rintro _ ⟨⟩) (by rintro ⟨⟩)).settled id outcome hs

theorem next_le (S : Sound s) (a : Action) : s.next ≤ (Verser2Transport.next s a).next := by
  cases a with
  | waitForRoute domain timeoutMs =>
    rw [show (next s (.waitForRoute domain timeoutMs)).next = s.next + 1 from
      (called_waitForRoute S domain timeoutMs).next]
    exact Nat.le_succ _
  | close reason => exact Nat.le_of_eq (closes_close s reason).next.symm
  | connected => exact Nat.le_refl _
  | _ =>
    exact Nat.le_of_eq (goes_next s (by rintro _ _ ⟨⟩) (by rintro _ ⟨⟩) (by rintro ⟨⟩)).next.symm

theorem Settled.foldl (S : Sound s) (hid : id < s.next) (hs : Settled s id outcome)
    (actions : List Action) : Settled (actions.foldl Verser2Transport.next s) id outcome := by
  induction actions generalizing s with
  | nil => exact hs
  | cons a actions ih =>
    exact ih (S.next a) (Nat.lt_of_lt_of_le hid (next_le S a)) (hs.next S hid a)

/-- While the transport is closed, the calls from `n` on are rejected. -/
structure Rejecting (n : ℕ) (s : State) : Prop where
  sound : Sound s
  closed : s.closed = true
  le : n ≤ s.next
  rejected : ∀ id, n ≤ id → id < s.next → ∃ error, Settled s id (.error error)

theorem Rejecting.goes (R : Rejecting n s) (h : Goes s s') : Rejecting n s' := by
  refine ⟨R.sound.goes h, h.closed.trans R.closed, by rw [h.next]; exact R.le, ?_⟩
  intro id hn hid
  rw [h.next] at hid
  obtain ⟨error, hs⟩ := R.rejected id hn hid
  exact ⟨error, h.settled id _ hs⟩

theorem Rejecting.next (R : Rejecting n s) {a : Action} (hconnect : a ≠ .connected) :
    Rejecting n (Verser2Transport.next s a) := by
  cases a with
  | waitForRoute domain timeoutMs =>
    have C := called_waitForRoute R.sound domain timeoutMs
    refine ⟨R.sound.called C, C.closed.trans R.closed, ?_, fun id hn hid => ?_⟩
    · exact Nat.le_trans R.le (Nat.le_trans (Nat.le_succ _) (Nat.le_of_eq C.next.symm))
    · have hid : id < s.next + 1 := by rw [← C.next]; exact hid
      rcases Nat.lt_succ_iff_lt_or_eq.mp hid with hlt | rfl
      · obtain ⟨error, hs⟩ := R.rejected id hn hlt
        exact ⟨error, C.settled id _ hlt hs⟩
      · exact C.rejected R.closed
  | close reason =>
    have C := closes_close s reason
    refine ⟨R.sound.close reason, C.closed, Nat.le_trans R.le (Nat.le_of_eq C.next.symm), ?_⟩
    intro id hn hid
    obtain ⟨error, hs⟩ := R.rejected id hn (by rw [← C.next]; exact hid)
    exact ⟨error, C.settled id _ hs⟩
  | connected => exact absurd rfl hconnect
  | _ => exact R.goes (goes_next s (by rintro _ _ ⟨⟩) (by rintro _ ⟨⟩) (by rintro ⟨⟩))

theorem Rejecting.foldl (R : Rejecting n s) {actions : List Action}
    (hactions : Action.connected ∉ actions) :
    Rejecting n (actions.foldl Verser2Transport.next s) := by
  induction actions generalizing s with
  | nil => exact R
  | cons a actions ih =>
    rw [List.mem_cons, not_or] at hactions
    exact ih (R.next (Ne.symm hactions.1)) hactions.2

/-! ## Whole runs -/

/-- A call that has not been settled can be: its interval and its timeout run, and it has an entry. A
poll that finds its route resolves it, and the end of its timeout rejects it. -/
structure Waiting (s : State) (id : ℕ) : Prop extends Pending s id where
  poll : (s.isRouteReady (s.waits id).domain).1 = .ok true →
    Settled (next s (.tick id)) id (.ok ())
  expiry : (s.waits id).timeoutMs ≠ none →
    Settled (next s (.expire id)) id (.error (.timedOut (s.waits id).domain))

theorem Pending.waiting (h : Pending s id) : Waiting s id := by
  refine ⟨h, fun hready => ?_, fun htimeout => ?_⟩
  · show Settled (if (s.waits id).interval then s.check id else s) id _
    rw [if_pos h.interval]
    exact h.check hready
  · have hrunning : (s.waits id).timeout = true := by
      rw [h.timeout]
      exact Option.isSome_iff_ne_none.mpr htimeout
    show Settled (if (s.waits id).timeout then _ else s) id _
    rw [if_pos hrunning]
    exact h.finish _

end TransformHub.Manager.Verser2Transport
