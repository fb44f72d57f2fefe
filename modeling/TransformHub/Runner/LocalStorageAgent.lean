import Mathlib.Logic.Function.Iterate
import TransformHub.Host.LocalStorage

/-!
# The storage agent of a runner

`LocalStorageAgent` of `local-storage-agent.ts`. Every call gets a number, by which its promise goes
here.
-/

namespace TransformHub.Runner.LocalStorageAgent

open OrderedMap

open Host.LocalStorage (CLEAR Update)

structure PendingUpdate where
  expectedValue : Option String
  /-- the call whose promise `resolve` and `reject` settle -/
  call : ℕ

/-- A method of the agent that changes the storage. -/
inductive Call where
  | setItem (key value : String)
  | removeItem (key : String)
  | clear

def Call.update : Call → Update
  | .setItem key value => ⟨key, some value⟩
  | .removeItem key => ⟨key, none⟩
  | .clear => ⟨CLEAR, none⟩

/-- The agent, with its runner's cache and the calls of `resolve` and `reject`. -/
structure Agent where
  localCache : OrderedMap String (Option String)
  pendingUpdates : OrderedMap String PendingUpdate
  calls : ℕ
  resolves : List ℕ
  rejects : List ℕ

/-- What is between an agent and its Host: the updates that it has written and that have not come
back, and the calls whose broadcasts it has processed. -/
structure State where
  agent : Agent
  inFlight : List (ℕ × Update)
  processed : List ℕ

namespace Agent

def start : Agent := ⟨.empty, .empty, 0, [], []⟩

/-- `sendUpdate`, when `writeMonitoringMessage` returns and when it throws. -/
def sendUpdate (a : Agent) (u : Update) (written : Bool) : Agent :=
  { a with
    pendingUpdates := a.pendingUpdates.set u.key ⟨u.value, a.calls⟩
    calls := a.calls + 1
    rejects := if written then a.rejects else a.rejects ++ [a.calls] }

def handleBroadcastUpdate (a : Agent) (u : Update) : Agent :=
  let received := { a with localCache := Host.LocalStorage.handleBroadcastUpdate a.localCache u }
  match a.pendingUpdates.get? u.key with
  | none => received
  | some pending =>
    if pending.expectedValue = u.value then
      { received with
        resolves := a.resolves ++ [pending.call]
        pendingUpdates := a.pendingUpdates.delete u.key }
    else received

end Agent

inductive Action where
  | call (c : Call) (written : Bool)
  /-- the next of the agent's own updates comes back -/
  | broadcast
  /-- the update of another instance comes, or an item of the whole storage -/
  | foreign (u : Update)
  /-- the Host has failed to store an update -/
  | lost (i : ℕ)

namespace State

def start : State := ⟨.start, [], []⟩

def broadcast (s : State) : State :=
  match s.inFlight with
  | [] => s
  | (n, u) :: rest => ⟨s.agent.handleBroadcastUpdate u, rest, s.processed ++ [n]⟩

def next (s : State) : Action → State
  | .call c written =>
    { s with
      agent := s.agent.sendUpdate c.update written
      inFlight := if written then s.inFlight ++ [(s.agent.calls, c.update)] else s.inFlight }
  | .broadcast => s.broadcast
  | .foreign u => { s with agent := s.agent.handleBroadcastUpdate u }
  | .lost i => { s with inFlight := s.inFlight.eraseIdx i }

/-- Every call whose broadcast has been processed is resolved, and none is resolved twice. -/
structure Completed (s : State) : Prop where
  resolved : ∀ n ∈ s.processed, n ∈ s.agent.resolves ∧ n ∉ s.agent.rejects
  once : s.agent.resolves.Nodup

/-- The state stays so when updates that are on their way come back. -/
def Completes (s : State) : Prop := ∀ n, ((broadcast^[n]) s).Completed

/-- A call is made when no unresolved call on its key waits for its broadcast. -/
def Alone (s : State) : Action → Prop
  | .call c _ => ∀ e ∈ s.inFlight, e.2.key = c.update.key → e.1 ∈ s.agent.resolves
  | _ => True

end State

/-! ## What an agent keeps -/

namespace Agent

/-- What waits is not resolved, and waits once. -/
structure Tracks (a : Agent) : Prop where
  waiting : ∀ k p, a.pendingUpdates.get? k = some p → p.call < a.calls ∧ p.call ∉ a.resolves
  distinct : ∀ k k' p p', a.pendingUpdates.get? k = some p → a.pendingUpdates.get? k' = some p' →
    p.call = p'.call → k = k'
  resolves : ∀ n ∈ a.resolves, n < a.calls
  rejects : ∀ n ∈ a.rejects, n < a.calls
  once : a.resolves.Nodup

variable {a : Agent}

theorem tracks_start : start.Tracks where
  waiting := nofun
  distinct := nofun
  resolves := nofun
  rejects := nofun
  once := List.nodup_nil

theorem handleBroadcastUpdate_cases (a : Agent) (u : Update) :
    (∃ n, a.pendingUpdates.get? u.key = some ⟨u.value, n⟩ ∧
        (a.handleBroadcastUpdate u).resolves = a.resolves ++ [n] ∧
        (a.handleBroadcastUpdate u).pendingUpdates = a.pendingUpdates.delete u.key) ∨
      (∀ n, a.pendingUpdates.get? u.key ≠ some ⟨u.value, n⟩) ∧
        (a.handleBroadcastUpdate u).resolves = a.resolves ∧
        (a.handleBroadcastUpdate u).pendingUpdates = a.pendingUpdates := by
  unfold handleBroadcastUpdate
  cases hget : a.pendingUpdates.get? u.key with
  | none => exact .inr ⟨nofun, rfl, rfl⟩
  | some pending =>
    obtain ⟨expected, n⟩ := pending
    dsimp only
    split_ifs with heq
    · subst heq
      exact .inl ⟨n, rfl, rfl, rfl⟩
    · refine .inr ⟨fun m h => heq ?_, rfl, rfl⟩
      rw [Option.some.injEq, PendingUpdate.mk.injEq] at h
      exact h.1

@[simp] theorem calls_handleBroadcastUpdate (a : Agent) (u : Update) :
    (a.handleBroadcastUpdate u).calls = a.calls := by
  unfold handleBroadcastUpdate
  dsimp only
  split
  · rfl
  · split_ifs <;> rfl

@[simp] theorem rejects_handleBroadcastUpdate (a : Agent) (u : Update) :
    (a.handleBroadcastUpdate u).rejects = a.rejects := by
  unfold handleBroadcastUpdate
  dsimp only
  split
  · rfl
  · split_ifs <;> rfl

theorem Tracks.handleBroadcastUpdate (h : a.Tracks) (u : Update) :
    (a.handleBroadcastUpdate u).Tracks := by
  rcases a.handleBroadcastUpdate_cases u with
    ⟨n, hget, hresolves, hpending⟩ | ⟨-, hresolves, hpending⟩
  · obtain ⟨hlt, hnew⟩ := h.waiting _ _ hget
    constructor
    · intro k p hp
      rw [hpending, get?_delete] at hp
      split_ifs at hp with hk
      obtain ⟨hlt', hnot⟩ := h.waiting k p hp
      rw [hresolves, calls_handleBroadcastUpdate, List.mem_append, List.mem_singleton, not_or]
      exact ⟨hlt', hnot, fun heq => hk (h.distinct _ _ _ _ hget hp heq.symm)⟩
    · intro k k' p p' hp hp'
      rw [hpending, get?_delete] at hp hp'
      split_ifs at hp hp'
      exact h.distinct k k' p p' hp hp'
    · intro m hm
      rw [hresolves, List.mem_append, List.mem_singleton] at hm
      rw [calls_handleBroadcastUpdate]
      rcases hm with hm | rfl
      · exact h.resolves m hm
      · exact hlt
    · rw [calls_handleBroadcastUpdate, rejects_handleBroadcastUpdate]
      exact h.rejects
    · rw [hresolves, ← List.concat_eq_append]
      exact h.once.concat hnew
  · constructor
    · rw [hpending, hresolves, calls_handleBroadcastUpdate]
      exact h.waiting
    · rw [hpending]
      exact h.distinct
    · rw [hresolves, calls_handleBroadcastUpdate]
      exact h.resolves
    · rw [calls_handleBroadcastUpdate, rejects_handleBroadcastUpdate]
      exact h.rejects
    · rw [hresolves]
      exact h.once

theorem Tracks.sendUpdate (h : a.Tracks) (u : Update) (written : Bool) :
    (a.sendUpdate u written).Tracks := by
  -- the number of the call is new
  have hnew : ∀ k p, a.pendingUpdates.get? k = some p → p.call ≠ a.calls := fun k p hp =>
    Nat.ne_of_lt (h.waiting k p hp).1
  constructor
  · intro k p hp
    simp only [Agent.sendUpdate, get?_set] at hp ⊢
    split_ifs at hp with hk
    · cases hp
      exact ⟨Nat.lt_succ_self _, fun hmem => Nat.lt_irrefl _ (h.resolves _ hmem)⟩
    · exact ⟨Nat.lt_succ_of_lt (h.waiting k p hp).1, (h.waiting k p hp).2⟩
  · intro k k' p p' hp hp' heq
    simp only [Agent.sendUpdate, get?_set] at hp hp'
    split_ifs at hp hp' with hk hk' hk'
    · exact hk.symm.trans hk'
    · cases hp
      exact absurd heq.symm (hnew k' p' hp')
    · cases hp'
      exact absurd heq (hnew k p hp)
    · exact h.distinct k k' p p' hp hp' heq
  · exact fun n hn => Nat.lt_succ_of_lt (h.resolves n hn)
  · intro n hn
    simp only [Agent.sendUpdate] at hn ⊢
    split_ifs at hn
    · exact Nat.lt_succ_of_lt (h.rejects n hn)
    · rcases List.mem_append.mp hn with hn | hn
      · exact Nat.lt_succ_of_lt (h.rejects n hn)
      · rw [List.mem_singleton.mp hn]
        exact Nat.lt_succ_self _
  · exact h.once

theorem mem_resolves_handleBroadcastUpdate {n : ℕ} (u : Update) (h : n ∈ a.resolves) :
    n ∈ (a.handleBroadcastUpdate u).resolves := by
  rcases a.handleBroadcastUpdate_cases u with ⟨m, -, hresolves, -⟩ | ⟨-, hresolves, -⟩
  · rw [hresolves]
    exact List.mem_append_left _ h
  · rwa [hresolves]

theorem waits_handleBroadcastUpdate {k : String} {p : PendingUpdate} (u : Update)
    (h : a.pendingUpdates.get? k = some p) :
    p.call ∈ (a.handleBroadcastUpdate u).resolves ∨
      (a.handleBroadcastUpdate u).pendingUpdates.get? k = some p := by
  rcases a.handleBroadcastUpdate_cases u with ⟨n, hget, hresolves, hpending⟩ | ⟨-, -, hpending⟩
  · by_cases hk : u.key = k
    · subst hk
      rw [h, Option.some.injEq] at hget
      subst hget
      rw [hresolves]
      exact .inl (List.mem_append_right _ (List.mem_singleton_self n))
    · rw [hpending, get?_delete_of_ne _ hk]
      exact .inr h
  · rw [hpending]
    exact .inr h

theorem resolved_handleBroadcastUpdate {u : Update} {n : ℕ}
    (h : a.pendingUpdates.get? u.key = some ⟨u.value, n⟩) :
    n ∈ (a.handleBroadcastUpdate u).resolves := by
  rcases a.handleBroadcastUpdate_cases u with ⟨m, hget, hresolves, -⟩ | ⟨hnot, -, -⟩
  · rw [h, Option.some.injEq, PendingUpdate.mk.injEq] at hget
    rw [hresolves, hget.2]
    exact List.mem_append_right _ (List.mem_singleton_self m)
  · exact absurd h (hnot n)

/-- The agent has forgotten a call that is not resolved. -/
def Forgets (a : Agent) (n : ℕ) : Prop :=
  n ∉ a.resolves ∧ ∀ k p, a.pendingUpdates.get? k = some p → p.call ≠ n

theorem Forgets.handleBroadcastUpdate {n : ℕ} (h : a.Forgets n) (u : Update) :
    (a.handleBroadcastUpdate u).Forgets n := by
  rcases a.handleBroadcastUpdate_cases u with
    ⟨m, hget, hresolves, hpending⟩ | ⟨-, hresolves, hpending⟩
  · constructor
    · rw [hresolves, List.mem_append, List.mem_singleton, not_or]
      exact ⟨h.1, fun heq => h.2 _ _ hget heq.symm⟩
    · intro k p hp
      rw [hpending, get?_delete] at hp
      split_ifs at hp
      exact h.2 k p hp
  · constructor
    · rw [hresolves]
      exact h.1
    · rw [hpending]
      exact h.2

theorem forgets_sendUpdate (h : a.Tracks) {u : Update} {p : PendingUpdate}
    (hp : a.pendingUpdates.get? u.key = some p) (written : Bool) :
    (a.sendUpdate u written).Forgets p.call := by
  obtain ⟨hlt, hnot⟩ := h.waiting _ _ hp
  refine ⟨hnot, fun k p' hp' heq => ?_⟩
  simp only [Agent.sendUpdate, get?_set] at hp'
  split_ifs at hp' with hk
  · cases hp'
    exact Nat.ne_of_gt hlt heq
  · exact hk (h.distinct _ _ _ _ hp hp' heq.symm)

end Agent

/-! ## Runs -/

namespace State

/-- An update on its way is that of a call that waits for it or is resolved. -/
structure Inv (s : State) : Prop where
  agent : s.agent.Tracks
  inFlight : ∀ e ∈ s.inFlight, e.1 < s.agent.calls ∧ e.1 ∉ s.agent.rejects ∧
    (e.1 ∈ s.agent.resolves ∨ s.agent.pendingUpdates.get? e.2.key = some ⟨e.2.value, e.1⟩)
  processed : ∀ n ∈ s.processed, n ∈ s.agent.resolves ∧ n ∉ s.agent.rejects

variable {s : State}

theorem inv_start : start.Inv where
  agent := Agent.tracks_start
  inFlight := nofun
  processed := nofun

theorem Inv.completed (h : s.Inv) : s.Completed := ⟨h.processed, h.agent.once⟩

theorem Inv.receive (h : s.Inv) (u : Update) :
    Inv { s with agent := s.agent.handleBroadcastUpdate u } where
  agent := h.agent.handleBroadcastUpdate u
  inFlight := fun e he => by
    obtain ⟨hlt, hnot, hwaits⟩ := h.inFlight e he
    rw [Agent.calls_handleBroadcastUpdate, Agent.rejects_handleBroadcastUpdate]
    refine ⟨hlt, hnot, ?_⟩
    rcases hwaits with hresolved | hget
    · exact .inl (Agent.mem_resolves_handleBroadcastUpdate u hresolved)
    · exact Agent.waits_handleBroadcastUpdate u hget
  processed := fun n hn => by
    rw [Agent.rejects_handleBroadcastUpdate]
    exact ⟨Agent.mem_resolves_handleBroadcastUpdate u (h.processed n hn).1, (h.processed n hn).2⟩

theorem Inv.broadcast (h : s.Inv) : s.broadcast.Inv := by
  unfold State.broadcast
  cases hflight : s.inFlight with
  | nil => exact h
  | cons e rest =>
    obtain ⟨n, u⟩ := e
    obtain ⟨hagent, hrest, hprocessed⟩ := h.receive u
    have hmem : (n, u) ∈ s.inFlight := by
      rw [hflight]
      exact List.mem_cons_self
    obtain ⟨-, hnot, hwaits⟩ := h.inFlight _ hmem
    refine ⟨hagent, fun e he => hrest e ?_, fun m hm => ?_⟩
    · show e ∈ s.inFlight
      rw [hflight]
      exact List.mem_cons_of_mem _ he
    · rcases List.mem_append.mp hm with hm | hm
      · exact hprocessed m hm
      -- the call has waited for this broadcast
      · rw [List.mem_singleton.mp hm]
        refine ⟨?_, by rwa [Agent.rejects_handleBroadcastUpdate]⟩
        rcases hwaits with hresolved | hget
        · exact Agent.mem_resolves_handleBroadcastUpdate u hresolved
        · exact Agent.resolved_handleBroadcastUpdate hget

theorem Inv.sendUpdate (h : s.Inv) {c : Call} {written : Bool} (hok : s.Alone (.call c written)) :
    (s.next (.call c written)).Inv := by
  have hrejects : ∀ n < s.agent.calls, n ∉ s.agent.rejects →
      n ∉ (s.agent.sendUpdate c.update written).rejects := by
    intro n hlt hnot
    simp only [Agent.sendUpdate]
    split_ifs
    · exact hnot
    · rw [List.mem_append, List.mem_singleton, not_or]
      exact ⟨hnot, Nat.ne_of_lt hlt⟩
  have hold : ∀ e ∈ s.inFlight, e.1 < s.agent.calls + 1 ∧
      e.1 ∉ (s.agent.sendUpdate c.update written).rejects ∧ (e.1 ∈ s.agent.resolves ∨
        (s.agent.sendUpdate c.update written).pendingUpdates.get? e.2.key =
          some ⟨e.2.value, e.1⟩) := by
    intro e he
    obtain ⟨hlt, hnot, hwaits⟩ := h.inFlight e he
    refine ⟨Nat.lt_succ_of_lt hlt, hrejects _ hlt hnot, ?_⟩
    rcases hwaits with hresolved | hget
    · exact .inl hresolved
    · by_cases hkey : c.update.key = e.2.key
      · exact .inl (hok e he hkey.symm)
      · simp only [Agent.sendUpdate, get?_set_of_ne _ hkey]
        exact .inr hget
  refine ⟨h.agent.sendUpdate c.update written, ?_, fun n hn => ?_⟩
  · cases written with
    | false => exact hold
    | true =>
      intro e he
      rcases List.mem_append.mp he with he | he
      · exact hold e he
      · rw [List.mem_singleton.mp he]
        refine ⟨Nat.lt_succ_self _, fun hmem => ?_, .inr (get?_set_self _ _ _)⟩
        exact Nat.lt_irrefl _ (h.agent.rejects _ hmem)
  · obtain ⟨hresolved, hnot⟩ := h.processed n hn
    exact ⟨hresolved, hrejects n (h.agent.resolves n hresolved) hnot⟩

theorem Inv.next (h : s.Inv) {a : Action} (hok : s.Alone a) : (s.next a).Inv := by
  cases a with
  | call c written => exact h.sendUpdate hok
  | broadcast => exact h.broadcast
  | foreign u => exact h.receive u
  | lost i => exact ⟨h.agent, fun e he => h.inFlight e (List.mem_of_mem_eraseIdx he), h.processed⟩

theorem Inv.completes (h : s.Inv) : s.Completes := by
  intro n
  suffices ((State.broadcast^[n]) s).Inv from this.completed
  induction n generalizing s with
  | zero => exact h
  | succ n ih => exact ih h.broadcast

theorem not_completes_of_forgets {n : ℕ} (hforgets : s.agent.Forgets n)
    (hflight : ∃ u, (n, u) ∈ s.inFlight) : ¬ s.Completes := by
  suffices ∃ m, n ∈ ((broadcast^[m]) s).processed ∧ n ∉ ((broadcast^[m]) s).agent.resolves by
    obtain ⟨m, hmem, hnot⟩ := this
    exact fun hall => hnot ((hall m).resolved n hmem).1
  obtain ⟨u, hmem⟩ := hflight
  -- by induction on what comes before it
  induction hrest : s.inFlight generalizing s with
  | nil =>
    rw [hrest] at hmem
    cases hmem
  | cons e rest ih =>
    have hbroadcast : s.broadcast =
        ⟨s.agent.handleBroadcastUpdate e.2, rest, s.processed ++ [e.1]⟩ := by
      simp only [State.broadcast, hrest]
    have hforgets' : s.broadcast.agent.Forgets n := by
      rw [hbroadcast]
      exact hforgets.handleBroadcastUpdate e.2
    rw [hrest] at hmem
    rcases List.mem_cons.mp hmem with rfl | hmem
    · refine ⟨1, ?_, hforgets'.1⟩
      show n ∈ s.broadcast.processed
      rw [hbroadcast]
      exact List.mem_append_right _ (List.mem_singleton_self n)
    · have hrest' : s.broadcast.inFlight = rest := by rw [hbroadcast]
      obtain ⟨m, hm⟩ := ih hforgets' (by rwa [hrest']) hrest'
      exact ⟨m + 1, hm⟩

/-- A step leads to a state in which every call completes if and only if no call is made while an
unresolved one on its key waits for its broadcast. -/
theorem Inv.completes_next_iff (h : s.Inv) (a : Action) : (s.next a).Completes ↔ s.Alone a := by
  refine ⟨fun hcompletes => ?_, fun hok => (h.next hok).completes⟩
  cases a with
  | call c written =>
    intro e he hkey
    by_contra hnot
    obtain ⟨-, -, hwaits⟩ := h.inFlight e he
    obtain hget := hwaits.resolve_left hnot
    rw [hkey] at hget
    refine not_completes_of_forgets (Agent.forgets_sendUpdate h.agent hget written) ?_ hcompletes
    refine ⟨e.2, ?_⟩
    show e ∈ (s.next (.call c written)).inFlight
    simp only [State.next]
    split_ifs
    · exact List.mem_append_left _ he
    · exact he
  | _ => trivial

/-- In every state of a run every call whose broadcast is processed, now or with what is on its way,
is resolved once, if and only if no call is made while an unresolved one on its key waits. -/
theorem completes_iff_alone (as : List Action) :
    System.Always next Completes start as ↔ System.Meets next Alone start as := by
  apply System.always_iff_meets (I := Inv) (A := fun _ => True)
  · exact fun s a _ h _ => h.completes_next_iff a
  · exact fun s a _ h _ hok => h.next hok
  · exact inv_start
  · exact inv_start.completes
  · exact fun _ _ => trivial

/-- Two calls on one key are in flight: both broadcasts are processed, and the first call is never
resolved. -/
theorem concurrent_unresolved :
    let s := [Action.call (.setItem "k" "1") true, .call (.setItem "k" "2") true, .broadcast,
      .broadcast].foldl next start
    s.processed = [0, 1] ∧ s.agent.resolves = [1] ∧ s.inFlight = [] ∧
      s.agent.pendingUpdates.get? "k" = none ∧ ¬ s.Completed := by
  refine ⟨by decide, by decide, by decide, by decide, fun h => ?_⟩
  have hmem := (h.resolved 0 (by decide)).1
  exact absurd hmem (by decide)

end State

end TransformHub.Runner.LocalStorageAgent
