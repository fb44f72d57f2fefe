import Mathlib.Data.List.InsertIdx
import TransformHub.Manager.TopicMesh

/-!
# Uniqueness of pipes and topic streams

No connection between two topic actors should be made twice, and no host actor should be asked for a
second topic stream.
-/

namespace TransformHub.Manager

namespace ServiceDiscovery

/-- The pairs that the worker connects when it comes to the pairs of a topic. -/
def connecting (s : ServiceDiscovery) (topicName : String) : List (ℕ × ℕ) :=
  considered s.isHandled
    (pairs (s.findRole .provider topicName) (s.findRole .consumer topicName))

/-- No worker connects a pair that has a pipe or a connection in the making, and no stream is asked
for while a request for it is under way. -/
def Spares (s : ServiceDiscovery) : Action → Prop
  | .continueUpdate => ∀ topicName q, s.workerStart = some (topicName, q) →
      (∀ pair ∈ q.connecting topicName,
        q.sameHost pair.1 pair.2 = true ∨ q.load pair.1 pair.2 = 0) ∧
      ((q.tasks ++ (q.connecting topicName).filterMap (q.taskOf q.passes)).map Task.awaited).Nodup
  | .requestResolved i => ∀ task, s.tasks[i]? = some task → task.awaits = .provider →
      s.needsStream task.consumer = true → ∀ t ∈ s.tasks, Task.awaited t ≠ task.consumer
  | _ => True

/-- How often what a stream emits reaches a consumer. -/
def deliveries (s : ServiceDiscovery) (stream consumer : ℕ) : ℕ :=
  s.piped.countP fun e => e.1 = stream && s.streams[e.2]? = some consumer

/-! ## The invariant -/

structure Single (s : ServiceDiscovery) : Prop where
  owned : s.Owned
  load : ∀ p c, s.load p c ≤ 1
  asked : (s.tasks.map Task.awaited).Nodup
  awaiting : ∀ t ∈ s.tasks, s.streamOf (Task.awaited t) = none
  opened : ∀ i, s.streams.count i ≤ if (s.streamOf i).isSome then 1 else 0

theorem single_new : new.Single where
  owned := owned_new
  load := fun _ _ => Nat.zero_le 1
  asked := .nil
  awaiting := nofun
  opened := fun _ => Nat.zero_le _

section Steps

variable {s s' : ServiceDiscovery} {topicName : String} {role : ActorRole} {type : ActorType}

theorem Withdraws.single (h : Withdraws s s') (hs : s.Single) : s'.Single where
  owned := h.owned hs.owned
  load := fun p c => (h.load_le p c).trans (hs.load p c)
  asked := h.tasks ▸ hs.asked
  awaiting := by
    intro t ht
    rw [h.stream]
    exact hs.awaiting t (h.tasks ▸ ht)
  opened := by
    intro i
    rw [h.streams, h.stream]
    exact hs.opened i

theorem Registers.single (h : Registers s topicName role type s') (hs : s.Single) : s'.Single := by
  obtain ⟨_, _, _, hframe⟩ := h.frame
  have htasks : s'.tasks = s.tasks := by rw [hframe]
  have hold : ∀ i, i ≠ s.actorCount → i ∈ s'.streams → i < s.actorCount := by
    intro i hi hmem
    have hlt := (h.owned hs.owned).owner i hmem
    rw [hframe] at hlt
    have hlt : i < s.actorCount + 1 := hlt
    omega
  have hfresh : s.streams.count s.actorCount = 0 :=
    List.count_eq_zero.mpr fun hmem => absurd (hs.owned.owner _ hmem) (Nat.lt_irrefl _)
  constructor
  case owned => exact h.owned hs.owned
  case load =>
    intro p c
    rw [h.load hs.owned]
    exact hs.load p c
  case asked => exact htasks ▸ hs.asked
  case awaiting =>
    intro t ht
    rw [htasks] at ht
    obtain ⟨hp, hc, -, -⟩ := hs.owned.tasks t ht
    have hlt : Task.awaited t < s.actorCount := by
      rw [Task.awaited]
      split <;> assumption
    rw [h.streamOf hlt]
    exact hs.awaiting t ht
  case opened =>
    intro i
    by_cases hi : i = s.actorCount
    · subst hi
      rcases h.stream with ⟨-, hstreams, hnone⟩ | ⟨hstreams, hsome⟩
      · rw [hstreams, hfresh]
        exact Nat.zero_le _
      · rw [hstreams, hsome, List.count_append, hfresh]
        simp
    · have hcount : s'.streams.count i = s.streams.count i := by
        rcases h.stream with ⟨-, hstreams, -⟩ | ⟨hstreams, -⟩
        · rw [hstreams]
        · rw [hstreams, List.count_append, List.count_singleton]
          simp [Ne.symm hi]
      by_cases hmem : i ∈ s'.streams
      · rw [hcount, h.streamOf (hold i hi hmem)]
        exact hs.opened i
      · rw [List.count_eq_zero.mpr hmem]
        exact Nat.zero_le _

theorem single_register (hs : s.Single) (topicName : String) (role : ActorRole) (type : ActorType)
    (contentType : String) : (s.register topicName role type contentType).Single := by
  rcases register_cases s topicName role type contentType with heq | ⟨s', h, heq⟩
  · rw [heq]
    exact hs
  · rw [heq]
    exact (withdraws_onTopicUpdate topicName).single (h.single hs)

theorem single_createTopic (hs : s.Single) {contentType : String}
    (h : s.createTopic topicName contentType = some s') : s'.Single := by
  have howned : (s.next (.createTopic topicName contentType)).Owned := hs.owned.next _
  simp only [next, h, Option.getD_some] at howned
  obtain ⟨⟨topics, rfl⟩, -⟩ := actorsOf_createTopic h
  exact { hs with owned := howned }

/-! ### Requests -/

theorem count_addStream (i j : ℕ) :
    (s.addStream i).streams.count j = s.streams.count j + if j = i then 1 else 0 := by
  show (s.streams ++ [i]).count j = _
  rw [List.count_append, List.count_singleton]
  simp only [beq_iff_eq]
  exact congrArg _ (if_congr eq_comm rfl rfl)

theorem single_addStream (hs : s.Single) {i : ℕ} {t : Task} (h : s.tasks[i]? = some t) :
    (({ s with tasks := s.tasks.eraseIdx i } : ServiceDiscovery).addStream
      (Task.awaited t)).Single := by
  have hmem := List.mem_of_getElem? h
  obtain ⟨hp, hc, -, -⟩ := hs.owned.tasks t hmem
  have hlt : Task.awaited t < s.actorCount := by
    rw [Task.awaited]
    split <;> assumption
  have herased : (s.tasks.eraseIdx i).map Task.awaited = (s.tasks.map Task.awaited).eraseIdx i :=
    (List.eraseIdx_map Task.awaited s.tasks i).symm
  have hothers : ∀ t' ∈ s.tasks.eraseIdx i, Task.awaited t' ≠ Task.awaited t := by
    intro t' ht' heq
    have hget : (s.tasks.map Task.awaited)[i]? = some (Task.awaited t) := by
      rw [List.getElem?_map, h, Option.map_some]
    have hcount := List.nodup_iff_count_le_one.mp hs.asked (Task.awaited t)
    have hsplit := countP_eraseIdx hget (· == Task.awaited t)
    rw [if_pos (by simp)] at hsplit
    have hone : 0 < ((s.tasks.map Task.awaited).eraseIdx i).countP (· == Task.awaited t) := by
      rw [← herased]
      exact List.countP_pos_iff.mpr ⟨_, List.mem_map_of_mem ht', by simp [heq]⟩
    have hcount : (s.tasks.map Task.awaited).countP (· == Task.awaited t) ≤ 1 := hcount
    omega
  constructor
  case owned => exact (hs.owned.eraseTask i).addStream hlt
  case load =>
    intro p c
    rw [load_addStream (hs.owned.eraseTask i)]
    have hload := load_eraseTask h p c
    have := hs.load p c
    omega
  case asked =>
    show ((s.tasks.eraseIdx i).map Task.awaited).Nodup
    rw [herased]
    exact hs.asked.sublist (List.eraseIdx_sublist _ _)
  case awaiting =>
    intro t' ht'
    have ht' : t' ∈ s.tasks.eraseIdx i := ht'
    rw [streamOf_addStream, if_neg (hothers t' ht')]
    exact hs.awaiting t' (List.mem_of_mem_eraseIdx ht')
  case opened =>
    intro j
    rw [count_addStream, streamOf_addStream]
    have hj := hs.opened j
    by_cases heq : j = Task.awaited t
    · rw [heq, hs.awaiting t hmem] at hj
      have hzero : s.streams.count (Task.awaited t) = 0 := Nat.le_zero.mp hj
      rw [heq, if_pos rfl, if_pos rfl]
      show s.streams.count (Task.awaited t) + 1 ≤ 1
      omega
    · rw [if_neg heq, if_neg heq, Nat.add_zero]
      exact hj

theorem Connected.single {pass p c : ℕ} (h : s.Connected pass p c s') (hs : s.Single)
    (howned : s'.Owned) (hload : ∀ p c, s'.load p c ≤ 1)
    (hfresh : ∀ task, s'.tasks = s.tasks ++ [task] → s.needsStream (Task.awaited task) = true →
      task.provider = p → task.consumer = c → (task.awaits = .consumer → (s.streamOf p).isSome) →
        ∀ t ∈ s.tasks, Task.awaited t ≠ Task.awaited task) : s'.Single := by
  cases h with
  | same host eq => exact eq ▸ hs
  | pipes source target host source_eq target_eq eq =>
    exact { owned := howned
            load := hload
            asked := by rw [eq]; exact hs.asked
            awaiting := by rw [eq]; exact hs.awaiting
            opened := by rw [eq]; exact hs.opened }
  | waits task host made needs ready eq =>
    have hnew := hfresh task (by rw [eq]) needs made.2.1 made.2.2 ready
    refine { owned := howned
             load := hload
             asked := ?_
             awaiting := ?_
             opened := by rw [eq]; exact hs.opened }
    · rw [eq]
      show ((s.tasks ++ [task]).map Task.awaited).Nodup
      rw [List.map_append, List.map_singleton, ← List.concat_eq_append]
      refine hs.asked.concat fun hmem => ?_
      obtain ⟨t, ht, heq⟩ := List.mem_map.mp hmem
      exact hnew t ht heq
    · intro t ht
      rw [eq] at ht ⊢
      rcases List.mem_append.mp ht with ht | ht
      · exact hs.awaiting t ht
      · rw [List.mem_singleton] at ht
        rw [ht]
        exact Option.isNone_iff_eq_none.mp (Bool.and_eq_true_iff.mp needs).2

theorem single_requestResolved (hs : s.Single) (i : ℕ) (hi : s.Spares (.requestResolved i)) :
    (s.requestResolved i).Single := by
  have howned := hs.owned.next (.requestResolved i)
  have hload := load_requestResolved hs.owned i
  cases h : s.tasks[i]? with
  | none =>
    simp only [requestResolved, h]
    exact hs
  | some t =>
    refine (requestResolved_connected hs.owned h).single (single_addStream hs h) howned
      (fun p c => hload p c ▸ hs.load p c) ?_
    intro task _ hneeds hprovider hconsumer hready t' ht'
    have ht' : t' ∈ s.tasks.eraseIdx i := ht'
    have hnone := (Bool.and_eq_true_iff.mp hneeds).2
    have hother : Task.awaited task ≠ Task.awaited t := by
      intro heq
      rw [streamOf_addStream, if_pos heq] at hnone
      cases hnone
    have hneeds : s.needsStream (Task.awaited task) = true := by
      rw [streamOf_addStream, if_neg hother] at hnone
      rw [needsStream, Bool.and_eq_true]
      refine ⟨?_, hnone⟩
      rw [← (Bool.and_eq_true_iff.mp hneeds).1]
      simp only [addStream, update, if_neg hother]
    obtain ⟨-, -, -, hsource⟩ := hs.owned.tasks t (List.mem_of_getElem? h)
    -- a provider has been awaited, and it is its consumer that is awaited now
    cases hawaits : t.awaits with
    | consumer =>
      cases htask : task.awaits with
      | consumer => exact absurd (by simp only [Task.awaited, htask, hawaits, hconsumer]) hother
      | provider =>
        have hsome := hsource hawaits
        rw [needsStream, Task.awaited, htask] at hneeds
        simp only [hprovider, Bool.and_eq_true] at hneeds
        rw [Option.isNone_iff_eq_none.mp hneeds.2] at hsome
        cases hsome
    | provider =>
      cases htask : task.awaits with
      | provider => exact absurd (by simp only [Task.awaited, htask, hawaits, hprovider]) hother
      | consumer =>
        have hconsumer_awaited : Task.awaited task = t.consumer := by
          rw [← hconsumer, Task.awaited, htask]
        rw [hconsumer_awaited] at hneeds ⊢
        exact hi t h hawaits hneeds t' (List.mem_of_mem_eraseIdx ht')

theorem single_requestFailed (hs : s.Single) (i : ℕ) : (s.requestFailed i).Single := by
  have howned := hs.owned.next (.requestFailed i)
  cases h : s.tasks[i]? with
  | none =>
    simp only [requestFailed, h]
    exact hs
  | some t =>
    simp only [next, requestFailed, h] at howned ⊢
    exact { owned := howned
            load := fun p c => by
              have hload := load_eraseTask h p c
              have hle := hs.load p c
              refine Nat.le_trans ?_ hle
              rw [hload]
              exact Nat.le_add_right _ _
            asked := by
              show ((s.tasks.eraseIdx i).map Task.awaited).Nodup
              exact hs.asked.sublist ((List.eraseIdx_sublist _ _).map _)
            awaiting := fun t ht => hs.awaiting t (List.mem_of_mem_eraseIdx ht)
            opened := hs.opened }

theorem single_groupResolved (hs : s.Single) (group : Group) : (s.groupResolved group).Single := by
  have howned := hs.owned.next (.groupResolved group)
  simp only [next, groupResolved] at howned ⊢
  split_ifs at howned ⊢
  · have halike : Alike s (({ s with groups := s.groups.filter fun g => g ≠ group } :
        ServiceDiscovery).setHandled true group.provider) := alike_setHandled _ _
    exact { owned := howned
            load := hs.load
            asked := hs.asked
            awaiting := fun t ht => (halike.streamOf _).trans (hs.awaiting t ht)
            opened := fun i => by rw [halike.streamOf]; exact hs.opened i }
  · exact hs

theorem single_passResolved (hs : s.Single) : s.passResolved.Single := by
  have howned := hs.owned.next .passResolved
  unfold next passResolved at howned
  unfold passResolved
  split
  next =>
    split_ifs
    · exact { hs with owned := { hs.owned with } }
    · exact hs
  next => exact hs

/-! ### The worker -/

theorem nodup_pairs {providers consumers : List ℕ} (hp : providers.Nodup) (hc : consumers.Nodup) :
    (pairs providers consumers).Nodup := by
  rw [pairs, List.nodup_flatMap]
  refine ⟨fun p _ => hc.map fun c c' h => (Prod.mk.inj h).2, hp.imp fun {p p'} hne => ?_⟩
  intro x hx hx'
  obtain ⟨c, -, rfl⟩ := List.mem_map.mp hx
  obtain ⟨c', -, heq⟩ := List.mem_map.mp hx'
  exact hne (Prod.mk.inj heq).1.symm

theorem single_connectAll (hs : s.Single)
    (hload : ∀ pair ∈ s.connecting topicName,
      s.sameHost pair.1 pair.2 = true ∨ s.load pair.1 pair.2 = 0)
    (hasked : ((s.tasks ++ (s.connecting topicName).filterMap (s.taskOf s.passes)).map
      Task.awaited).Nodup) : (s.connectAll topicName).Single := by
  have howned := hs.owned.connectAll topicName
  obtain ⟨s', hconnects, heq⟩ := connectAll_connects hs.owned topicName
  have hconnects : Connects s s.passes (s.connecting topicName) s' := hconnects
  obtain ⟨_, _, _, _, hframe⟩ := hconnects.frame
  have hnodup : (s.connecting topicName).Nodup := by
    refine (considered_sublist _ _).nodup (nodup_pairs ?_ ?_)
    all_goals
      rw [findRole_eq]
      exact (hs.owned.distinct topicName).filter _
  constructor
  case owned => exact howned
  case load =>
    intro p c
    rw [heq]
    refine (hconnects.load hs.owned p c).trans_le ?_
    have hle := hs.load p c
    split_ifs with hhost
    · exact hle
    · by_cases hmem : (p, c) ∈ s.connecting topicName
      · rcases hload _ hmem with h | h
        · exact absurd h hhost
        · have hone := List.nodup_iff_count_le_one.mp hnodup (p, c)
          have h : s.load p c = 0 := h
          omega
      · rw [List.count_eq_zero.mpr hmem]
        exact hle
  case asked =>
    rw [heq]
    show (s'.tasks.map Task.awaited).Nodup
    rw [hconnects.tasks]
    exact hasked
  case awaiting =>
    intro t ht
    rw [heq] at ht ⊢
    have ht : t ∈ s'.tasks := ht
    refine (hconnects.alike.streamOf _).trans ?_
    rw [hconnects.tasks, List.mem_append, List.mem_filterMap] at ht
    rcases ht with ht | ⟨pair, -, ht⟩
    · exact hs.awaiting t ht
    · simp only [taskOf] at ht
      split_ifs at ht with _ hp hc
      · cases ht
        exact Option.isNone_iff_eq_none.mp (Bool.and_eq_true_iff.mp hp).2
      · cases ht
        exact Option.isNone_iff_eq_none.mp (Bool.and_eq_true_iff.mp hc).2
  case opened =>
    intro i
    rw [heq]
    show s'.streams.count i ≤ if (s'.streamOf i).isSome then 1 else 0
    rw [hconnects.alike.streamOf]
    rw [hframe]
    exact hs.opened i

theorem single_continueUpdate (hs : s.Single) (ha : s.Spares .continueUpdate) :
    s.continueUpdate.Single := by
  rcases continueUpdate_cases s with heq | ⟨-, hpass, hnil, heq⟩ |
    ⟨t, rest, hrunning, hpass, hremaining, heq⟩
  · rw [heq]
    exact hs
  · rw [heq]
    exact (withdraws_endUpdate hpass hnil).single hs
  · have hrest : ({ s with remaining := rest } : ServiceDiscovery).Single :=
      { hs with owned := { hs.owned with } }
    rw [heq]
    rcases onTopicUpdateWorker_cases { s with remaining := rest } t with ⟨h, -⟩ |
      ⟨topic, hget, heq'⟩
    · exact h.single hrest
    · obtain ⟨hload, hasked⟩ := ha t _ (workerStart_eq hrunning hpass hremaining hget)
      rw [heq']
      exact single_connectAll ((withdraws_prepare hget).single hrest) hload hasked

theorem Single.next (hs : s.Single) {a : Action} (ha : s.Spares a) : (s.next a).Single := by
  cases a with
  | register topicName role type contentType =>
    exact single_register hs topicName role type contentType
  | unregister actor => exact (withdraws_unregister actor).single hs
  | requestClosed actor => exact (withdraws_requestClosed actor).single hs
  | createTopic topicName contentType =>
    show ((s.createTopic topicName contentType).getD s).Single
    cases h : s.createTopic topicName contentType with
    | none => exact hs
    | some s' => exact single_createTopic hs h
  | deleteTopic topicName => exact (withdraws_deleteTopic topicName).single hs
  | update => exact withdraws_onUpdate.single hs
  | streamClosed stream => exact (withdraws_streamClosed hs.owned stream).single hs
  | streamFailed stream => exact (withdraws_streamFailed hs.owned stream).single hs
  | continueUpdate => exact single_continueUpdate hs ha
  | requestResolved task => exact single_requestResolved hs task ha
  | requestFailed task => exact single_requestFailed hs task
  | groupResolved group => exact single_groupResolved hs group
  | passResolved => exact single_passResolved hs

theorem single_reachable (h : system.Reachable Spares s) : s.Single :=
  System.Reachable.invariant_ofFun single_new (fun _ _ hs ha => hs.next ha) h

end Steps

/-! ## Runs -/

/-- Every pair has one pipe at most, every actor has been given one stream at most, and what a
stream emits reaches a consumer at most once. -/
theorem single_of_spares {s : ServiceDiscovery} (h : system.Reachable Spares s) :
    (∀ p c, s.pipes p c ≤ 1) ∧ (∀ i, s.streams.count i ≤ 1) ∧ ∀ k c, s.deliveries k c ≤ 1 := by
  have hs := single_reachable h
  have hpipes : ∀ p c, s.pipes p c ≤ 1 := fun p c =>
    (Nat.le_add_right _ _).trans (hs.load p c)
  refine ⟨hpipes, fun i => (hs.opened i).trans ?_, fun k c => ?_⟩
  · split_ifs
    · exact Nat.le_refl 1
    · exact Nat.zero_le 1
  · cases hk : s.streams[k]? with
    | none =>
      have hzero : s.deliveries k c = 0 := by
        refine List.countP_eq_zero.mpr fun e he => ?_
        have hlt := (hs.owned.piped e he).1
        rw [List.getElem?_eq_none_iff] at hk
        simp only [Bool.and_eq_true, decide_eq_true_eq, not_and]
        omega
      omega
    | some p =>
      refine Nat.le_trans (List.countP_mono_left fun e _ he => ?_) (hpipes p c)
      simp only [Bool.and_eq_true, decide_eq_true_eq] at he
      simp only [leads, he.1, hk, he.2, decide_true, Bool.and_self]

/-! ### Two runs -/

def spares (s : ServiceDiscovery) : Action → Bool
  | .continueUpdate => s.workerStart.all fun start =>
    ((start.2.connecting start.1).all fun pair =>
      start.2.sameHost pair.1 pair.2 || start.2.load pair.1 pair.2 = 0) &&
    ((start.2.tasks ++ (start.2.connecting start.1).filterMap
      (start.2.taskOf start.2.passes)).map Task.awaited).Nodup
  | .requestResolved _ => false
  | _ => true

theorem spares_sound (s : ServiceDiscovery) (a : Action) (h : s.spares a = true) : s.Spares a := by
  cases a with
  | continueUpdate =>
    intro t q hstart
    simp only [spares, hstart, Option.all_some, Bool.and_eq_true, List.all_eq_true,
      Bool.or_eq_true, decide_eq_true_eq] at h
    exact h
  | requestResolved task => cases h
  | _ => trivial

theorem single_meeting : meeting.pipes 0 1 = 1 ∧ ∀ p c, meeting.pipes p c ≤ 1 := by
  refine ⟨by decide +kernel, (single_of_spares ?_).1⟩
  exact System.Reachable.of_checks spares_sound (.init rfl) (by decide +kernel)

/-- A provider and two consumers, one of which leaves: the provider counts as unhandled. -/
def parting : ServiceDiscovery :=
  (joins .consumer 2 [0] ++ [Action.streamClosed 1, .continueUpdate, .groupResolved ⟨3, 0⟩]).foldl next
    meeting

/-- A provider on a hub comes to two consumers. -/
def arrival : ServiceDiscovery :=
  (joins .consumer 0 [] ++ joins .consumer 1 [] ++
    [Action.register "t" .provider (.host "h") "text/plain", .continueUpdate, .requestResolved 0,
      .requestResolved 0]).foldl next new

/-- The provider is piped to the other consumer again, so that it gets everything twice; and a
provider on a hub is asked for two streams. -/
theorem piped_twice :
    (system.Reachable System.anyStep parting ∧ parting.isRetired 0 = false ∧
      parting.isRetired 2 = false ∧ parting.pipes 0 2 = 2 ∧ parting.deliveries 0 2 = 2) ∧
    system.Reachable System.anyStep arrival ∧ arrival.isRetired 2 = false ∧
      arrival.streams.count 2 = 2 := by
  refine ⟨⟨?_, by decide +kernel, by decide +kernel, by decide +kernel, by decide +kernel⟩, ?_,
    by decide +kernel, by decide +kernel⟩
  · rw [parting, meeting, ← List.foldl_append]
    exact System.reachable_foldl _
  · exact System.reachable_foldl _

end ServiceDiscovery

end TransformHub.Manager
