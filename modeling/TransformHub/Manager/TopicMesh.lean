import TransformHub.Manager.TopicWorker

/-!
# Completeness of the topic mesh

Once no update runs or waits, the providers of a topic should be piped to its consumers on other
hubs.
-/

namespace TransformHub.Manager

namespace ServiceDiscovery

/-- A provider and a consumer of a topic on different hubs, none of them retired. -/
structure Peers (s : ServiceDiscovery) (topicName : String) (p c : ℕ) : Prop where
  provider : p ∈ s.findRole .provider topicName
  consumer : c ∈ s.findRole .consumer topicName
  provider_live : s.isRetired p = false
  consumer_live : s.isRetired c = false
  apart : s.sameHost p c = false

/-- No update runs, and none waits. -/
def Quiescent (s : ServiceDiscovery) : Prop :=
  s.topicUpdateRunning = false ∧ s.updatedTopics = []

def Complete (s : ServiceDiscovery) : Prop :=
  ∀ topicName p c, s.Peers topicName p c → 0 < s.pipes p c

/-- The topic that the update takes next, and the state in which the worker comes to its pairs. -/
def workerStart (s : ServiceDiscovery) : Option (String × ServiceDiscovery) :=
  if s.topicUpdateRunning ∧ s.pass = none then
    match s.remaining with
    | topicName :: remaining =>
      (s.topics.get? topicName).map fun topic =>
        (topicName, { s with remaining }.prepare topicName topic)
    | [] => none
  else none

/-- The worker leaves the pair out though it has no pipe: the provider counts as handled, and the
consumer will when the worker comes to the pair, for it has been connected to the first provider. -/
structure Overlooked (s : ServiceDiscovery) (topicName : String) (p c : ℕ) : Prop where
  provider : p ∈ (s.findRole .provider topicName).tail
  consumer : c ∈ s.findRole .consumer topicName
  provider_handled : s.isHandled p = true
  consumer_unhandled : s.isHandled c = false
  apart : s.sameHost p c = false
  unpiped : s.pipes p c = 0

/-- No request to a hub fails, and no worker overlooks a pair. -/
def Attends (s : ServiceDiscovery) : Action → Prop
  | .requestFailed _ => False
  | .continueUpdate =>
    ∀ topicName q, s.workerStart = some (topicName, q) → ∀ p c, ¬ q.Overlooked topicName p c
  | _ => True

/-! ## The invariant -/

/-- Peers of a topic that neither waits nor is at work (`opened`) are connected, or about to be; so
are peers that both count as handled. -/
structure Mesh (s : ServiceDiscovery) (opened : String → Prop) : Prop where
  owned : s.Owned
  task : ∀ t ∈ s.tasks, (⟨t.pass, t.provider⟩ : Group) ∈ s.groups
  group : ∀ g ∈ s.groups, s.pass = some g.pass
  role : ∀ g ∈ s.groups, (s.actors g.provider).role = .provider
  running : s.pass ≠ none → s.topicUpdateRunning = true
  settled : ∀ topicName p c, s.Peers topicName p c → ¬ s.Pending topicName → ¬ opened topicName →
    0 < s.load p c
  handled : ∀ topicName p c, s.Peers topicName p c →
    (s.isHandled p = true ∨ ∃ pass, (⟨pass, p⟩ : Group) ∈ s.groups) → s.isHandled c = true →
      0 < s.load p c

theorem mesh_new : new.Mesh fun _ => False where
  owned := owned_new
  task := nofun
  group := nofun
  role := nofun
  running := fun h => absurd rfl h
  settled := fun _ _ _ h => by cases h.provider
  handled := fun _ _ _ h => by cases h.provider

section Steps

variable {s s' : ServiceDiscovery} {opened : String → Prop} {topicName : String} {p c : ℕ}
  {role : ActorRole} {type : ActorType}

theorem Mesh.close (hm : s.Mesh opened) (h : ∀ t p c, opened t → s.Peers t p c → ¬ s.Pending t →
    0 < s.load p c) : s.Mesh fun _ => False :=
  { hm with
    settled := fun t p c hp hpending _ => by
      by_cases ht : opened t
      · exact h t p c ht hp hpending
      · exact hm.settled t p c hp hpending ht }

theorem Withdraws.hasRole (h : Withdraws s s') (role : ActorRole) :
    s'.hasRole role = s.hasRole role := by
  funext i
  rw [ServiceDiscovery.hasRole, h.role, ServiceDiscovery.hasRole]

theorem Withdraws.findRole (h : Withdraws s s') (role : ActorRole) :
    (s'.findRole role topicName).Sublist (s.findRole role topicName) := by
  rw [findRole_eq, findRole_eq, h.hasRole]
  exact (h.listed topicName).filter _

theorem Withdraws.peers (h : Withdraws s s') (hp : s'.Peers topicName p c) :
    s.Peers topicName p c where
  provider := (h.findRole .provider).subset hp.provider
  consumer := (h.findRole .consumer).subset hp.consumer
  provider_live := h.isRetired_eq_false hp.provider_live
  consumer_live := h.isRetired_eq_false hp.consumer_live
  apart := (h.sameHost p c).symm.trans hp.apart

theorem Withdraws.mesh (h : Withdraws s s') (hm : s.Mesh opened) : s'.Mesh opened where
  owned := h.owned hm.owned
  task := by
    rw [h.tasks, h.groups]
    exact hm.task
  group := by
    rw [h.groups, h.pass]
    exact hm.group
  role := by
    intro g hg
    rw [h.role]
    exact hm.role g (h.groups ▸ hg)
  running := by
    rw [h.pass]
    exact fun hpass => h.running hpass (hm.running hpass)
  settled := by
    intro t p c hp hpending
    rw [h.load_eq hp.provider_live hp.consumer_live]
    exact hm.settled t p c (h.peers hp) fun hs => hpending (h.pending t hs)
  handled := by
    intro t p c hp hphandled hchandled
    rw [h.load_eq hp.provider_live hp.consumer_live]
    rw [h.groups] at hphandled
    exact hm.handled t p c (h.peers hp) (hphandled.imp_left (h.handled p)) (h.handled c hchandled)

theorem Peers.listed (h : s.Peers topicName p c) (ho : s.Owned) :
    (p < s.actorCount ∧ (s.actors p).topic = topicName) ∧
      c < s.actorCount ∧ (s.actors c).topic = topicName := by
  obtain ⟨hp, hc, -, -, -⟩ := h
  rw [findRole_eq] at hp hc
  exact ⟨ho.listed _ p (List.mem_of_mem_filter hp), ho.listed _ c (List.mem_of_mem_filter hc)⟩

theorem Peers.of_eq (hlisted : s'.actorsOf topicName = s.actorsOf topicName)
    (hactors : ∀ i ∈ s.actorsOf topicName, (s'.actors i).role = (s.actors i).role ∧
      (s'.actors i).type = (s.actors i).type ∧ s'.isRetired i = s.isRetired i)
    (h : s'.Peers topicName p c) : s.Peers topicName p c := by
  obtain ⟨hp, hc, hplive, hclive, hapart⟩ := h
  rw [findRole_eq, List.mem_filter, hlisted] at hp hc
  obtain ⟨hprole, hptype, hpretired⟩ := hactors p hp.1
  obtain ⟨hcrole, hctype, hcretired⟩ := hactors c hc.1
  simp only [hasRole, hprole, hcrole] at hp hc
  refine ⟨?_, ?_, hpretired ▸ hplive, hcretired ▸ hclive, ?_⟩
  · rw [findRole_eq, List.mem_filter]
    exact hp
  · rw [findRole_eq, List.mem_filter]
    exact hc
  · rw [← hapart]
    simp only [sameHost, TopicActor.sameHost, hptype, hctype]

/-! ### Registration -/

theorem Registers.pending (h : Registers s topicName role type s') (t : String) :
    s'.Pending t ↔ s.Pending t := by
  obtain ⟨_, _, _, hframe⟩ := h.frame
  rw [hframe]
  rfl

theorem Registers.peers (h : Registers s topicName role type s') (ho : s.Owned) {t : String}
    (hp : s'.Peers t p c) :
    s.Peers t p c ∨ t = topicName ∧ (p = s.actorCount ∨ c = s.actorCount) := by
  have hmem : ∀ i ∈ s'.actorsOf t, i ∈ s.actorsOf t ∨ t = topicName ∧ i = s.actorCount := by
    intro i hi
    rcases h.listed t with heq | ⟨ht, heq⟩
    · exact .inl (heq ▸ hi)
    · rw [heq, List.mem_append, List.mem_singleton] at hi
      exact hi.imp_right fun hi => ⟨ht, hi⟩
  obtain ⟨hpr, hco, hplive, hclive, hapart⟩ := hp
  rw [findRole_eq, List.mem_filter] at hpr hco
  rcases hmem p hpr.1 with hpmem | ⟨ht, hpn⟩
  · rcases hmem c hco.1 with hcmem | ⟨ht, hcn⟩
    · have hpold := h.old p (ho.listed t p hpmem).1
      have hcold := h.old c (ho.listed t c hcmem).1
      simp only [hasRole, isRetired, sameHost, hpold, hcold] at hpr hco hplive hclive hapart
      refine .inl ⟨?_, ?_, hplive, hclive, hapart⟩
      · rw [findRole_eq, List.mem_filter]
        exact ⟨hpmem, hpr.2⟩
      · rw [findRole_eq, List.mem_filter]
        exact ⟨hcmem, hco.2⟩
    · exact .inr ⟨ht, .inr hcn⟩
  · exact .inr ⟨ht, .inl hpn⟩

theorem Registers.mesh (h : Registers s topicName role type s') (hm : s.Mesh fun _ => False) :
    s'.Mesh (· = topicName) := by
  obtain ⟨_, _, _, hframe⟩ := h.frame
  have htasks : s'.tasks = s.tasks := by rw [hframe]
  have hgroups : s'.groups = s.groups := by rw [hframe]
  have hpass : s'.pass = s.pass := by rw [hframe]
  have hrunning : s'.topicUpdateRunning = s.topicUpdateRunning := by rw [hframe]
  constructor
  case owned => exact h.owned hm.owned
  case task =>
    rw [htasks, hgroups]
    exact hm.task
  case group =>
    rw [hgroups, hpass]
    exact hm.group
  case role =>
    intro g hg
    rw [hgroups] at hg
    rw [h.old _ (hm.owned.groups g hg)]
    exact hm.role g hg
  case running =>
    rw [hpass, hrunning]
    exact hm.running
  case settled =>
    intro t p c hp hpending ht
    rw [h.load hm.owned]
    rcases h.peers hm.owned hp with hp | ⟨ht', -⟩
    · exact hm.settled t p c hp (fun hs => hpending ((h.pending t).mpr hs)) id
    · exact absurd ht' ht
  case handled =>
    intro t p c hp hphandled hchandled
    rw [h.load hm.owned]
    rcases h.peers hm.owned hp with hp | ⟨-, rfl | rfl⟩
    · obtain ⟨⟨hplt, -⟩, hclt, -⟩ := hp.listed hm.owned
      rw [isHandled, h.old p hplt, hgroups] at hphandled
      rw [isHandled, h.old c hclt] at hchandled
      exact hm.handled t p c hp hphandled hchandled
    -- a new provider neither counts as handled nor has a group
    · rcases hphandled with hphandled | ⟨pass, hgroup⟩
      · rw [h.unhandled] at hphandled
        cases hphandled
      · rw [hgroups] at hgroup
        exact absurd (hm.owned.groups _ hgroup) (Nat.lt_irrefl _)
    · rw [h.unhandled] at hchandled
      cases hchandled

theorem mesh_register (hm : s.Mesh fun _ => False) (topicName : String) (role : ActorRole)
    (type : ActorType) (contentType : String) :
    (s.register topicName role type contentType).Mesh fun _ => False := by
  rcases register_cases s topicName role type contentType with heq | ⟨s', h, heq⟩
  · rw [heq]
    exact hm
  · rw [heq]
    have hopen := (withdraws_onTopicUpdate topicName).mesh (h.mesh hm)
    refine hopen.close fun t p c ht _ hpending => ?_
    subst ht
    exact absurd (pending_onTopicUpdate t) hpending

theorem mesh_createTopic (hm : s.Mesh fun _ => False) {contentType : String}
    (h : s.createTopic topicName contentType = some s') : s'.Mesh fun _ => False := by
  have howned : (s.next (.createTopic topicName contentType)).Owned := hm.owned.next _
  simp only [next, h, Option.getD_some] at howned
  obtain ⟨⟨topics, rfl⟩, hlisted⟩ := actorsOf_createTopic h
  have hpeers : ∀ t p c, ({ s with topics } : ServiceDiscovery).Peers t p c → s.Peers t p c :=
    fun t _ _ hp => hp.of_eq (hlisted t) fun _ _ => ⟨rfl, rfl, rfl⟩
  exact { owned := howned
          task := hm.task
          group := hm.group
          role := hm.role
          running := hm.running
          settled := fun t p c hp => hm.settled t p c (hpeers t p c hp)
          handled := fun t p c hp => hm.handled t p c (hpeers t p c hp) }

/-! ### Tasks and groups -/

theorem requestResolved_frame (s : ServiceDiscovery) (i : ℕ) :
    (∃ actors streams tasks links piped,
      s.requestResolved i = { s with actors, streams, tasks, links, piped }) ∧
    (∀ j, ∃ stream, (s.requestResolved i).actors j = { s.actors j with stream }) ∧
    ∀ t ∈ (s.requestResolved i).tasks,
      ∃ t' ∈ s.tasks, t'.pass = t.pass ∧ t'.provider = t.provider := by
  have hstream : ∀ (q : ServiceDiscovery) (k j : ℕ),
      ∃ stream, (q.addStream k).actors j = { q.actors j with stream } := by
    intro q k j
    simp only [addStream, update]
    split_ifs with hj
    · exact ⟨_, by rw [hj]⟩
    · exact ⟨(q.actors j).stream, rfl⟩
  cases h : s.tasks[i]? with
  | none =>
    simp only [requestResolved, h]
    exact ⟨⟨_, _, _, _, _, rfl⟩, fun j => ⟨(s.actors j).stream, rfl⟩,
      fun t ht => ⟨t, ht, rfl, rfl⟩⟩
  | some task =>
    have hmem : task ∈ s.tasks := List.mem_of_getElem? h
    have herase : ∀ t ∈ s.tasks.eraseIdx i,
        ∃ t' ∈ s.tasks, t'.pass = t.pass ∧ t'.provider = t.provider :=
      fun t ht => ⟨t, List.mem_of_mem_eraseIdx ht, rfl, rfl⟩
    simp only [requestResolved, h]
    cases task.awaits with
    | provider =>
      simp only [connectConsumer, pipe]
      split_ifs
      · refine ⟨⟨_, _, _, _, _, rfl⟩, hstream _ _, fun t ht => ?_⟩
        rcases List.mem_append.mp ht with ht | ht
        · exact herase t ht
        · rw [List.mem_singleton] at ht
          exact ⟨task, hmem, by rw [ht], by rw [ht]⟩
      · split
        all_goals exact ⟨⟨_, _, _, _, _, rfl⟩, hstream _ _, herase⟩
    | consumer =>
      simp only [pipe]
      split
      all_goals exact ⟨⟨_, _, _, _, _, rfl⟩, hstream _ _, herase⟩

theorem mesh_requestResolved (hm : s.Mesh fun _ => False) (i : ℕ) :
    (s.requestResolved i).Mesh fun _ => False := by
  obtain ⟨⟨_, _, _, _, _, hframe⟩, hactors, htasks⟩ := requestResolved_frame s i
  have hload := load_requestResolved hm.owned i
  have hpeers : ∀ t p c, (s.requestResolved i).Peers t p c → s.Peers t p c := by
    intro t p c hp
    refine hp.of_eq ?_ fun j _ => ?_
    · rw [hframe]
      rfl
    · obtain ⟨stream, h⟩ := hactors j
      simp only [isRetired, h, and_self]
  have hhandled : ∀ j, (s.requestResolved i).isHandled j = s.isHandled j := by
    intro j
    obtain ⟨stream, h⟩ := hactors j
    rw [isHandled, h, isHandled]
  have hgroups : (s.requestResolved i).groups = s.groups := by rw [hframe]
  have hpass : (s.requestResolved i).pass = s.pass := by rw [hframe]
  have hpending : ∀ t, (s.requestResolved i).Pending t ↔ s.Pending t := by
    intro t
    rw [hframe]
    rfl
  constructor
  case owned => exact hm.owned.next (.requestResolved i)
  case task =>
    intro t ht
    obtain ⟨t', ht', hpass', hprovider⟩ := htasks t ht
    rw [hgroups, ← hpass', ← hprovider]
    exact hm.task t' ht'
  case group =>
    rw [hgroups, hpass]
    exact hm.group
  case role =>
    intro g hg
    rw [hgroups] at hg
    obtain ⟨stream, h⟩ := hactors g.provider
    rw [h]
    exact hm.role g hg
  case running =>
    intro h
    rw [hpass] at h
    rw [hframe]
    exact hm.running h
  case settled =>
    intro t p c hp ht
    rw [hload]
    rw [hpending] at ht
    exact hm.settled t p c (hpeers t p c hp) ht
  case handled =>
    intro t p c hp
    rw [hload, hhandled, hhandled, hgroups]
    exact hm.handled t p c (hpeers t p c hp)

theorem mesh_groupResolved (hm : s.Mesh fun _ => False) (group : Group) :
    (s.groupResolved group).Mesh fun _ => False := by
  have howned : (s.groupResolved group).Owned := hm.owned.next (.groupResolved group)
  unfold groupResolved at howned ⊢
  split_ifs at howned ⊢ with h
  · obtain ⟨hmem, hdone⟩ := h
    have halike : Alike s (({ s with groups := s.groups.filter fun g => g ≠ group } :
        ServiceDiscovery).setHandled true group.provider) := alike_setHandled _ _
    have hpeers : ∀ t p c, (({ s with groups := s.groups.filter fun g => g ≠ group } :
        ServiceDiscovery).setHandled true group.provider).Peers t p c → s.Peers t p c := by
      intro t p c hp
      refine hp.of_eq ?_ fun j _ => ?_
      · rfl
      · exact ⟨halike.role j, halike.type j, halike.isRetired j⟩
    constructor
    case owned => exact howned
    case task =>
      intro t ht
      refine List.mem_filter.mpr ⟨hm.task t ht, ?_⟩
      rw [decide_eq_true_eq]
      rintro rfl
      exact hdone t ht ⟨rfl, rfl⟩
    case group => exact fun g hg => hm.group g (List.mem_of_mem_filter hg)
    case role =>
      intro g hg
      rw [halike.role]
      exact hm.role g (List.mem_of_mem_filter hg)
    case running => exact hm.running
    case settled => exact fun t p c hp => hm.settled t p c (hpeers t p c hp)
    case handled =>
      intro t p c hp hphandled hchandled
      have hp := hpeers t p c hp
      rw [isHandled_setHandled] at hphandled hchandled
      refine hm.handled t p c hp ?_ ?_
      · rcases hphandled with hphandled | ⟨pass, hg⟩
        · split_ifs at hphandled with heq
          · exact .inr ⟨group.pass, heq ▸ hmem⟩
          · exact .inl hphandled
        · exact .inr ⟨pass, List.mem_of_mem_filter hg⟩
      · split_ifs at hchandled with heq
        · have hrole := hp.consumer
          rw [findRole_eq, List.mem_filter, hasRole, decide_eq_true_eq, heq,
            hm.role group hmem] at hrole
          cases hrole.2
        · exact hchandled
  · exact hm

theorem mesh_passResolved (hm : s.Mesh fun _ => False) : s.passResolved.Mesh fun _ => False := by
  unfold passResolved
  split
  next pass hpass =>
    split_ifs with h
    · exact { owned := { hm.owned with }
              task := hm.task
              group := fun g hg => by
                have heq := hm.group g hg
                rw [hpass, Option.some.injEq] at heq
                exact absurd heq.symm (h g hg)
              role := hm.role
              running := fun hne => absurd rfl hne
              settled := fun t p c hp => hm.settled t p c ⟨hp.1, hp.2, hp.3, hp.4, hp.5⟩
              handled := fun t p c hp => hm.handled t p c ⟨hp.1, hp.2, hp.3, hp.4, hp.5⟩ }
    · exact hm
  next => exact hm

/-! ### The worker -/

theorem prepare_running (s : ServiceDiscovery) (topicName : String) (topic : Topic) :
    (s.prepare topicName topic).topicUpdateRunning = s.topicUpdateRunning := by
  have hfold : ∀ f : ServiceDiscovery → ℕ → ServiceDiscovery,
      (∀ s i, (f s i).topicUpdateRunning = s.topicUpdateRunning) → ∀ (is : List ℕ) s,
        (is.foldl f s).topicUpdateRunning = s.topicUpdateRunning := by
    intro f hf is
    induction is with
    | nil => exact fun _ => rfl
    | cons i is ih =>
      intro s
      rw [List.foldl_cons, ih, hf]
  have hdiscard := hfold discard fun _ _ => rfl
  have hunhandle := hfold (setHandled · false ·) fun _ _ => rfl
  simp only [prepare]
  split_ifs
  · rw [hunhandle, hdiscard]
  · rw [hunhandle]
  · rw [hdiscard]
  · rfl

theorem load_connectAll (hm : s.Mesh (· = topicName))
    (hlook : ∀ p c, ¬ s.Overlooked topicName p c) (hp : s.Peers topicName p c) :
    0 < (s.connectAll topicName).load p c := by
  obtain ⟨s', hconnects, heq⟩ := connectAll_connects hm.owned topicName
  have hload : (s.connectAll topicName).load p c = s.load p c + (considered s.isHandled
      (pairs (s.findRole .provider topicName) (s.findRole .consumer topicName))).count (p, c) := by
    rw [heq]
    refine (hconnects.load hm.owned p c).trans ?_
    rw [if_neg (by simp [hp.apart])]
  have hpair : (p, c) ∈ pairs (s.findRole .provider topicName) (s.findRole .consumer topicName) :=
    List.mem_flatMap.mpr ⟨p, hp.provider, List.mem_map.mpr ⟨c, hp.consumer, rfl⟩⟩
  rw [hload]
  by_cases hmem : (p, c) ∈ considered s.isHandled
      (pairs (s.findRole .provider topicName) (s.findRole .consumer topicName))
  · have := List.count_pos_iff.mpr hmem
    omega
  -- a pair that is left out: its provider counts as handled
  · have hphandled : s.isHandled p = true := by
      by_contra hunhandled
      refine hmem (mem_considered hpair (by simpa using hunhandled) fun pair hmem' hpc => ?_)
      simp only [pairs, List.mem_flatMap, List.mem_map] at hmem'
      obtain ⟨p', -, c', hc', rfl⟩ := hmem'
      have hrole := hp.provider
      rw [findRole_eq, List.mem_filter, hasRole, decide_eq_true_eq] at hrole hc'
      have hpc : c' = p := hpc
      rw [hpc, hrole.2] at hc'
      cases hc'.2
    cases hchandled : s.isHandled c with
    | true =>
      have := hm.handled topicName p c hp (.inl hphandled) hchandled
      omega
    | false =>
      have htail : p ∈ (s.findRole .provider topicName).tail := by
        have hprovider := hp.provider
        cases hproviders : s.findRole .provider topicName with
        | nil =>
          rw [hproviders] at hprovider
          cases hprovider
        | cons first rest =>
          rw [hproviders] at hprovider hmem
          rcases List.mem_cons.mp hprovider with rfl | hrest
          · exact absurd (mem_considered_first _ hp.consumer hchandled) hmem
          · exact hrest
      have hpiped : s.pipes p c ≠ 0 := fun hnone =>
        hlook p c ⟨htail, hp.consumer, hphandled, hchandled, hp.apart, hnone⟩
      rw [load]
      omega

theorem mesh_connectAll (hm : s.Mesh (· = topicName)) (hpass : s.pass = none)
    (hrunning : s.topicUpdateRunning = true) (hlook : ∀ p c, ¬ s.Overlooked topicName p c) :
    (s.connectAll topicName).Mesh fun _ => False := by
  have hload := fun p c => load_connectAll (p := p) (c := c) hm hlook
  have howned := hm.owned.connectAll topicName
  obtain ⟨s', hconnects, heq⟩ := connectAll_connects hm.owned topicName
  obtain ⟨_, _, _, _, hframe⟩ := hconnects.frame
  have hnone : s.groups = [] := by
    refine List.eq_nil_iff_forall_not_mem.mpr fun g hg => ?_
    have hsome := hm.group g hg
    rw [hpass] at hsome
    cases hsome
  have hmem : ∀ pair ∈ considered s.isHandled
      (pairs (s.findRole .provider topicName) (s.findRole .consumer topicName)),
      pair.1 ∈ s.findRole .provider topicName ∧ pair.2 ∈ s.findRole .consumer topicName := by
    intro pair hpair
    have h := (considered_sublist _ _).subset hpair
    simp only [pairs, List.mem_flatMap, List.mem_map] at h
    obtain ⟨p, hp, c, hc, rfl⟩ := h
    exact ⟨hp, hc⟩
  have hpeers : ∀ t p c, (s.connectAll topicName).Peers t p c → s.Peers t p c := by
    intro t p c hp
    rw [heq] at hp
    refine hp.of_eq ?_ fun j _ => ?_
    · show s'.actorsOf t = s.actorsOf t
      rw [hframe]
      rfl
    · exact ⟨hconnects.alike.role j, hconnects.alike.type j, hconnects.alike.isRetired j⟩
  have hmore : ∀ p c, s.load p c ≤ (s.connectAll topicName).load p c := by
    intro p c
    rw [heq]
    exact (Nat.le_add_right _ _).trans_eq (hconnects.load hm.owned p c).symm
  have hgroups : (s.connectAll topicName).groups =
      (s.findRole .provider topicName).map fun p => ⟨s.passes, p⟩ := by
    rw [heq]
    show s.groups ++ _ = _
    rw [hnone, List.nil_append]
  constructor
  case owned => exact howned
  case task =>
    intro t ht
    rw [heq] at ht
    have ht : t ∈ s'.tasks := ht
    rw [hconnects.tasks, List.mem_append, List.mem_filterMap] at ht
    rcases ht with ht | ⟨pair, hpair, ht⟩
    · have hgroup := hm.task t ht
      rw [hnone] at hgroup
      cases hgroup
    · have hprovider : t.pass = s.passes ∧ t.provider = pair.1 := by
        simp only [taskOf] at ht
        split_ifs at ht
        all_goals
          cases ht
          exact ⟨rfl, rfl⟩
      rw [hgroups, hprovider.1, hprovider.2]
      exact List.mem_map.mpr ⟨pair.1, (hmem pair hpair).1, rfl⟩
  case group =>
    intro g hg
    rw [hgroups] at hg
    obtain ⟨p, -, rfl⟩ := List.mem_map.mp hg
    rw [heq]
  case role =>
    intro g hg
    rw [hgroups] at hg
    obtain ⟨p, hp, rfl⟩ := List.mem_map.mp hg
    rw [findRole_eq, List.mem_filter, hasRole, decide_eq_true_eq] at hp
    rw [heq]
    exact (hconnects.alike.role p).trans hp.2
  case running =>
    intro _
    rw [heq]
    show s'.topicUpdateRunning = true
    rw [hframe]
    exact hrunning
  case settled =>
    intro t p c hp hpending _
    by_cases ht : t = topicName
    · subst ht
      exact hload p c (hpeers t p c hp)
    · refine Nat.lt_of_lt_of_le (hm.settled t p c (hpeers t p c hp) ?_ ht) (hmore p c)
      intro hs
      apply hpending
      rw [heq]
      show s'.Pending t
      rw [hframe]
      exact hs
  case handled =>
    intro t p c hp hphandled hchandled
    by_cases ht : t = topicName
    · subst ht
      exact hload p c (hpeers t p c hp)
    -- the marks of the actors of another topic are as before
    · have hp := hpeers t p c hp
      obtain ⟨⟨-, hpt⟩, -, hct⟩ := hp.listed hm.owned
      have hkeeps : ∀ i, (s.actors i).topic ≠ topicName →
          (s.connectAll topicName).isHandled i = true → s.isHandled i = true := by
        intro i hi hhandled
        rw [heq] at hhandled
        rcases (hconnects.handled i).mp hhandled with hhandled | ⟨pair, hpair, rfl⟩
        · exact hhandled
        · have hconsumer := (hmem pair hpair).2
          rw [findRole_eq] at hconsumer
          exact absurd (hm.owned.listed _ _ (List.mem_of_mem_filter hconsumer)).2 hi
      refine Nat.lt_of_lt_of_le ?_ (hmore p c)
      refine hm.handled t p c hp (.inl ?_) (hkeeps c (hct ▸ ht) hchandled)
      rcases hphandled with hphandled | ⟨pass, hg⟩
      · exact hkeeps p (hpt ▸ ht) hphandled
      · rw [hgroups] at hg
        obtain ⟨p', hp', heq'⟩ := List.mem_map.mp hg
        cases heq'
        rw [findRole_eq] at hp'
        have hpt' := (hm.owned.listed _ _ (List.mem_of_mem_filter hp')).2
        exact absurd (hpt.symm.trans hpt') ht

theorem workerStart_eq {t : String} {rest : List String} {topic : Topic}
    (hrunning : s.topicUpdateRunning = true) (hpass : s.pass = none)
    (hremaining : s.remaining = t :: rest) (hget : s.topics.get? t = some topic) :
    s.workerStart =
      some (t, ({ s with remaining := rest } : ServiceDiscovery).prepare t topic) := by
  simp only [workerStart, hrunning, hpass, and_self, if_true, hremaining, hget, Option.map_some]

theorem mesh_continueUpdate (hm : s.Mesh fun _ => False)
    (hlook : ∀ t q, s.workerStart = some (t, q) → ∀ p c, ¬ q.Overlooked t p c) :
    s.continueUpdate.Mesh fun _ => False := by
  rcases continueUpdate_cases s with heq | ⟨-, hpass, hnil, heq⟩ |
    ⟨t, rest, hrunning, hpass, hremaining, heq⟩
  · rw [heq]
    exact hm
  · rw [heq]
    exact (withdraws_endUpdate hpass hnil).mesh hm
  · have hopen : ({ s with remaining := rest } : ServiceDiscovery).Mesh (· = t) :=
      { owned := { hm.owned with }
        task := hm.task
        group := hm.group
        role := hm.role
        running := hm.running
        settled := fun t' p c hp hpending ht' => by
          refine hm.settled t' p c ⟨hp.1, hp.2, hp.3, hp.4, hp.5⟩ (fun hs => ?_) id
          apply hpending
          rcases hs with hs | ⟨hr, hs⟩
          · exact .inl hs
          · rw [hremaining, List.mem_cons] at hs
            exact .inr ⟨hr, hs.resolve_left ht'⟩
        handled := fun t' p c hp => hm.handled t' p c ⟨hp.1, hp.2, hp.3, hp.4, hp.5⟩ }
    rw [heq]
    rcases onTopicUpdateWorker_cases { s with remaining := rest } t with ⟨h, hgone⟩ |
      ⟨topic, hget, heq'⟩
    · refine (h.mesh hopen).close fun t' p c ht' hp _ => ?_
      have hprovider := hp.provider
      rw [findRole_eq, ht', hgone] at hprovider
      cases hprovider
    · have hprepare := withdraws_prepare hget
      have hstart := workerStart_eq hrunning hpass hremaining hget
      rw [heq']
      refine mesh_connectAll (hprepare.mesh hopen) (hprepare.pass.trans hpass) ?_
        (hlook t _ hstart)
      rw [prepare_running]
      exact hrunning

end Steps

/-! ## Runs -/

theorem Mesh.next {s : ServiceDiscovery} (hm : s.Mesh fun _ => False) {a : Action}
    (ha : s.Attends a) : (s.next a).Mesh fun _ => False := by
  cases a with
  | register topicName role type contentType => exact mesh_register hm topicName role type contentType
  | unregister actor => exact (withdraws_unregister actor).mesh hm
  | requestClosed actor => exact (withdraws_requestClosed actor).mesh hm
  | createTopic topicName contentType =>
    show ((s.createTopic topicName contentType).getD s).Mesh _
    cases h : s.createTopic topicName contentType with
    | none => exact hm
    | some s' => exact mesh_createTopic hm h
  | deleteTopic topicName => exact (withdraws_deleteTopic topicName).mesh hm
  | update => exact withdraws_onUpdate.mesh hm
  | streamClosed stream => exact (withdraws_streamClosed hm.owned stream).mesh hm
  | streamFailed stream => exact (withdraws_streamFailed hm.owned stream).mesh hm
  | continueUpdate => exact mesh_continueUpdate hm ha
  | requestResolved task => exact mesh_requestResolved hm task
  | requestFailed task => exact absurd ha id
  | groupResolved group => exact mesh_groupResolved hm group
  | passResolved => exact mesh_passResolved hm

theorem mesh_reachable {s : ServiceDiscovery} (h : system.Reachable Attends s) :
    s.Mesh fun _ => False :=
  System.Reachable.invariant_ofFun (I := fun s => s.Mesh fun _ => False) mesh_new
    (fun _ _ hm ha => hm.next ha) h

/-- Without failed requests and overlooked pairs, every provider is piped to every consumer of its
topic on another hub once nothing waits. -/
theorem complete_of_attends {s : ServiceDiscovery} (h : system.Reachable Attends s)
    (hq : s.Quiescent) : s.Complete := by
  have hm := mesh_reachable h
  obtain ⟨hrunning, hnone⟩ := hq
  intro t p c hp
  have hpending : ¬ s.Pending t := by
    rintro (ht | ⟨ht, -⟩)
    · rw [hnone] at ht
      cases ht
    · rw [hrunning] at ht
      cases ht
  have hpass : s.pass = none := by
    by_contra hne
    rw [hm.running hne] at hrunning
    cases hrunning
  have htasks : s.tasks = [] := by
    refine List.eq_nil_iff_forall_not_mem.mpr fun task htask => ?_
    have hgroup := hm.group _ (hm.task task htask)
    rw [hpass] at hgroup
    cases hgroup
  have hload := hm.settled t p c hp hpending id
  rw [load, inFlight, htasks] at hload
  exact hload

/-! ### Two runs -/

def Answered : ServiceDiscovery → Action → Prop
  | _, .requestFailed _ => False
  | _, _ => True

def answered : ServiceDiscovery → Action → Bool
  | _, .requestFailed _ => false
  | _, _ => true

theorem answered_sound (s : ServiceDiscovery) (a : Action) (h : s.answered a = true) :
    s.Answered a := by
  cases a with
  | requestFailed task => cases h
  | _ => trivial

/-- A worker with one provider at most overlooks nobody. -/
def attends (s : ServiceDiscovery) : Action → Bool
  | .requestFailed _ => false
  | .continueUpdate => s.workerStart.all fun start => (start.2.findRole .provider start.1).tail = []
  | _ => true

theorem attends_sound (s : ServiceDiscovery) (a : Action) (h : s.attends a = true) :
    s.Attends a := by
  cases a with
  | continueUpdate =>
    intro t q hstart p c hlook
    have h : s.workerStart.all (fun start => (start.2.findRole .provider start.1).tail = [])
      = true := h
    rw [hstart, Option.all_some, decide_eq_true_eq] at h
    have hprovider := hlook.provider
    rw [h] at hprovider
    cases hprovider
  | requestFailed task => cases h
  | _ => trivial

/-- An actor of an API request is registered, and the update runs to its end. -/
def joins (role : ActorRole) (pass : ℕ) (providers : List ℕ) : List Action :=
  [.register "t" role .api "text/plain", .continueUpdate] ++
    providers.map (fun p => .groupResolved ⟨pass, p⟩) ++ [.passResolved, .continueUpdate]

/-- A provider and then a consumer. -/
def meeting : ServiceDiscovery :=
  (joins .provider 0 [0] ++ joins .consumer 1 [0]).foldl next new

theorem complete_meeting : meeting.Complete ∧ meeting.pipes 0 1 = 1 := by
  refine ⟨complete_of_attends ?_ ?_, by decide +kernel⟩
  · exact System.Reachable.of_checks attends_sound (.init rfl) (by decide +kernel)
  · exact ⟨by decide +kernel, by decide +kernel⟩

/-- A provider and a consumer, and then another provider and another consumer. -/
def secondMeeting : ServiceDiscovery :=
  (joins .provider 2 [0, 2] ++ joins .consumer 3 [0, 2]).foldl next meeting

/-- The second provider is never piped to the second consumer. -/
theorem second_provider_overlooked :
    system.Reachable Answered secondMeeting ∧ secondMeeting.Quiescent ∧
      secondMeeting.Peers "t" 2 3 ∧ secondMeeting.pipes 2 3 = 0 ∧ ¬ secondMeeting.Complete := by
  have hpeers : secondMeeting.Peers "t" 2 3 :=
    ⟨by decide +kernel, by decide +kernel, by decide +kernel, by decide +kernel, by decide +kernel⟩
  have hnone : secondMeeting.pipes 2 3 = 0 := by decide +kernel
  refine ⟨?_, ⟨by decide +kernel, by decide +kernel⟩, hpeers, hnone, fun h => ?_⟩
  · rw [secondMeeting, meeting, ← List.foldl_append]
    exact System.Reachable.of_checks answered_sound (.init rfl) (by decide +kernel)
  · have hpiped := h "t" 2 3 hpeers
    rw [hnone] at hpiped
    cases hpiped

end ServiceDiscovery

end TransformHub.Manager
