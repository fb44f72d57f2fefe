import TransformHub.Manager.TopicMesh

/-!
# Topic notifications of the hubs

The handler of the `topic` message in `manager.ts`: an `add` registers a host actor, and a `remove`,
which carries no role, unregisters the first actor of the host that is listed under the topic.
-/

namespace TransformHub.Manager

namespace ServiceDiscovery

inductive TopicStatus where
  | add
  | remove

structure TopicData where
  status : TopicStatus
  topicName : String
  contentType : String
  localProvider : Option String
  provides : Option String

/-- `topicData.localProvider || topicData.provides` decides on the role. -/
def TopicData.role (d : TopicData) : ActorRole :=
  if d.localProvider.getD "" ≠ "" ∨ d.provides.getD "" ≠ "" then .provider else .consumer

/-- `topic.actors.find(...)`: the first actor of the host. -/
def hostActor (s : ServiceDiscovery) (host topicName : String) : Option ℕ :=
  (s.actorsOf topicName).find? fun i => (s.actors i).type = .host host

def onTopic (s : ServiceDiscovery) (host : String) (d : TopicData) : ServiceDiscovery :=
  match d.status with
  | .add => s.register d.topicName d.role (.host host) d.contentType
  | .remove =>
    match s.hostActor host d.topicName with
    | some i => s.unregister i
    | none => s

/-! ## Runs -/

/-- Steps of the update, and of API actors. -/
def isWork (s : ServiceDiscovery) : Action → Bool
  | .register _ _ type _ => type = .api
  | .requestClosed i => (s.actors i).type = .api
  | .createTopic _ _ | .update | .continueUpdate | .requestResolved _ | .requestFailed _
  | .groupResolved _ | .passResolved => true
  | .unregister _ | .deleteTopic _ | .streamClosed _ | .streamFailed _ => false

/-- A service discovery, with the roles that each host has added to a topic since it removed it. -/
structure Notified where
  sd : ServiceDiscovery
  added : String → String → List ActorRole

inductive Notification where
  | topic (host : String) (data : TopicData)
  | work (action : Action)

namespace Notified

def start : Notified := ⟨new, fun _ _ => []⟩

/-- What the host has added to the topic after the message. -/
def note (added : String → String → List ActorRole) (host : String) (d : TopicData) :
    String → String → List ActorRole := fun h t =>
  if h = host ∧ t = d.topicName then
    match d.status with
    | .add => d.role :: added h t
    | .remove => []
  else added h t

def next (n : Notified) : Notification → Notified
  | .topic host d => ⟨n.sd.onTopic host d, note n.added host d⟩
  | .work a => if n.sd.isWork a then ⟨n.sd.next a, n.added⟩ else n

def system : System Notified Notification := .ofFun start next

end Notified

/-! ## Active actors -/

def isActiveFor (s : ServiceDiscovery) (host : String) (role : ActorRole) (i : ℕ) : Bool :=
  s.hasRole role i && (s.actors i).type = .host host && !s.isRetired i

/-- The actors of a host in a role of a topic that have not retired. -/
def active (s : ServiceDiscovery) (host topicName : String) (role : ActorRole) : List ℕ :=
  (s.actorsOf topicName).filter (s.isActiveFor host role)

/-- A host has one active actor for each role it has added, and no others. -/
def Notified.Accounted (n : Notified) : Prop :=
  ∀ host topicName role, (n.sd.active host topicName role).length =
    if role ∈ n.added host topicName then 1 else 0

/-- An `add` is not refused, for the content type or for an actor of the role that has retired, and
a `remove` finds the only active actor of the host. -/
def Notified.Lands (n : Notified) : Notification → Prop
  | .topic host d =>
    match d.status with
    | .add => n.sd.active host d.topicName d.role ≠ [] ∨
        (∀ topic, n.sd.topics.get? d.topicName = some topic →
          topic.contentType = d.contentType) ∧
        ∀ i ∈ n.sd.actorsOf d.topicName, n.sd.hasRole d.role i = true →
          (n.sd.actors i).type = .host host → n.sd.isRetired i = false
    | .remove => ∀ i ∈ n.sd.actorsOf d.topicName, (n.sd.actors i).type = .host host →
        n.sd.isRetired i = false → n.sd.hostActor host d.topicName = some i
  | .work _ => True

section Active

variable {s s' : ServiceDiscovery}

variable {role : ActorRole}

theorem active_of_filter {host topicName : String} (q : ℕ → Bool)
    (hlist : s'.actorsOf topicName = (s.actorsOf topicName).filter q)
    (hq : ∀ i ∈ s.actorsOf topicName, s.isActiveFor host role i = true → q i = true)
    (hactors : ∀ i ∈ s.actorsOf topicName, s'.isActiveFor host role i = s.isActiveFor host role i) :
    s'.active host topicName role = s.active host topicName role := by
  rw [active, hlist, List.filter_filter, active]
  refine List.filter_congr fun i hi => ?_
  rw [hactors i hi]
  cases hactive : s.isActiveFor host role i with
  | false => rfl
  | true => rw [hq i hi hactive]; rfl

theorem active_congr {host topicName : String}
    (hlist : s'.actorsOf topicName = s.actorsOf topicName)
    (hactors : ∀ i ∈ s.actorsOf topicName, s'.isActiveFor host role i = s.isActiveFor host role i) :
    s'.active host topicName role = s.active host topicName role := by
  rw [active, hlist, active]
  exact List.filter_congr hactors

theorem Alike.isActiveFor (h : Alike s s') (host : String) (role : ActorRole) :
    s'.isActiveFor host role = s.isActiveFor host role := by
  funext i
  simp only [ServiceDiscovery.isActiveFor, hasRole, h.role, h.type, h.isRetired]

theorem actorsOf_onTopicUpdate (t topicName : String) :
    (s.onTopicUpdate t).actorsOf topicName = s.actorsOf topicName := by
  simp only [onTopicUpdate, runTopicUpdate]
  split_ifs <;> rfl

variable {topicName contentType : String}

theorem get?_createTopic (h : s.createTopic topicName contentType = some s') :
    ∃ topic, s'.topics.get? topicName = some topic := by
  unfold createTopic at h
  split at h
  next existing hget =>
    split_ifs at h
    cases h
    exact ⟨existing, hget⟩
  next =>
    cases h
    exact ⟨_, OrderedMap.get?_set_self _ _ _⟩

theorem active_onTopicUpdate (t host topicName : String) (role : ActorRole) :
    (s.onTopicUpdate t).active host topicName role = s.active host topicName role := by
  simp only [onTopicUpdate, runTopicUpdate]
  split_ifs <;> rfl

theorem active_onUpdate (host topicName : String) (role : ActorRole) :
    s.onUpdate.active host topicName role = s.active host topicName role := by
  have hfold : ∀ (ts : List String) (s : ServiceDiscovery),
      (ts.foldl onTopicUpdate s).active host topicName role = s.active host topicName role := by
    intro ts
    induction ts with
    | nil => exact fun _ => rfl
    | cons t ts ih =>
      intro s
      rw [List.foldl_cons, ih, active_onTopicUpdate]
  exact hfold _ s

theorem Registers.isActiveFor {topicName : String} {type : ActorType}
    (h : Registers s topicName role type s') (host : String) (role' : ActorRole) {i : ℕ}
    (hi : i < s.actorCount) : s'.isActiveFor host role' i = s.isActiveFor host role' i := by
  simp only [ServiceDiscovery.isActiveFor, hasRole, isRetired, h.old i hi]

theorem actorsOf_register (ho : s.Owned) (host : String) (role : ActorRole)
    {created : ServiceDiscovery} (h : s.createTopic topicName contentType = some created) :
    (s.register topicName role (.host host) contentType).actorsOf topicName =
      if ∃ i ∈ s.actorsOf topicName, s.hasRole role i = true ∧ (s.actors i).type = .host host then
        s.actorsOf topicName
      else s.actorsOf topicName ++ [s.actorCount] := by
  obtain ⟨⟨topics, rfl⟩, hlisted⟩ := actorsOf_createTopic h
  have hadded := addActor_registers { s with topics } topicName role (.host host) contentType
  have hknown : ((({ s with topics } : ServiceDiscovery).addActor topicName role (.host host)
        contentType).findRole role topicName).any (fun i =>
      (({ s with topics } : ServiceDiscovery).addActor topicName role (.host host)
        contentType).sameHost s.actorCount i) = true ↔
      ∃ i ∈ s.actorsOf topicName, s.hasRole role i = true ∧ (s.actors i).type = .host host := by
    rw [List.any_eq_true, findRole_eq, actorsOf_addActor, hlisted]
    refine exists_congr fun i => ?_
    rw [List.mem_filter, and_assoc, and_congr_right_iff]
    intro hi
    have hold := hadded.old i (ho.listed topicName i hi).1
    rw [hasRole, hold, hasRole, and_congr_right_iff]
    intro _
    rw [sameHost, hold, TopicActor.sameHost, hadded.type]
    cases (s.actors i).type with
    | host id => simp [eq_comm]
    | api => simp
  obtain ⟨topic, hget⟩ := get?_createTopic h
  have hget' : (({ s with topics } : ServiceDiscovery).addActor topicName role (.host host)
      contentType).topics.get? topicName = some topic := hget
  have htopic : topic.actors = s.actorsOf topicName := by rw [← hlisted topicName, actorsOf, hget]
  simp only [register, h]
  rw [actorsOf_onTopicUpdate]
  by_cases hhost : ∃ i ∈ s.actorsOf topicName, s.hasRole role i = true ∧
      (s.actors i).type = .host host
  · rw [if_pos (hknown.mpr hhost), if_pos hhost, actorsOf_addActor]
    exact hlisted topicName
  · rw [if_neg (fun hany => hhost (hknown.mp hany)), if_neg hhost]
    simp only [hget']
    rw [actorsOf_set, if_pos rfl, htopic]

/-! ### Work -/

theorem active_createTopic (h : s.createTopic topicName contentType = some s') (host t : String)
    (role : ActorRole) :
    s'.active host t role = s.active host t role := by
  obtain ⟨⟨topics, rfl⟩, hlisted⟩ := actorsOf_createTopic h
  exact active_congr (hlisted t) fun _ _ => rfl

theorem active_registerApi (ho : s.Owned) (topicName : String) (role : ActorRole)
    (contentType host t : String) (role' : ActorRole) :
    (s.register topicName role .api contentType).active host t role' = s.active host t role' := by
  rcases register_cases s topicName role .api contentType with heq | ⟨s', h, heq⟩
  · rw [heq]
  · rw [heq, active_onTopicUpdate]
    have hold : (s.actorsOf t).filter (s'.isActiveFor host role') = s.active host t role' :=
      List.filter_congr fun i hi => h.isActiveFor host role' (ho.listed t i hi).1
    rcases h.listed t with hlist | ⟨-, hlist⟩
    · rw [active, hlist, hold]
    · have hnew : s'.isActiveFor host role' s.actorCount = false := by simp [isActiveFor, h.type]
      rw [active, hlist, List.filter_append, hold, List.filter_singleton, hnew]
      simp

theorem active_retireApi {i : ℕ} (hi : (s.actors i).type = .api) (host t : String)
    (role : ActorRole) : (s.retire i).active host t role = s.active host t role := by
  refine active_congr rfl fun j _ => ?_
  simp only [isActiveFor, hasRole, isRetired, retire, update]
  split_ifs with hj
  · rw [hj, hi]
    simp
  · rfl

theorem active_prepare {topicName : String} {topic : Topic}
    (h : s.topics.get? topicName = some topic) (host t : String) (role : ActorRole) :
    (s.prepare topicName topic).active host t role = s.active host t role := by
  have hlist : topic.actors = s.actorsOf topicName := by rw [actorsOf, h]
  have hfold : ∀ f : ServiceDiscovery → ℕ → ServiceDiscovery,
      (∀ s i, (f s i).active host t role = s.active host t role) → ∀ (is : List ℕ) s,
        (is.foldl f s).active host t role = s.active host t role := by
    intro f hf is
    induction is with
    | nil => exact fun _ => rfl
    | cons i is ih =>
      intro s
      rw [List.foldl_cons, ih, hf]
  have hunhandle := hfold (setHandled · false ·) fun s i => active_congr rfl fun j _ => by
    rw [(alike_setHandled false i).isActiveFor]
  have hdiscard := hfold discard fun s i => active_congr rfl fun j _ => by
    simp only [isActiveFor, hasRole, isRetired, discard, update]
    split_ifs with hj hstream
    · rw [hj]
    · rw [hj]
    · rfl
  have hlisted : ({ s with
      topics := s.topics.set topicName
        { topic with actors := topic.actors.filter fun i => !s.isRetired i } } :
          ServiceDiscovery).active host t role = s.active host t role := by
    by_cases ht : t = topicName
    · subst ht
      refine active_of_filter (fun i => !s.isRetired i) ?_ (fun i _ hi => ?_) fun _ _ => rfl
      · rw [actorsOf_set, if_pos rfl, hlist]
      · simp only [isActiveFor, Bool.and_eq_true] at hi
        exact hi.2
    · refine active_congr ?_ fun _ _ => rfl
      rw [actorsOf_set, if_neg ht]
  simp only [prepare]
  split_ifs
  · rw [hunhandle, hdiscard, hlisted]
  · rw [hunhandle, hlisted]
  · rw [hdiscard, hlisted]
  · exact hlisted

theorem active_continueUpdate (ho : s.Owned) (host t : String) (role : ActorRole) :
    s.continueUpdate.active host t role = s.active host t role := by
  rcases continueUpdate_cases s with heq | ⟨-, -, -, heq⟩ | ⟨topicName, rest, -, -, -, heq⟩
  · rw [heq]
  · rw [heq]
    simp only [runTopicUpdate]
    split_ifs <;> rfl
  · rw [heq]
    show _ = ({ s with remaining := rest } : ServiceDiscovery).active host t role
    have ho : ({ s with remaining := rest } : ServiceDiscovery).Owned := { ho with }
    generalize ({ s with remaining := rest } : ServiceDiscovery) = q at ho ⊢
    cases h : q.topics.get? topicName with
    | none => simp only [onTopicUpdateWorker, h]
    | some topic =>
      simp only [onTopicUpdateWorker, h]
      split_ifs with hnone
      · by_cases ht : t = topicName
        · subst ht
          refine active_of_filter (fun _ => false) ?_ (fun i hi hactive => ?_) fun _ _ => rfl
          · simp [actorsOf]
          -- all actors of the topic have retired
          · have hlist : topic.actors = q.actorsOf t := by rw [actorsOf, h]
            have hretired := List.filter_eq_nil_iff.mp hnone i (hlist ▸ hi)
            simp only [isActiveFor, Bool.and_eq_true] at hactive
            exact absurd hactive.2 hretired
        · refine active_congr ?_ fun _ _ => rfl
          simp only [actorsOf, OrderedMap.get?_delete_of_ne _ (Ne.symm ht)]
      · have hprepare := withdraws_prepare h
        obtain ⟨s', hconnects, heq'⟩ := connectAll_connects (hprepare.owned ho) topicName
        obtain ⟨_, _, _, _, hframe⟩ := hconnects.frame
        rw [heq', ← active_prepare h]
        refine active_congr ?_ fun i _ => ?_
        · show s'.actorsOf t = _
          rw [hframe]
          rfl
        · show s'.isActiveFor host role i = _
          rw [hconnects.alike.isActiveFor]

theorem active_work (ho : s.Owned) {a : Action} (ha : s.isWork a = true) (host t : String)
    (role : ActorRole) : (s.next a).active host t role = s.active host t role := by
  cases a with
  | register topicName role' type contentType =>
    have htype : type = .api := by simpa [isWork] using ha
    rw [htype]
    exact active_registerApi ho topicName role' contentType host t role
  | requestClosed i =>
    have htype : (s.actors i).type = .api := by simpa [isWork] using ha
    simp only [next, requestClosed]
    split_ifs
    · rw [active_onUpdate, active_retireApi htype]
    · rfl
  | createTopic topicName contentType =>
    show ((s.createTopic topicName contentType).getD s).active host t role = _
    cases h : s.createTopic topicName contentType with
    | none => rfl
    | some s' => exact active_createTopic h host t role
  | update => exact active_onUpdate host t role
  | continueUpdate => exact active_continueUpdate ho host t role
  | requestResolved i =>
    obtain ⟨⟨_, _, _, _, _, hframe⟩, hactors, -⟩ := requestResolved_frame s i
    refine active_congr ?_ fun j _ => ?_
    · show (s.requestResolved i).actorsOf t = _
      rw [hframe]
      rfl
    · obtain ⟨stream, h⟩ := hactors j
      show (s.requestResolved i).isActiveFor host role j = _
      simp only [isActiveFor, hasRole, isRetired, h]
  | requestFailed i =>
    simp only [next, requestFailed]
    split <;> rfl
  | groupResolved group =>
    simp only [next, groupResolved]
    split_ifs
    · refine active_congr rfl fun j _ => ?_
      rw [(alike_setHandled true group.provider).isActiveFor]
      rfl
    · rfl
  | passResolved =>
    simp only [next, passResolved]
    split
    · split_ifs <;> rfl
    · rfl
  | unregister i | deleteTopic topicName | streamClosed stream | streamFailed stream => cases ha

/-! ### Messages -/

theorem createTopic_isSome
    (h : ∀ topic, s.topics.get? topicName = some topic → topic.contentType = contentType) :
    ∃ s', s.createTopic topicName contentType = some s' := by
  unfold createTopic
  split
  next existing hget => exact ⟨s, by rw [if_neg (by simp [h existing hget])]⟩
  next => exact ⟨_, rfl⟩

theorem active_add_known (ho : s.Owned) {host topicName contentType : String}
    (hactive : s.active host topicName role ≠ []) (h t : String) (r : ActorRole) :
    (s.register topicName role (.host host) contentType).active h t r = s.active h t r := by
  rcases register_cases s topicName role (.host host) contentType with heq | ⟨s', hr, heq⟩
  · rw [heq]
  · cases hcreated : s.createTopic topicName contentType with
    | none => simp only [register, hcreated]
    | some created =>
      have hlist := actorsOf_register ho host role hcreated
      obtain ⟨i, hi⟩ := List.exists_mem_of_ne_nil _ hactive
      rw [active, List.mem_filter, isActiveFor] at hi
      simp only [Bool.and_eq_true, decide_eq_true_eq] at hi
      rw [if_pos ⟨i, hi.1, hi.2.1.1, hi.2.1.2⟩, heq, actorsOf_onTopicUpdate] at hlist
      rw [heq, active_onTopicUpdate]
      refine active_congr ?_ fun j hj => hr.isActiveFor h r (ho.listed t j hj).1
      rcases hr.listed t with hsame | ⟨ht, hadded⟩
      · exact hsame
      · rw [ht, hlist]

theorem active_add_new (ho : s.Owned) {host topicName contentType : String}
    (hnone : s.active host topicName role = [])
    (hcontent : ∀ topic, s.topics.get? topicName = some topic → topic.contentType = contentType)
    (hlive : ∀ i ∈ s.actorsOf topicName, s.hasRole role i = true → (s.actors i).type = .host host → s.isRetired i = false)
    (h t : String) (r : ActorRole) :
    (s.register topicName role (.host host) contentType).active h t r =
      if h = host ∧ t = topicName ∧ r = role then [s.actorCount] else s.active h t r := by
  obtain ⟨created, hcreated⟩ := createTopic_isSome hcontent
  have hlist := actorsOf_register ho host role hcreated
  rw [if_neg] at hlist
  · rcases register_cases s topicName role (.host host) contentType with heq | ⟨s', hr, heq⟩
    · rw [heq] at hlist
      simp at hlist
    · rw [heq, actorsOf_onTopicUpdate] at hlist
      rw [heq, active_onTopicUpdate]
      have hold : (s.actorsOf t).filter (s'.isActiveFor h r) = s.active h t r :=
        List.filter_congr fun i hi => hr.isActiveFor h r (ho.listed t i hi).1
      have hnew : s'.isActiveFor h r s.actorCount = decide (h = host ∧ r = role) := by
        rw [isActiveFor, hasRole, hr.role, hr.type, hr.live]
        simp [Bool.and_comm, eq_comm]
      by_cases ht : t = topicName
      · subst ht
        rw [active, hlist, List.filter_append, hold, List.filter_singleton, hnew]
        by_cases hhr : h = host ∧ r = role
        · obtain ⟨rfl, rfl⟩ := hhr
          rw [hnone]
          simp
        · simp [hhr]
      · rw [if_neg (fun h => ht h.2.1), active, ← hold]
        rcases hr.listed t with hsame | ⟨ht', -⟩
        · rw [hsame]
        · exact absurd ht' ht
  · rintro ⟨i, hi, hrole, htype⟩
    have hmem : i ∈ s.active host topicName role := by
      rw [active, List.mem_filter, isActiveFor, hrole, htype, hlive i hi hrole htype]
      exact ⟨hi, by simp⟩
    rw [hnone] at hmem
    cases hmem

theorem active_remove (ho : s.Owned) {host topicName : String}
    (hfind : ∀ i ∈ s.actorsOf topicName, (s.actors i).type = .host host →
      s.isRetired i = false → s.hostActor host topicName = some i)
    {d : TopicData} (hd : d.status = .remove) (hname : d.topicName = topicName) (h t : String)
    (r : ActorRole) :
    (s.onTopic host d).active h t r =
      if h = host ∧ t = topicName then [] else s.active h t r := by
  subst hname
  simp only [onTopic, hd]
  cases hhost : s.hostActor host d.topicName with
  | none =>
    split_ifs with hht
    · obtain ⟨rfl, rfl⟩ := hht
      refine List.filter_eq_nil_iff.mpr fun i hi hactive => ?_
      simp only [isActiveFor, Bool.and_eq_true, decide_eq_true_eq] at hactive
      have hsome := hfind i hi hactive.1.2 (by simpa using hactive.2)
      rw [hhost] at hsome
      cases hsome
    · rfl
  | some i =>
    have hi : i ∈ s.actorsOf d.topicName := List.mem_of_find?_eq_some hhost
    have htype : (s.actors i).type = .host host := by simpa using List.find?_some hhost
    obtain ⟨hlt, htopic⟩ := ho.listed _ i hi
    simp only [unregister, if_pos hlt]
    rw [active_onTopicUpdate]
    have hretired : ∀ j, (s.retire i).isActiveFor h r j = (s.isActiveFor h r j && decide (j ≠ i)) := by
      intro j
      simp only [isActiveFor, hasRole, isRetired, retire, update]
      split_ifs with hj <;> simp [hj]
    split_ifs with hht
    · obtain ⟨rfl, rfl⟩ := hht
      refine List.filter_eq_nil_iff.mpr fun j hj hactive => ?_
      rw [hretired, Bool.and_eq_true, decide_eq_true_eq] at hactive
      obtain ⟨hactive, hne⟩ := hactive
      simp only [isActiveFor, Bool.and_eq_true, decide_eq_true_eq] at hactive
      have hsome := hfind j hj hactive.1.2 (by simpa using hactive.2)
      rw [hhost, Option.some.injEq] at hsome
      exact hne hsome.symm
    · refine active_congr rfl fun j hj => ?_
      rw [hretired]
      by_cases hji : j = i
      · have hfalse : s.isActiveFor h r j = false := by
          rw [hji, isActiveFor, htype]
          have ht : t = d.topicName := by rw [← (ho.listed t j hj).2, hji, htopic]
          have hh : h ≠ host := fun hh => hht ⟨hh, ht⟩
          simp [Ne.symm hh]
        rw [hfalse]
        rfl
      · simp [hji]

end Active

/-! ## Every run -/

theorem Notified.owned_next {n : Notified} (ho : n.sd.Owned) (e : Notification) :
    (n.next e).sd.Owned := by
  cases e with
  | work a =>
    simp only [next]
    split_ifs
    · exact ho.next a
    · exact ho
  | topic host d =>
    show (n.sd.onTopic host d).Owned
    unfold onTopic
    split
    next => exact ho.next (.register _ _ _ _)
    next =>
      split
      · exact ho.next (.unregister _)
      · exact ho

theorem Notified.accounted_next {n : Notified} (ho : n.sd.Owned) (hn : n.Accounted)
    {e : Notification} (he : n.Lands e) : (n.next e).Accounted := by
  cases e with
  | work a =>
    simp only [next]
    split_ifs with ha
    · intro h t r
      show ((n.sd.next a).active h t r).length = _
      rw [active_work ho ha]
      exact hn h t r
    · exact hn
  | topic host d =>
    intro h t r
    have hnr := hn h t r
    show ((n.sd.onTopic host d).active h t r).length =
      if r ∈ note n.added host d h t then 1 else 0
    cases hd : d.status with
    | add =>
      have hadd : n.sd.onTopic host d =
          n.sd.register d.topicName d.role (.host host) d.contentType := by
        rw [onTopic, hd]
      have hnote : r ∈ note n.added host d h t ↔
          r ∈ n.added h t ∨ h = host ∧ t = d.topicName ∧ r = d.role := by
        rw [note, hd]
        split_ifs with hht
        · simp [hht, or_comm]
        · exact ⟨.inl, fun hor => hor.resolve_right fun hr => hht ⟨hr.1, hr.2.1⟩⟩
      have hlands : n.sd.active host d.topicName d.role ≠ [] ∨
          (∀ topic, n.sd.topics.get? d.topicName = some topic →
            topic.contentType = d.contentType) ∧
          ∀ i ∈ n.sd.actorsOf d.topicName, n.sd.hasRole d.role i = true →
            (n.sd.actors i).type = .host host → n.sd.isRetired i = false := by
        simpa only [Lands, hd] using he
      rw [hadd, if_congr hnote rfl rfl]
      by_cases hactive : n.sd.active host d.topicName d.role = []
      · obtain ⟨hcontent, hlive⟩ := hlands.resolve_left (absurd hactive)
        rw [active_add_new ho hactive hcontent hlive]
        by_cases hht : h = host ∧ t = d.topicName ∧ r = d.role
        · rw [if_pos hht, if_pos (.inr hht)]
          rfl
        · rw [if_neg hht, hnr]
          exact if_congr (by simp [hht]) rfl rfl
      · rw [active_add_known ho hactive, hnr]
        refine if_congr ⟨.inl, fun hor => ?_⟩ rfl rfl
        rcases hor with hor | ⟨rfl, rfl, rfl⟩
        · exact hor
        · by_contra hnot
          rw [if_neg hnot] at hnr
          exact hactive (List.eq_nil_of_length_eq_zero hnr)
    | remove =>
      have hfind : ∀ i ∈ n.sd.actorsOf d.topicName, (n.sd.actors i).type = .host host →
          n.sd.isRetired i = false → n.sd.hostActor host d.topicName = some i := by
        simpa only [Lands, hd] using he
      have hnote : note n.added host d h t =
          if h = host ∧ t = d.topicName then [] else n.added h t := by
        rw [note, hd]
      rw [active_remove ho hfind hd rfl, hnote]
      by_cases hht : h = host ∧ t = d.topicName
      · rw [if_pos hht, if_pos hht]
        rfl
      · rw [if_neg hht, if_neg hht]
        exact hnr

theorem Notified.accounted_of_lands {n : Notified} (h : Notified.system.Reachable Lands n) :
    n.Accounted := by
  have hall : n.sd.Owned ∧ n.Accounted := by
    refine System.Reachable.invariant_ofFun (I := fun n => n.sd.Owned ∧ n.Accounted)
      ⟨owned_new, fun _ _ _ => rfl⟩ (fun n e hn he => ?_) h
    exact ⟨owned_next hn.1 e, accounted_next hn.1 hn.2 he⟩
  exact hall.2

/-! ### Two runs -/

def Notified.lands (n : Notified) : Notification → Bool
  | .topic host d =>
    match d.status with
    | .add => n.sd.active host d.topicName d.role ≠ [] ||
        ((n.sd.topics.get? d.topicName).all fun topic => topic.contentType = d.contentType) &&
        (n.sd.actorsOf d.topicName).all fun i =>
          !(n.sd.hasRole d.role i && (n.sd.actors i).type = .host host && n.sd.isRetired i)
    | .remove => (n.sd.actorsOf d.topicName).all fun i =>
      (n.sd.actors i).type ≠ .host host || n.sd.isRetired i ||
        n.sd.hostActor host d.topicName = some i
  | .work _ => true

theorem Notified.lands_sound (n : Notified) (e : Notification) (h : n.lands e = true) :
    n.Lands e := by
  cases e with
  | work a => trivial
  | topic host d =>
    cases hd : d.status with
    | add =>
      simp only [lands, hd, Bool.or_eq_true, decide_eq_true_eq, Bool.and_eq_true,
        List.all_eq_true, Bool.not_eq_true', Bool.and_eq_false_imp] at h
      simp only [Lands, hd]
      refine h.imp_right fun h => ⟨fun topic htopic => ?_, fun i hi hrole htype => ?_⟩
      · simpa [htopic] using h.1
      · exact h.2 i hi ⟨hrole, by simpa using htype⟩
    | remove =>
      simp only [lands, hd, List.all_eq_true, Bool.or_eq_true, decide_eq_true_eq] at h
      simp only [Lands, hd]
      intro i hi htype hlive
      rcases h i hi with (h | h) | h
      · exact absurd htype h
      · rw [hlive] at h
        cases h
      · exact h

def provided : TopicData := ⟨.add, "t", "text/plain", none, some "t"⟩

def required : TopicData := ⟨.add, "t", "text/plain", none, none⟩

def removed : TopicData := ⟨.remove, "t", "", none, none⟩

/-- The steps of an update of one topic with the one provider. -/
def oneProvider (pass provider : ℕ) : List Notification :=
  [.work .continueUpdate, .work (.groupResolved ⟨pass, provider⟩), .work .passResolved,
    .work .continueUpdate]

/-- The steps of an update whose worker finds no actors. -/
def noActors : List Notification := [.work .continueUpdate, .work .continueUpdate]

/-- A topic that is provided, removed and then provided again. -/
def provideAgain : Notified :=
  (.topic "h" provided :: oneProvider 0 0 ++ .topic "h" removed :: noActors ++
    .topic "h" provided :: oneProvider 1 1).foldl Notified.next Notified.start

theorem accounted_provideAgain :
    provideAgain.Accounted ∧ provideAgain.sd.active "h" "t" .provider = [1] :=
  ⟨Notified.accounted_of_lands (System.Reachable.of_checks Notified.lands_sound (.init rfl)
    (by decide +kernel)), by decide +kernel⟩

/-- The topic is provided again before the worker has come to it. -/
def provideEarly : Notified :=
  (.topic "h" provided :: oneProvider 0 0 ++ .topic "h" removed :: .topic "h" provided ::
    noActors ++ noActors).foldl Notified.next Notified.start

/-- The topic is provided and required, and then removed. -/
def removeBoth : Notified :=
  (.topic "h" provided :: .topic "h" required :: .topic "h" removed ::
    .work .continueUpdate :: .work .passResolved :: .work .continueUpdate ::
      .work .continueUpdate :: .work .passResolved :: .work .continueUpdate :: []).foldl
    Notified.next Notified.start

/-- An early `add` is lost, and a `remove` leaves the second actor of the host. -/
theorem notification_lost :
    (Notified.system.Reachable System.anyStep provideEarly ∧ provideEarly.sd.Quiescent ∧
      provideEarly.added "h" "t" = [.provider] ∧
        provideEarly.sd.active "h" "t" .provider = []) ∧
    Notified.system.Reachable System.anyStep removeBoth ∧ removeBoth.sd.Quiescent ∧
      removeBoth.added "h" "t" = [] ∧ removeBoth.sd.active "h" "t" .consumer = [1] := by
  refine ⟨⟨System.reachable_foldl _, ⟨by decide +kernel, by decide +kernel⟩, by decide +kernel,
    by decide +kernel⟩, System.reachable_foldl _, ⟨by decide +kernel, by decide +kernel⟩,
    by decide +kernel, by decide +kernel⟩

end ServiceDiscovery

end TransformHub.Manager
