import TransformHub.Lib.Transition
import TransformHub.Manager.ServiceDiscovery

/-!
# Connections between topic actors

The runs of a `ServiceDiscovery`, and what every step means for a pair of a provider and a consumer:
how many pipes lead from the one to the other, and how many connections of the two are being made.
-/

namespace TransformHub.Manager

namespace ServiceDiscovery

/-! ## Runs -/

inductive Action where
  | register (topicName : String) (role : ActorRole) (type : ActorType) (contentType : String)
  | unregister (actor : ℕ)
  | requestClosed (actor : ℕ)
  | createTopic (topicName contentType : String)
  | deleteTopic (topicName : String)
  | update
  | streamClosed (stream : ℕ)
  | streamFailed (stream : ℕ)
  | continueUpdate
  | requestResolved (task : ℕ)
  | requestFailed (task : ℕ)
  | groupResolved (group : Group)
  | passResolved

def next (s : ServiceDiscovery) : Action → ServiceDiscovery
  | .register topicName role type contentType => s.register topicName role type contentType
  | .unregister actor => s.unregister actor
  | .requestClosed actor => s.requestClosed actor
  | .createTopic topicName contentType => (s.createTopic topicName contentType).getD s
  | .deleteTopic topicName => s.deleteTopic topicName
  | .update => s.onUpdate
  | .streamClosed stream => s.streamClosed stream
  | .streamFailed stream => s.streamFailed stream
  | .continueUpdate => s.continueUpdate
  | .requestResolved task => s.requestResolved task
  | .requestFailed task => s.requestFailed task
  | .groupResolved group => s.groupResolved group
  | .passResolved => s.passResolved

def system : System ServiceDiscovery Action := .ofFun new next

/-! ## Pipes and connections in the making -/

section Load

variable (s : ServiceDiscovery) (provider consumer : ℕ)

/-- The pair of streams leads from the provider to the consumer. -/
def leads (e : ℕ × ℕ) : Bool :=
  s.streams[e.1]? = some provider && s.streams[e.2]? = some consumer

def pipes : ℕ := s.piped.countP (s.leads provider consumer)

/-- How many connections of the two are being made. -/
def inFlight : ℕ := s.tasks.countP fun t => t.provider = provider && t.consumer = consumer

def load : ℕ := s.pipes provider consumer + s.inFlight provider consumer

end Load

/-- A topic waits for the worker. -/
def Pending (s : ServiceDiscovery) (topicName : String) : Prop :=
  topicName ∈ s.updatedTopics ∨ s.topicUpdateRunning = true ∧ topicName ∈ s.remaining

def actorsOf (s : ServiceDiscovery) (topicName : String) : List ℕ :=
  match s.topics.get? topicName with
  | none => []
  | some topic => topic.actors

theorem findRole_eq (s : ServiceDiscovery) (role : ActorRole) (topicName : String) :
    s.findRole role topicName = (s.actorsOf topicName).filter (s.hasRole role) := by
  rw [findRole, actorsOf]
  cases s.topics.get? topicName <;> rfl

/-- Who owns which stream, and what the numbers in a state stand for. -/
structure Owned (s : ServiceDiscovery) : Prop where
  listed : ∀ topicName, ∀ i ∈ s.actorsOf topicName,
    i < s.actorCount ∧ (s.actors i).topic = topicName
  distinct : ∀ topicName, (s.actorsOf topicName).Nodup
  stream : ∀ i k, i < s.actorCount → s.streamOf i = some k → s.streams[k]? = some i
  api : ∀ i, i < s.actorCount → (s.actors i).type = .api → (s.streamOf i).isSome
  owner : ∀ i ∈ s.streams, i < s.actorCount
  links : ∀ l ∈ s.links,
    s.streams[l.source]? = some l.provider ∧ s.streams[l.target]? = some l.consumer
  piped : ∀ e ∈ s.piped, e.1 < s.streams.length ∧ e.2 < s.streams.length
  tasks : ∀ t ∈ s.tasks, t.provider < s.actorCount ∧ t.consumer < s.actorCount ∧
    s.sameHost t.provider t.consumer = false ∧
      (t.awaits = .consumer → (s.streamOf t.provider).isSome)
  groups : ∀ g ∈ s.groups, g.provider < s.actorCount

theorem owned_new : new.Owned where
  listed := nofun
  distinct := fun _ => .nil
  stream := nofun
  api := nofun
  owner := nofun
  links := nofun
  piped := nofun
  tasks := nofun
  groups := nofun

/-! ## Steps that connect nothing -/

/-- Nothing is connected: actors retire, or count as unhandled again, topics come to wait for the
worker, and only pipes of retired actors are taken apart. -/
structure Withdraws (s s' : ServiceDiscovery) : Prop where
  count : s'.actorCount = s.actorCount
  topic : ∀ i, (s'.actors i).topic = (s.actors i).topic
  role : ∀ i, (s'.actors i).role = (s.actors i).role
  type : ∀ i, (s'.actors i).type = (s.actors i).type
  stream : ∀ i, s'.streamOf i = s.streamOf i
  retired : ∀ i, s.isRetired i = true → s'.isRetired i = true
  handled : ∀ i, s'.isHandled i = true → s.isHandled i = true
  streams : s'.streams = s.streams
  listed : ∀ topicName, (s'.actorsOf topicName).Sublist (s.actorsOf topicName)
  pending : ∀ topicName, s.Pending topicName → s'.Pending topicName
  running : s.pass ≠ none → s.topicUpdateRunning = true → s'.topicUpdateRunning = true
  pass : s'.pass = s.pass
  passes : s'.passes = s.passes
  groups : s'.groups = s.groups
  tasks : s'.tasks = s.tasks
  links : ∀ (i : ℕ) (l' : Link), s'.links[i]? = some l' → ∃ l : Link, s.links[i]? = some l ∧
    l'.provider = l.provider ∧ l'.consumer = l.consumer ∧ l'.source = l.source ∧
      l'.target = l.target
  piped : s'.piped.Sublist s.piped
  kept : ∀ p c, s'.isRetired p = false → s'.isRetired c = false → s'.pipes p c = s.pipes p c

namespace Withdraws

variable {s s' s'' : ServiceDiscovery}

theorem refl (s : ServiceDiscovery) : Withdraws s s where
  count := rfl
  topic := fun _ => rfl
  role := fun _ => rfl
  type := fun _ => rfl
  stream := fun _ => rfl
  retired := fun _ h => h
  handled := fun _ h => h
  streams := rfl
  listed := fun _ => .refl _
  pending := fun _ h => h
  running := fun _ h => h
  pass := rfl
  passes := rfl
  groups := rfl
  tasks := rfl
  links := fun _ l hl => ⟨l, hl, rfl, rfl, rfl, rfl⟩
  piped := .refl _
  kept := fun _ _ _ _ => rfl

theorem isRetired_eq_false (h : Withdraws s s') {i : ℕ} (hi : s'.isRetired i = false) :
    s.isRetired i = false := by
  by_contra hne
  rw [h.retired i (by simpa using hne)] at hi
  cases hi

theorem trans (h : Withdraws s s') (h' : Withdraws s' s'') : Withdraws s s'' where
  count := h'.count.trans h.count
  topic := fun i => (h'.topic i).trans (h.topic i)
  role := fun i => (h'.role i).trans (h.role i)
  type := fun i => (h'.type i).trans (h.type i)
  stream := fun i => (h'.stream i).trans (h.stream i)
  retired := fun i hi => h'.retired i (h.retired i hi)
  handled := fun i hi => h.handled i (h'.handled i hi)
  streams := h'.streams.trans h.streams
  listed := fun t => (h'.listed t).trans (h.listed t)
  pending := fun t ht => h'.pending t (h.pending t ht)
  running := fun hpass hr => h'.running (h.pass ▸ hpass) (h.running hpass hr)
  pass := h'.pass.trans h.pass
  passes := h'.passes.trans h.passes
  groups := h'.groups.trans h.groups
  tasks := h'.tasks.trans h.tasks
  links := by
    intro i l'' hl''
    obtain ⟨l', hl', hp', hc', hs', ht'⟩ := h'.links i l'' hl''
    obtain ⟨l, hl, hp, hc, hs, ht⟩ := h.links i l' hl'
    exact ⟨l, hl, hp'.trans hp, hc'.trans hc, hs'.trans hs, ht'.trans ht⟩
  piped := h'.piped.trans h.piped
  kept := fun p c hp hc => (h'.kept p c hp hc).trans
    (h.kept p c (h'.isRetired_eq_false hp) (h'.isRetired_eq_false hc))

theorem foldl {ι : Type} (f : ServiceDiscovery → ι → ServiceDiscovery)
    (hf : ∀ s i, Withdraws s (f s i)) (is : List ι) (s : ServiceDiscovery) :
    Withdraws s (is.foldl f s) := by
  induction is generalizing s with
  | nil => exact .refl s
  | cons i is ih => exact (hf s i).trans (ih _)

section

variable (h : Withdraws s s')
include h

theorem sameHost (i j : ℕ) : s'.sameHost i j = s.sameHost i j := by
  simp only [ServiceDiscovery.sameHost, TopicActor.sameHost, h.type]

theorem owned (ho : s.Owned) : s'.Owned where
  listed := by
    intro t i hi
    rw [h.count, h.topic]
    exact ho.listed t i ((h.listed t).subset hi)
  distinct := fun t => (h.listed t).nodup (ho.distinct t)
  stream := by
    intro i k hi hk
    rw [h.streams]
    exact ho.stream i k (h.count ▸ hi) (h.stream i ▸ hk)
  api := by
    intro i hi ht
    rw [h.stream]
    exact ho.api i (h.count ▸ hi) (h.type i ▸ ht)
  owner := by
    rw [h.streams, h.count]
    exact ho.owner
  links := by
    intro l' hl'
    obtain ⟨i, hi⟩ := List.mem_iff_getElem?.mp hl'
    obtain ⟨l, hl, hp, hc, hs, ht⟩ := h.links i l' hi
    rw [h.streams, hp, hc, hs, ht]
    exact ho.links l (List.mem_of_getElem? hl)
  piped := by
    intro e he
    rw [h.streams]
    exact ho.piped e (h.piped.subset he)
  tasks := by
    intro t ht
    rw [h.tasks] at ht
    rw [h.count, h.stream, h.sameHost]
    exact ho.tasks t ht
  groups := by
    rw [h.groups, h.count]
    exact ho.groups

theorem pipes_le (p c : ℕ) : s'.pipes p c ≤ s.pipes p c := by
  have hleads : s'.leads p c = s.leads p c := by
    funext e
    rw [leads, h.streams, leads]
  rw [pipes, hleads]
  exact h.piped.countP_le

theorem inFlight_eq (p c : ℕ) : s'.inFlight p c = s.inFlight p c := by
  rw [inFlight, h.tasks, inFlight]

theorem load_le (p c : ℕ) : s'.load p c ≤ s.load p c := by
  rw [load, h.inFlight_eq]
  exact Nat.add_le_add_right (h.pipes_le p c) _

theorem load_eq {p c : ℕ} (hp : s'.isRetired p = false)
    (hc : s'.isRetired c = false) : s'.load p c = s.load p c := by
  rw [load, h.inFlight_eq, h.kept p c hp hc, load]

end

end Withdraws

section Withdrawing

variable {s : ServiceDiscovery}

theorem withdraws_update (i : ℕ) (f : TopicActor → TopicActor)
    (hf : ∀ a, (f a).topic = a.topic ∧ (f a).role = a.role ∧ (f a).type = a.type ∧
      (f a).stream = a.stream ∧ (a.retired = true → (f a).retired = true) ∧
        ((f a).handled = true → a.handled = true)) : Withdraws s (s.update i f) := by
  obtain ⟨htopic, hrole, htype, hstream, hretired, hhandled⟩ := hf (s.actors i)
  refine { Withdraws.refl s with
    topic := fun j => ?_
    role := fun j => ?_
    type := fun j => ?_
    stream := fun j => ?_
    retired := fun j hj => ?_
    handled := fun j hj => ?_
    kept := fun _ _ _ _ => rfl }
  all_goals
    simp only [update, streamOf, isRetired, isHandled] at *
    split_ifs at * with hi
    · subst hi
      first | assumption | exact hretired hj | exact hhandled hj
    · first | rfl | exact hj

theorem withdraws_retire (i : ℕ) : Withdraws s (s.retire i) :=
  withdraws_update i _ fun _ => ⟨rfl, rfl, rfl, rfl, fun _ => rfl, fun h => h⟩

theorem withdraws_unhandle (i : ℕ) : Withdraws s (s.setHandled false i) :=
  withdraws_update i _ fun _ => ⟨rfl, rfl, rfl, rfl, fun h => h, nofun⟩

theorem withdraws_discard (i : ℕ) : Withdraws s (s.discard i) := by
  refine withdraws_update i _ fun a => ?_
  split_ifs <;> exact ⟨rfl, rfl, rfl, rfl, fun h => h, fun h => h⟩

theorem isRetired_retire (i : ℕ) : (s.retire i).isRetired i = true := by
  simp [retire, update, isRetired]

theorem withdraws_runTopicUpdate : Withdraws s s.runTopicUpdate := by
  unfold runTopicUpdate
  split_ifs with h
  · exact .refl s
  · refine { Withdraws.refl s with
      pending := fun t ht => ?_
      running := fun _ _ => rfl
      kept := fun _ _ _ _ => rfl }
    rcases ht with ht | ⟨hrunning, -⟩
    · exact .inr ⟨rfl, ht⟩
    · exact absurd (.inl hrunning) h

theorem withdraws_onTopicUpdate (topicName : String) : Withdraws s (s.onTopicUpdate topicName) := by
  have hadded : Withdraws s { s with updatedTopics :=
      if topicName ∈ s.updatedTopics then s.updatedTopics
      else s.updatedTopics ++ [topicName] } := by
    refine { Withdraws.refl s with pending := fun t ht => ?_, kept := fun _ _ _ _ => rfl }
    rcases ht with ht | ht
    · refine .inl ?_
      show t ∈ (if _ then _ else _)
      split_ifs
      · exact ht
      · exact List.mem_append_left _ ht
    · exact .inr ht
  exact hadded.trans withdraws_runTopicUpdate

theorem pending_onTopicUpdate (topicName : String) :
    (s.onTopicUpdate topicName).Pending topicName := by
  refine withdraws_runTopicUpdate.pending topicName (.inl ?_)
  show topicName ∈ (if _ then _ else _)
  split_ifs with h
  · exact h
  · exact List.mem_append_right _ (List.mem_singleton.mpr rfl)

theorem withdraws_onUpdate : Withdraws s s.onUpdate :=
  Withdraws.foldl onTopicUpdate (fun _ t => withdraws_onTopicUpdate t) _ s

/-! ### Events of streams -/

theorem Owned.stream_lt (ho : s.Owned) {k i : ℕ} (h : s.streams[k]? = some i) :
    i < s.actorCount := ho.owner i (List.mem_of_getElem? h)

theorem countP_erase_of_not {α : Type} [BEq α] [LawfulBEq α] {q : α → Bool} {a : α}
    (h : q a = false) (l : List α) : (l.erase a).countP q = l.countP q := by
  induction l with
  | nil => rfl
  | cons b l ih =>
    rw [List.erase_cons]
    split
    next heq =>
      rw [beq_iff_eq] at heq
      rw [heq, List.countP_cons_of_neg (by simp [h])]
    next => rw [List.countP_cons, List.countP_cons, ih]

/-- The actor of a stream has retired. -/
def Left (s : ServiceDiscovery) (stream : ℕ) : Prop :=
  ∀ owner, s.streams[stream]? = some owner → s.isRetired owner = true

theorem Left.of_withdraws {s' : ServiceDiscovery} {stream : ℕ} (h : s.Left stream)
    (hw : Withdraws s s') : s'.Left stream := by
  intro owner howner
  rw [hw.streams] at howner
  exact hw.retired owner (h owner howner)

section

variable (ho : s.Owned) {stream : ℕ} (hleft : s.Left stream) (i : ℕ)
include ho hleft i

theorem withdraws_disconnect
    (h : ∀ l, s.links[i]? = some l → l.source = stream ∨ l.target = stream) :
    Withdraws s (s.disconnect i) := by
  unfold disconnect
  split
  next => exact .refl s
  next link hlink =>
    split_ifs
    · exact withdraws_unhandle _
    · obtain ⟨hsource, htarget⟩ := ho.links link (List.mem_of_getElem? hlink)
      have hretired : s.isRetired link.provider = true ∨ s.isRetired link.consumer = true := by
        rcases h link hlink with hs | ht
        · exact .inl (hleft _ (hs ▸ hsource))
        · exact .inr (hleft _ (ht ▸ htarget))
      have hun : Withdraws s (s.setHandled false link.provider) := withdraws_unhandle _
      refine { hun with
        links := fun j l' hl' => ?_
        piped := ?_
        kept := fun p c hp hc => ?_ }
      · have hj : (s.links.modify i fun l => { l with disconnected := true })[j]? = some l' := hl'
        rw [List.getElem?_modify] at hj
        obtain ⟨l, hl, rfl⟩ := Option.map_eq_some_iff.mp hj
        refine ⟨l, hl, ?_⟩
        split_ifs <;> exact ⟨rfl, rfl, rfl, rfl⟩
      · dsimp only
        split
        · exact List.erase_sublist
        · exact .refl _
      · have hp : s.isRetired p = false := hun.isRetired_eq_false hp
        have hc : s.isRetired c = false := hun.isRetired_eq_false hc
        show List.countP (s.leads p c) _ = _
        dsimp only
        split
        next source target hs ht =>
          refine countP_erase_of_not ?_ _
          rw [Bool.eq_false_iff]
          intro hleads
          rw [leads, ho.stream _ _ (ho.stream_lt hsource) hs,
            ho.stream _ _ (ho.stream_lt htarget) ht] at hleads
          simp only [Option.some.injEq, Bool.and_eq_true, decide_eq_true_eq] at hleads
          obtain ⟨rfl, rfl⟩ := hleads
          rcases hretired with hr | hr
          · rw [hr] at hp
            cases hp
          · rw [hr] at hc
            cases hc
        next => rfl

theorem withdraws_linkClosed : Withdraws s (linkClosed stream s i) := by
  unfold linkClosed
  split
  next => exact .refl s
  next link hlink =>
    have hsome : ∀ l, s.links[i]? = some l → l = link := by
      intro l hl
      rw [hlink, Option.some.injEq] at hl
      exact hl.symm
    -- the stream as the source of the connection
    have hsource : Withdraws s (if link.source = stream then s.disconnect i else s) := by
      split_ifs with hs
      · exact withdraws_disconnect ho hleft i fun l hl => .inl (hsome l hl ▸ hs)
      · exact .refl s
    generalize (if link.source = stream then s.disconnect i else s) = left at hsource
    simp only
    split_ifs with ht
    · have htarget : ∀ l, left.links[i]? = some l → l.source = stream ∨ l.target = stream := by
        intro l hl
        obtain ⟨l₀, hl₀, -, -, -, heq⟩ := hsource.links i l hl
        exact .inr (heq.trans (hsome l₀ hl₀ ▸ ht))
      exact ((hsource.trans (withdraws_disconnect (hsource.owned ho) (hleft.of_withdraws hsource) i
        htarget)).trans (withdraws_retire _)).trans withdraws_onUpdate
    · exact hsource

theorem withdraws_linkFailed : Withdraws s (linkFailed stream s i) := by
  unfold linkFailed
  split
  next => exact .refl s
  next link hlink =>
    split_ifs with hs
    · refine ((withdraws_disconnect ho hleft i fun l hl => .inl ?_).trans
        (withdraws_retire link.provider)).trans withdraws_onUpdate
      rw [hlink, Option.some.injEq] at hl
      exact hl ▸ hs
    · exact .refl s

end

theorem withdraws_listeners {f : ServiceDiscovery → ℕ → ServiceDiscovery} {stream : ℕ}
    (hf : ∀ s : ServiceDiscovery, s.Owned → s.Left stream → ∀ i, Withdraws s (f s i))
    (is : List ℕ) (ho : s.Owned) (hleft : s.Left stream) : Withdraws s (is.foldl f s) := by
  induction is generalizing s with
  | nil => exact .refl s
  | cons i is ih =>
    have hi := hf s ho hleft i
    exact hi.trans (ih (hi.owned ho) (hleft.of_withdraws hi))

theorem withdraws_unpipe {stream : ℕ} (hleft : s.Left stream) (q : ℕ × ℕ → Bool)
    (hq : ∀ e, e.1 ≠ stream → e.2 ≠ stream → q e = true) :
    Withdraws s { s with piped := s.piped.filter q } := by
  refine { Withdraws.refl s with
    piped := List.filter_sublist
    kept := fun p c hp hc => ?_ }
  show List.countP (s.leads p c) (s.piped.filter q) = s.piped.countP (s.leads p c)
  rw [List.countP_filter]
  refine List.countP_congr fun e _ => ?_
  rw [Bool.and_eq_true, and_iff_left_iff_imp]
  intro hleads
  rw [leads, Bool.and_eq_true, decide_eq_true_eq, decide_eq_true_eq] at hleads
  refine hq e (fun he => ?_) fun he => ?_
  · have hr : s.isRetired p = true := hleft p (he ▸ hleads.1)
    have hp : s.isRetired p = false := hp
    rw [hr] at hp
    cases hp
  · have hr : s.isRetired c = true := hleft c (he ▸ hleads.2)
    have hc : s.isRetired c = false := hc
    rw [hr] at hc
    cases hc

theorem left_retire {stream owner : ℕ} (h : s.streams[stream]? = some owner) :
    (s.retire owner).onUpdate.Left stream := by
  refine Left.of_withdraws (s := s.retire owner) ?_ withdraws_onUpdate
  intro owner' howner'
  have heq : s.streams[stream]? = some owner' := howner'
  rw [h, Option.some.injEq] at heq
  exact heq ▸ isRetired_retire owner

theorem withdraws_streamClosed (ho : s.Owned) (stream : ℕ) :
    Withdraws s (s.streamClosed stream) := by
  unfold streamClosed
  split
  next => exact .refl s
  next owner howner =>
    have hretire : Withdraws s (s.retire owner).onUpdate :=
      (withdraws_retire owner).trans withdraws_onUpdate
    have hleft := left_retire howner
    have hlinks := withdraws_listeners
      (fun _ ho hleft i => withdraws_linkClosed ho hleft i)
      (List.range s.links.length) (hretire.owned ho) hleft
    refine (hretire.trans hlinks).trans (withdraws_unpipe (hleft.of_withdraws hlinks) _ ?_)
    intro e h1 h2
    simp [h1, h2]

theorem withdraws_streamFailed (ho : s.Owned) (stream : ℕ) :
    Withdraws s (s.streamFailed stream) := by
  unfold streamFailed
  split
  next => exact .refl s
  next owner howner =>
    have hretire : Withdraws s (s.retire owner).onUpdate :=
      (withdraws_retire owner).trans withdraws_onUpdate
    have hleft := left_retire howner
    have hlinks := withdraws_listeners
      (fun _ ho hleft i => withdraws_linkFailed ho hleft i)
      (List.range s.links.length) (hretire.owned ho) hleft
    refine (hretire.trans hlinks).trans (withdraws_unpipe (hleft.of_withdraws hlinks) _ ?_)
    intro e _ h2
    simp [h2]

/-! ### Calls -/

theorem withdraws_unregister (i : ℕ) : Withdraws s (s.unregister i) := by
  unfold unregister
  split_ifs
  · exact (withdraws_retire i).trans (withdraws_onTopicUpdate _)
  · exact .refl s

theorem withdraws_requestClosed (i : ℕ) : Withdraws s (s.requestClosed i) := by
  unfold requestClosed
  split_ifs
  · exact (withdraws_retire i).trans withdraws_onUpdate
  · exact .refl s

theorem withdraws_deleteTopic (topicName : String) : Withdraws s (s.deleteTopic topicName) := by
  unfold deleteTopic
  split
  next => exact .refl s
  next topic _ =>
    exact (Withdraws.foldl retire (fun _ i => withdraws_retire i) topic.actors s).trans
      (withdraws_onTopicUpdate _)

end Withdrawing

end ServiceDiscovery

end TransformHub.Manager
