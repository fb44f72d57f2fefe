import Mathlib.Data.List.Infix
import TransformHub.Manager.TopicConnections

/-!
# What the worker connects

The steps of a `ServiceDiscovery` that bring a pipe, a task or an actor.
-/

namespace TransformHub.Manager

namespace ServiceDiscovery

/-! ## Steps that connect -/

def Task.awaited (t : Task) : ℕ :=
  match t.awaits with
  | .provider => t.provider
  | .consumer => t.consumer

/-- What `connectoTo` does: nothing between actors of one hub, else a task or a pipe. -/
inductive Connected (s : ServiceDiscovery) (pass provider consumer : ℕ) (o : ServiceDiscovery) : Prop
  | same (host : s.sameHost provider consumer = true) (eq : o = s)
  | waits (task : Task) (host : s.sameHost provider consumer = false)
      (made : task.pass = pass ∧ task.provider = provider ∧ task.consumer = consumer)
      (needs : s.needsStream (Task.awaited task) = true)
      (ready : task.awaits = .consumer → (s.streamOf provider).isSome)
      (eq : o = { s with tasks := s.tasks ++ [task] })
  | pipes (source target : ℕ) (host : s.sameHost provider consumer = false)
      (source_eq : s.streamOf provider = some source)
      (target_eq : s.streamOf consumer = some target)
      (eq : o = { s with
        links := s.links ++ [⟨provider, consumer, source, target, false⟩]
        piped := s.piped ++ [(source, target)] })

section Connecting

variable {s : ServiceDiscovery} {pass p c : ℕ}

theorem streamOf_isSome (ho : s.Owned) (hi : p < s.actorCount) (h : s.needsStream p = false) :
    (s.streamOf p).isSome := by
  cases htype : (s.actors p).type with
  | api => exact ho.api p hi htype
  | host id => simpa [needsStream, TopicActor.isHost, htype] using h

theorem pipe_eq {source target : ℕ} (hs : s.streamOf p = some source)
    (ht : s.streamOf c = some target) :
    s.pipe p c = { s with
      links := s.links ++ [⟨p, c, source, target, false⟩]
      piped := s.piped ++ [(source, target)] } := by
  rw [pipe, hs, ht]

theorem connectConsumer_connected (ho : s.Owned) (hc : c < s.actorCount)
    (hhost : s.sameHost p c = false) (hp : (s.streamOf p).isSome) :
    s.Connected pass p c (s.connectConsumer pass p c) := by
  unfold connectConsumer
  split_ifs with hneeds
  · exact .waits ⟨pass, p, c, .consumer⟩ hhost ⟨rfl, rfl, rfl⟩ hneeds (fun _ => hp) rfl
  · obtain ⟨source, hs⟩ := Option.isSome_iff_exists.mp hp
    obtain ⟨target, ht⟩ := Option.isSome_iff_exists.mp
      (streamOf_isSome ho hc (Bool.eq_false_iff.mpr hneeds))
    exact .pipes source target hhost hs ht (pipe_eq hs ht)

theorem connectoTo_connected (ho : s.Owned) (hp : p < s.actorCount) (hc : c < s.actorCount) :
    s.Connected pass p c (s.connectoTo pass p c) := by
  unfold connectoTo
  split_ifs with hhost hneeds
  · exact .same hhost rfl
  · exact .waits ⟨pass, p, c, .provider⟩ (Bool.eq_false_iff.mpr hhost) ⟨rfl, rfl, rfl⟩ hneeds
      nofun rfl
  · exact connectConsumer_connected ho hc (Bool.eq_false_iff.mpr hhost)
      (streamOf_isSome ho hp (Bool.eq_false_iff.mpr hneeds))

/-- The pair, as a number. -/
def hit (p c p' c' : ℕ) : ℕ := if p = p' ∧ c = c' then 1 else 0

theorem Owned.leads_self (ho : s.Owned) (hp : p < s.actorCount) (hc : c < s.actorCount)
    {source target : ℕ} (hs : s.streamOf p = some source) (ht : s.streamOf c = some target)
    (p' c' : ℕ) : s.leads p' c' (source, target) = decide (p = p' ∧ c = c') := by
  rw [leads, ho.stream p source hp hs, ho.stream c target hc ht]
  simp [Bool.decide_and]

section

variable {o : ServiceDiscovery} (h : s.Connected pass p c o) (ho : s.Owned) (hp : p < s.actorCount)
  (hc : c < s.actorCount)
include h ho hp hc

theorem Connected.load (p' c' : ℕ) :
    o.load p' c' = s.load p' c' + if s.sameHost p c = true then 0 else hit p c p' c' := by
  cases h with
  | same host eq => rw [eq, if_pos host, Nat.add_zero]
  | waits task host made needs ready eq =>
    obtain ⟨-, hprovider, hconsumer⟩ := made
    have hpipes : o.pipes p' c' = s.pipes p' c' := by rw [eq]; rfl
    have hflight : o.inFlight p' c' = s.inFlight p' c' + hit p c p' c' := by
      rw [eq]
      simp only [inFlight, List.countP_append, List.countP_singleton, hprovider, hconsumer, hit,
        Bool.and_eq_true, decide_eq_true_eq]
    rw [if_neg (by simp [host]), ServiceDiscovery.load, hpipes, hflight, ServiceDiscovery.load]
    omega
  | pipes source target host source_eq target_eq eq =>
    have hleads := ho.leads_self hp hc source_eq target_eq p' c'
    rw [eq, if_neg (by simp [host])]
    simp only [ServiceDiscovery.load, inFlight, ServiceDiscovery.pipes, List.countP_append,
      List.countP_singleton]
    have hsame : ({ s with
        links := s.links ++ [⟨p, c, source, target, false⟩]
        piped := s.piped ++ [(source, target)] } : ServiceDiscovery).leads p' c' =
          s.leads p' c' := rfl
    rw [hsame, hleads]
    simp only [hit, decide_eq_true_eq]
    omega

theorem Connected.owned : o.Owned := by
  cases h with
  | same host eq => exact eq ▸ ho
  | waits task host made needs ready eq =>
    rw [eq]
    refine { ho with tasks := fun t ht => ?_ }
    rcases List.mem_append.mp ht with ht | ht
    · exact ho.tasks t ht
    · rw [List.mem_singleton] at ht
      obtain ⟨-, hprovider, hconsumer⟩ := made
      rw [ht, hprovider, hconsumer]
      exact ⟨hp, hc, host, ready⟩
  | pipes source target host source_eq target_eq eq =>
    have hs := ho.stream p source hp source_eq
    have ht := ho.stream c target hc target_eq
    rw [eq]
    refine { ho with links := fun l hl => ?_, piped := fun e he => ?_ }
    · rcases List.mem_append.mp hl with hl | hl
      · exact ho.links l hl
      · rw [List.mem_singleton] at hl
        rw [hl]
        exact ⟨hs, ht⟩
    · rcases List.mem_append.mp he with he | he
      · exact ho.piped e he
      · rw [List.mem_singleton] at he
        rw [he]
        exact ⟨(List.getElem?_eq_some_iff.mp hs).1, (List.getElem?_eq_some_iff.mp ht).1⟩

end

/-! ### Opened streams -/

theorem streamOf_addStream (i j : ℕ) :
    (s.addStream i).streamOf j = if j = i then some s.streams.length else s.streamOf j := by
  simp only [addStream, update, streamOf]
  split_ifs <;> rfl

theorem sameHost_addStream (i j k : ℕ) : (s.addStream i).sameHost j k = s.sameHost j k := by
  simp only [addStream, update, sameHost, TopicActor.sameHost]
  split_ifs with hj hk hk
  all_goals first | rw [hj, hk] | rw [hj] | rw [hk] | rfl

theorem Owned.addStream (ho : s.Owned) {i : ℕ} (hi : i < s.actorCount) : (s.addStream i).Owned where
  distinct := ho.distinct
  listed := by
    intro t j hj
    refine ⟨(ho.listed t j hj).1, ?_⟩
    rw [← (ho.listed t j hj).2]
    simp only [ServiceDiscovery.addStream, update]
    split_ifs with hij
    · rw [hij]
    · rfl
  stream := by
    intro j k hj hk
    rw [streamOf_addStream] at hk
    show (s.streams ++ [i])[k]? = some j
    split_ifs at hk with hij
    · cases hk
      rw [hij]
      simp
    · have hstream := ho.stream j k hj hk
      exact OrderedMap.getElem?_append_of_some hstream
  api := by
    intro j hj htype
    rw [streamOf_addStream]
    split_ifs with hij
    · rfl
    · refine ho.api j hj ?_
      simpa [ServiceDiscovery.addStream, update, hij] using htype
  owner := by
    intro j hj
    rcases List.mem_append.mp hj with hj | hj
    · exact ho.owner j hj
    · rw [List.mem_singleton] at hj
      exact hj ▸ hi
  links := by
    intro l hl
    obtain ⟨hs, ht⟩ := ho.links l hl
    exact ⟨OrderedMap.getElem?_append_of_some hs, OrderedMap.getElem?_append_of_some ht⟩
  piped := by
    intro e he
    obtain ⟨h1, h2⟩ := ho.piped e he
    show e.1 < (s.streams ++ [i]).length ∧ e.2 < (s.streams ++ [i]).length
    rw [List.length_append]
    omega
  tasks := by
    intro t ht
    obtain ⟨hp, hc, hhost, hready⟩ := ho.tasks t ht
    refine ⟨hp, hc, (sameHost_addStream i _ _).trans hhost, fun hawaits => ?_⟩
    rw [streamOf_addStream]
    split_ifs
    · rfl
    · exact hready hawaits
  groups := ho.groups

theorem load_addStream (ho : s.Owned) (i p c : ℕ) : (s.addStream i).load p c = s.load p c := by
  have hpipes : (s.addStream i).pipes p c = s.pipes p c := by
    refine List.countP_congr fun e he => ?_
    obtain ⟨h1, h2⟩ := ho.piped e he
    show ((s.streams ++ [i])[e.1]? = some p && (s.streams ++ [i])[e.2]? = some c) = true ↔ _
    rw [List.getElem?_append_left h1, List.getElem?_append_left h2]
    rfl
  rw [load, hpipes]
  rfl

theorem countP_eraseIdx {α : Type} {l : List α} {i : ℕ} {a : α} (h : l[i]? = some a)
    (q : α → Bool) : l.countP q = (l.eraseIdx i).countP q + if q a = true then 1 else 0 := by
  induction l generalizing i with
  | nil => cases h
  | cons b l ih =>
    cases i with
    | zero =>
      cases h
      rw [List.eraseIdx_cons_zero, List.countP_cons]
    | succ i =>
      rw [List.eraseIdx_cons_succ, List.countP_cons, List.countP_cons, ih h]
      omega

theorem Owned.eraseTask (ho : s.Owned) (i : ℕ) :
    ({ s with tasks := s.tasks.eraseIdx i } : ServiceDiscovery).Owned :=
  { ho with tasks := fun t ht => ho.tasks t (List.mem_of_mem_eraseIdx ht) }

theorem load_eraseTask {i : ℕ} {t : Task} (h : s.tasks[i]? = some t) (p c : ℕ) :
    s.load p c = ({ s with tasks := s.tasks.eraseIdx i } : ServiceDiscovery).load p c +
      hit t.provider t.consumer p c := by
  have hcount := countP_eraseIdx h fun t => t.provider = p && t.consumer = c
  simp only [load, inFlight, hit, Bool.and_eq_true, decide_eq_true_eq] at hcount ⊢
  rw [hcount]
  show s.pipes p c + _ = s.pipes p c + _ + _
  omega

theorem requestResolved_connected (ho : s.Owned) {i : ℕ} {t : Task} (h : s.tasks[i]? = some t) :
    (({ s with tasks := s.tasks.eraseIdx i } : ServiceDiscovery).addStream
      (Task.awaited t)).Connected t.pass t.provider t.consumer (s.requestResolved i) := by
  obtain ⟨hp, hc, hhost, hready⟩ := ho.tasks t (List.mem_of_getElem? h)
  have hhost' : (({ s with tasks := s.tasks.eraseIdx i } : ServiceDiscovery).addStream
      (Task.awaited t)).sameHost t.provider t.consumer = false :=
    (sameHost_addStream _ _ _).trans hhost
  simp only [requestResolved, h]
  cases hawaits : t.awaits with
  | provider =>
    have hawaited : Task.awaited t = t.provider := by rw [Task.awaited, hawaits]
    rw [hawaited] at hhost' ⊢
    refine connectConsumer_connected ((ho.eraseTask i).addStream hp) hc hhost' ?_
    rw [streamOf_addStream, if_pos rfl]
    rfl
  | consumer =>
    have hawaited : Task.awaited t = t.consumer := by rw [Task.awaited, hawaits]
    rw [hawaited] at hhost' ⊢
    have hsource : ((({ s with tasks := s.tasks.eraseIdx i } : ServiceDiscovery).addStream
        t.consumer).streamOf t.provider).isSome := by
      rw [streamOf_addStream]
      split_ifs
      · rfl
      · exact hready hawaits
    obtain ⟨source, hs⟩ := Option.isSome_iff_exists.mp hsource
    have ht : (({ s with tasks := s.tasks.eraseIdx i } : ServiceDiscovery).addStream
        t.consumer).streamOf t.consumer = some s.streams.length := by
      rw [streamOf_addStream, if_pos rfl]
    exact .pipes source _ hhost' hs ht (pipe_eq hs ht)

theorem load_requestResolved (ho : s.Owned) (i p c : ℕ) :
    (s.requestResolved i).load p c = s.load p c := by
  cases h : s.tasks[i]? with
  | none => simp only [requestResolved, h]
  | some t =>
    obtain ⟨hp, hc, hhost, -⟩ := ho.tasks t (List.mem_of_getElem? h)
    have howned := (ho.eraseTask i).addStream (i := Task.awaited t) (by
      rw [Task.awaited]
      split <;> assumption)
    rw [(requestResolved_connected ho h).load howned hp hc, load_addStream (ho.eraseTask i),
      load_eraseTask h, sameHost_addStream, if_neg (by simpa [sameHost] using hhost)]

end Connecting

/-! ## Actors that count as handled -/

/-- Apart from who counts as handled, the actors are the same. -/
def Alike (s s' : ServiceDiscovery) : Prop :=
  ∀ i, ∃ handled, s'.actors i = { s.actors i with handled := handled }

namespace Alike

variable {s s' s'' : ServiceDiscovery}

section

variable (h : Alike s s')
include h

theorem trans (h' : Alike s' s'') : Alike s s'' := by
  intro i
  obtain ⟨b, hb⟩ := h i
  obtain ⟨b', hb'⟩ := h' i
  exact ⟨b', by rw [hb', hb]⟩

theorem topic (i : ℕ) : (s'.actors i).topic = (s.actors i).topic := by
  obtain ⟨b, hb⟩ := h i
  rw [hb]

theorem role (i : ℕ) : (s'.actors i).role = (s.actors i).role := by
  obtain ⟨b, hb⟩ := h i
  rw [hb]

theorem type (i : ℕ) : (s'.actors i).type = (s.actors i).type := by
  obtain ⟨b, hb⟩ := h i
  rw [hb]

theorem streamOf (i : ℕ) : s'.streamOf i = s.streamOf i := by
  obtain ⟨b, hb⟩ := h i
  rw [ServiceDiscovery.streamOf, hb, ServiceDiscovery.streamOf]

theorem isRetired (i : ℕ) : s'.isRetired i = s.isRetired i := by
  obtain ⟨b, hb⟩ := h i
  rw [ServiceDiscovery.isRetired, hb, ServiceDiscovery.isRetired]

theorem needsStream (i : ℕ) : s'.needsStream i = s.needsStream i := by
  rw [ServiceDiscovery.needsStream, TopicActor.isHost, h.type, h.streamOf]
  rfl

theorem sameHost (i j : ℕ) : s'.sameHost i j = s.sameHost i j := by
  simp only [ServiceDiscovery.sameHost, TopicActor.sameHost, h.type]

end

end Alike

section Handled

variable {s : ServiceDiscovery}

theorem isHandled_setHandled (b : Bool) (i j : ℕ) :
    (s.setHandled b i).isHandled j = if j = i then b else s.isHandled j := by
  simp only [setHandled, update, isHandled]
  split_ifs <;> rfl

theorem alike_setHandled (b : Bool) (i : ℕ) : Alike s (s.setHandled b i) := by
  intro j
  simp only [setHandled, update]
  split_ifs with hj
  · exact ⟨b, by rw [hj]⟩
  · exact ⟨(s.actors j).handled, rfl⟩

theorem Owned.setHandled (ho : s.Owned) (b : Bool) (i : ℕ) : (s.setHandled b i).Owned := by
  have h : Alike s (s.setHandled b i) := alike_setHandled b i
  exact { ho with
    listed := fun t j hj => by
      rw [h.topic]
      exact ho.listed t j hj
    stream := fun j k hj hk => ho.stream j k hj (h.streamOf j ▸ hk)
    api := fun j hj ht => by
      rw [h.streamOf]
      exact ho.api j hj (h.type j ▸ ht)
    tasks := fun t ht => by
      rw [h.sameHost, h.streamOf]
      exact ho.tasks t ht }

end Handled

/-! ## The worker -/

/-- The pairs that the worker connects: a pair is left out when both actors count as handled, and a
consumer that has been connected counts as handled. -/
def considered (handled : ℕ → Bool) : List (ℕ × ℕ) → List (ℕ × ℕ)
  | [] => []
  | pair :: rest =>
    if handled pair.1 && handled pair.2 then considered handled rest
    else pair :: considered (fun i => if i = pair.2 then true else handled i) rest

/-- The task that connecting a pair begins with. -/
def taskOf (s : ServiceDiscovery) (pass : ℕ) (pair : ℕ × ℕ) : Option Task :=
  if s.sameHost pair.1 pair.2 then none
  else if s.needsStream pair.1 then some ⟨pass, pair.1, pair.2, .provider⟩
  else if s.needsStream pair.2 then some ⟨pass, pair.1, pair.2, .consumer⟩
  else none

def connect (pass : ℕ) (s : ServiceDiscovery) (pair : ℕ × ℕ) : ServiceDiscovery :=
  (s.setHandled true pair.2).connectoTo pass pair.1 pair.2

/-- The pairs have been connected, as far as that goes without awaiting a stream. -/
structure Connects (s : ServiceDiscovery) (pass : ℕ) (pairs : List (ℕ × ℕ))
    (s' : ServiceDiscovery) : Prop where
  frame : ∃ actors tasks links piped, s' = { s with actors, tasks, links, piped }
  tasks : s'.tasks = s.tasks ++ pairs.filterMap (s.taskOf pass)
  alike : Alike s s'
  handled : ∀ i, s'.isHandled i = true ↔ s.isHandled i = true ∨ ∃ pair ∈ pairs, pair.2 = i
  owned : s.Owned → s'.Owned
  load : s.Owned → ∀ p c, s'.load p c = s.load p c +
    if s.sameHost p c = true then 0 else pairs.count (p, c)

section Connects

variable {s s' s'' : ServiceDiscovery} {pass : ℕ}

theorem Alike.taskOf (h : Alike s s') : s'.taskOf pass = s.taskOf pass := by
  funext pair
  simp only [ServiceDiscovery.taskOf, h.sameHost, h.needsStream]

theorem Connects.refl (s : ServiceDiscovery) (pass : ℕ) : Connects s pass [] s where
  frame := ⟨_, _, _, _, rfl⟩
  tasks := by simp
  alike := fun _ => ⟨_, rfl⟩
  handled := fun _ => by simp
  owned := fun ho => ho
  load := fun _ _ _ => by simp

theorem Connects.trans {l l' : List (ℕ × ℕ)} (h : Connects s pass l s')
    (h' : Connects s' pass l' s'') : Connects s pass (l ++ l') s'' where
  frame := by
    obtain ⟨_, _, _, _, h⟩ := h.frame
    obtain ⟨_, _, _, _, h'⟩ := h'.frame
    exact ⟨_, _, _, _, by rw [h', h]⟩
  tasks := by
    rw [h'.tasks, h.tasks, h.alike.taskOf, List.filterMap_append, List.append_assoc]
  alike := h.alike.trans h'.alike
  handled := by
    intro i
    rw [h'.handled, h.handled, or_assoc]
    simp only [List.mem_append, or_and_right, exists_or]
  owned := fun ho => h'.owned (h.owned ho)
  load := by
    intro ho p c
    rw [h'.load (h.owned ho), h.load ho, h.alike.sameHost, List.count_append]
    split_ifs <;> omega

theorem connectoTo_tasks (p c : ℕ) :
    (s.connectoTo pass p c).tasks = s.tasks ++ (s.taskOf pass (p, c)).toList := by
  simp only [connectoTo, connectConsumer, pipe, taskOf]
  split_ifs
  · simp
  · rfl
  · rfl
  · split <;> simp

theorem connectoTo_frame (s : ServiceDiscovery) (pass p c : ℕ) :
    ∃ tasks links piped, s.connectoTo pass p c = { s with tasks, links, piped } := by
  simp only [connectoTo, connectConsumer, pipe]
  split_ifs
  · exact ⟨_, _, _, rfl⟩
  · exact ⟨_, _, _, rfl⟩
  · exact ⟨_, _, _, rfl⟩
  · split <;> exact ⟨_, _, _, rfl⟩

theorem connect_connects {pair : ℕ × ℕ} (hp : pair.1 < s.actorCount) (hc : pair.2 < s.actorCount) :
    Connects s pass [pair] (connect pass s pair) := by
  have halike : Alike s (s.setHandled true pair.2) := alike_setHandled true pair.2
  obtain ⟨tasks, links, piped, heq⟩ :=
    connectoTo_frame (s.setHandled true pair.2) pass pair.1 pair.2
  refine ⟨⟨_, tasks, links, piped, heq⟩, ?_, ?_, ?_, ?_, ?_⟩
  · rw [connect, connectoTo_tasks, halike.taskOf]
    rfl
  · refine halike.trans fun i => ⟨((s.setHandled true pair.2).actors i).handled, ?_⟩
    rw [connect, heq]
  · intro i
    have hsame : (connect pass s pair).isHandled i = (s.setHandled true pair.2).isHandled i := by
      rw [connect, heq]
      rfl
    rw [hsame, isHandled_setHandled]
    split_ifs with hi
    · simp [hi]
    · simp [Ne.symm hi]
  · intro ho
    have ho := ho.setHandled true pair.2
    exact (connectoTo_connected ho hp hc).owned ho hp hc
  · intro ho p c
    have ho := ho.setHandled true pair.2
    have hcount : [pair].count (p, c) = hit pair.1 pair.2 p c := by
      rw [List.count_singleton, hit]
      simp only [beq_iff_eq, Prod.ext_iff]
    have hhost : s.sameHost p c = s.sameHost pair.1 pair.2 ∨ hit pair.1 pair.2 p c = 0 := by
      rw [hit]
      split_ifs with h
      · exact .inl (by rw [h.1, h.2])
      · exact .inr rfl
    rw [connect, (connectoTo_connected ho hp hc).load ho hp hc p c, halike.sameHost, hcount]
    show s.load p c + _ = s.load p c + _
    rcases hhost with hhost | hhost
    · rw [hhost]
    · rw [hhost, ite_self, ite_self]

theorem foldl_connect (pairs : List (ℕ × ℕ))
    (h : ∀ pair ∈ pairs, pair.1 < s.actorCount ∧ pair.2 < s.actorCount) :
    Connects s pass pairs (pairs.foldl (connect pass) s) := by
  induction pairs generalizing s with
  | nil => exact .refl s pass
  | cons pair pairs ih =>
    obtain ⟨hp, hc⟩ := h pair List.mem_cons_self
    have hfirst : Connects s pass [pair] (connect pass s pair) := connect_connects hp hc
    refine hfirst.trans (ih fun pair' hpair' => ?_)
    obtain ⟨_, _, _, _, hframe⟩ := hfirst.frame
    rw [hframe]
    exact h pair' (List.mem_cons_of_mem _ hpair')

theorem foldl_consider (pairs : List (ℕ × ℕ)) :
    pairs.foldl (consider pass) s = (considered s.isHandled pairs).foldl (connect pass) s := by
  induction pairs generalizing s with
  | nil => rfl
  | cons pair pairs ih =>
    rw [List.foldl_cons, consider, considered]
    split_ifs with h
    · exact ih
    · have hhandled : (connect pass s pair).isHandled =
          fun i => if i = pair.2 then true else s.isHandled i := by
        obtain ⟨_, _, _, heq⟩ :=
          connectoTo_frame (s.setHandled true pair.2) pass pair.1 pair.2
        funext i
        rw [connect, heq]
        exact isHandled_setHandled true pair.2 i
      rw [List.foldl_cons, ← hhandled]
      exact ih

/-! ### What is left out -/

theorem considered_sublist (handled : ℕ → Bool) (pairs : List (ℕ × ℕ)) :
    (considered handled pairs).Sublist pairs := by
  induction pairs generalizing handled with
  | nil => exact .refl _
  | cons pair pairs ih =>
    rw [considered]
    split_ifs
    · exact (ih _).cons pair
    · exact (ih _).cons_cons pair

/-- A pair whose provider is neither handled nor a consumer is connected. -/
theorem mem_considered {handled : ℕ → Bool} {pairs : List (ℕ × ℕ)} {p c : ℕ} (h : (p, c) ∈ pairs)
    (hp : handled p = false) (hfree : ∀ pair ∈ pairs, pair.2 ≠ p) :
    (p, c) ∈ considered handled pairs := by
  induction pairs generalizing handled with
  | nil => cases h
  | cons pair pairs ih =>
    have hfree' : ∀ pair ∈ pairs, pair.2 ≠ p := fun x hx => hfree x (List.mem_cons_of_mem _ hx)
    rw [considered]
    rcases List.mem_cons.mp h with heq | hmem
    · subst heq
      rw [if_neg (by simp [hp])]
      exact List.mem_cons_self
    · split_ifs
      · exact ih hmem hp hfree'
      · refine List.mem_cons_of_mem _ (ih hmem ?_ hfree')
        rw [if_neg fun hpc => hfree pair List.mem_cons_self hpc.symm, hp]

theorem mem_considered_first {handled : ℕ → Bool} {p c : ℕ} {consumers : List ℕ}
    (rest : List (ℕ × ℕ)) (h : c ∈ consumers) (hc : handled c = false) :
    (p, c) ∈ considered handled ((consumers.map fun consumer => (p, consumer)) ++ rest) := by
  induction consumers generalizing handled with
  | nil => cases h
  | cons consumer consumers ih =>
    rw [List.map_cons, List.cons_append, considered]
    by_cases heq : consumer = c
    · subst heq
      rw [if_neg (by simp [hc])]
      exact List.mem_cons_self
    · have hmem : c ∈ consumers := by
        rcases List.mem_cons.mp h with h | h
        · exact absurd h.symm heq
        · exact h
      split_ifs
      · exact ih hmem hc
      · refine List.mem_cons_of_mem _ (ih hmem ?_)
        rw [if_neg (Ne.symm heq), hc]


end Connects

/-! ### The topic of a worker -/

section Prepare

variable {s : ServiceDiscovery}

theorem actorsOf_set (topicName topicName' : String) (topic : Topic) :
    ({ s with topics := s.topics.set topicName topic } : ServiceDiscovery).actorsOf topicName' =
      if topicName' = topicName then topic.actors else s.actorsOf topicName' := by
  simp only [actorsOf, OrderedMap.get?_set]
  split_ifs <;> simp_all

theorem withdraws_list (topicName : String) (topic : Topic)
    (h : topic.actors.Sublist (s.actorsOf topicName)) :
    Withdraws s { s with topics := s.topics.set topicName topic } := by
  refine { Withdraws.refl s with listed := fun t => ?_, kept := fun _ _ _ _ => rfl }
  rw [actorsOf_set]
  split_ifs with ht
  · exact ht ▸ h
  · exact .refl _

theorem withdraws_delete (topicName : String) :
    Withdraws s { s with topics := s.topics.delete topicName } := by
  refine { Withdraws.refl s with listed := fun t => ?_, kept := fun _ _ _ _ => rfl }
  simp only [actorsOf, OrderedMap.get?_delete]
  split_ifs
  · exact List.nil_sublist _
  · exact .refl _

theorem withdraws_prepare {topicName : String} {topic : Topic}
    (h : s.topics.get? topicName = some topic) : Withdraws s (s.prepare topicName topic) := by
  have hlist : topic.actors = s.actorsOf topicName := by rw [actorsOf, h]
  have hkept : (topic.actors.filter fun i => !s.isRetired i).Sublist (s.actorsOf topicName) := by
    rw [← hlist]
    exact List.filter_sublist
  have hlisted := withdraws_list topicName
    { topic with actors := topic.actors.filter fun i => !s.isRetired i } hkept
  have hdiscard := fun (is : List ℕ) (s : ServiceDiscovery) =>
    Withdraws.foldl discard (fun _ i => withdraws_discard i) is s
  have hunhandle := fun (is : List ℕ) (s : ServiceDiscovery) =>
    Withdraws.foldl (setHandled · false ·) (fun _ i => withdraws_unhandle i) is s
  simp only [prepare]
  split_ifs
  · exact (hlisted.trans (hdiscard _ _)).trans (hunhandle _ _)
  · exact hlisted.trans (hunhandle _ _)
  · exact hlisted.trans (hdiscard _ _)
  · exact hlisted

theorem connectAll_connects (ho : s.Owned) (topicName : String) :
    ∃ s', Connects s s.passes (considered s.isHandled
        (pairs (s.findRole .provider topicName) (s.findRole .consumer topicName))) s' ∧
      s.connectAll topicName = { s' with
        groups := s.groups ++ (s.findRole .provider topicName).map fun p => ⟨s.passes, p⟩
        pass := some s.passes
        passes := s.passes + 1 } := by
  refine ⟨_, ?_, rfl⟩
  rw [foldl_consider]
  refine foldl_connect _ fun pair hpair => ?_
  have hmem := (considered_sublist _ _).subset hpair
  simp only [pairs, List.mem_flatMap, List.mem_map, findRole_eq, List.mem_filter] at hmem
  obtain ⟨p, ⟨hp, -⟩, c, ⟨hc, -⟩, rfl⟩ := hmem
  exact ⟨(ho.listed _ p hp).1, (ho.listed _ c hc).1⟩

theorem continueUpdate_cases (s : ServiceDiscovery) :
    s.continueUpdate = s ∨
    (s.topicUpdateRunning = true ∧ s.pass = none ∧ s.remaining = [] ∧
      s.continueUpdate = { s with topicUpdateRunning := false }.runTopicUpdate) ∨
    ∃ topicName remaining, s.topicUpdateRunning = true ∧ s.pass = none ∧
      s.remaining = topicName :: remaining ∧
      s.continueUpdate = { s with remaining }.onTopicUpdateWorker topicName := by
  unfold continueUpdate
  split_ifs with h
  · cases hr : s.remaining with
    | nil => exact .inr (.inl ⟨h.1, h.2, rfl, rfl⟩)
    | cons topicName remaining => exact .inr (.inr ⟨topicName, remaining, h.1, h.2, rfl, rfl⟩)
  · exact .inl rfl

theorem onTopicUpdateWorker_cases (s : ServiceDiscovery) (topicName : String) :
    Withdraws s (s.onTopicUpdateWorker topicName) ∧
        (s.onTopicUpdateWorker topicName).actorsOf topicName = [] ∨
      ∃ topic, s.topics.get? topicName = some topic ∧
        s.onTopicUpdateWorker topicName = (s.prepare topicName topic).connectAll topicName := by
  cases h : s.topics.get? topicName with
  | none =>
    refine .inl ⟨?_, ?_⟩
    · simp only [onTopicUpdateWorker, h]
      exact .refl s
    · simp only [onTopicUpdateWorker, h, actorsOf]
  | some topic =>
    by_cases hretired : (topic.actors.filter fun i => !s.isRetired i) = []
    · refine .inl ?_
      simp only [onTopicUpdateWorker, h, if_pos hretired]
      exact ⟨withdraws_delete topicName, by simp [actorsOf]⟩
    · refine .inr ⟨topic, rfl, ?_⟩
      simp only [onTopicUpdateWorker, h, if_neg hretired]

theorem withdraws_endUpdate (hpass : s.pass = none) (h : s.remaining = []) :
    Withdraws s { s with topicUpdateRunning := false }.runTopicUpdate := by
  have hended : Withdraws s { s with topicUpdateRunning := false } := by
    refine { Withdraws.refl s with
      pending := fun t ht => ?_
      running := fun hne => absurd hpass hne
      kept := fun _ _ _ _ => rfl }
    rcases ht with ht | ⟨-, ht⟩
    · exact .inl ht
    · rw [h] at ht
      cases ht
  exact hended.trans withdraws_runTopicUpdate

end Prepare

/-! ## Registration -/

/-- There is a new actor, which is listed under its topic or not. -/
structure Registers (s : ServiceDiscovery) (topicName : String) (role : ActorRole)
    (type : ActorType) (s' : ServiceDiscovery) : Prop where
  frame : ∃ actors streams topics, s' =
    { s with actors, actorCount := s.actorCount + 1, streams, topics }
  old : ∀ i < s.actorCount, s'.actors i = s.actors i
  topic : (s'.actors s.actorCount).topic = topicName
  role : (s'.actors s.actorCount).role = role
  type : (s'.actors s.actorCount).type = type
  unhandled : s'.isHandled s.actorCount = false
  live : s'.isRetired s.actorCount = false
  listed : ∀ t, s'.actorsOf t = s.actorsOf t ∨
    t = topicName ∧ s'.actorsOf t = s.actorsOf t ++ [s.actorCount]
  stream : (∃ id, (s'.actors s.actorCount).type = .host id) ∧ s'.streams = s.streams ∧
      s'.streamOf s.actorCount = none ∨
    s'.streams = s.streams ++ [s.actorCount] ∧ s'.streamOf s.actorCount = some s.streams.length

section Registers

variable {s s' : ServiceDiscovery} {topicName : String} {role : ActorRole} {type : ActorType}

theorem actorsOf_createTopic {contentType : String}
    (h : s.createTopic topicName contentType = some s') :
    (∃ topics, s' = { s with topics }) ∧ ∀ t, s'.actorsOf t = s.actorsOf t := by
  unfold createTopic at h
  split at h
  next existing _ =>
    split_ifs at h
    cases h
    exact ⟨⟨_, rfl⟩, fun _ => rfl⟩
  next hnone =>
    cases h
    refine ⟨⟨_, rfl⟩, fun t => ?_⟩
    rw [actorsOf_set]
    split_ifs with ht
    · rw [ht, actorsOf, hnone]
    · rfl

theorem actorsOf_addActor (topicName : String) (role : ActorRole) (type : ActorType)
    (contentType t : String) :
    (s.addActor topicName role type contentType).actorsOf t = s.actorsOf t := by
  cases type <;> rfl

theorem addActor_registers (s : ServiceDiscovery) (topicName : String) (role : ActorRole)
    (type : ActorType) (contentType : String) :
    Registers s topicName role type (s.addActor topicName role type contentType) := by
  cases type with
  | host id =>
    refine ⟨⟨_, _, _, rfl⟩, fun i hi => ?_, ?_, ?_, ?_, ?_, ?_, fun _ => .inl rfl,
      .inl ⟨⟨id, ?_⟩, rfl, ?_⟩⟩
    · have hne : i ≠ s.actorCount := Nat.ne_of_lt hi
      simp [addActor, update, hne]
    all_goals simp [addActor, update, isHandled, isRetired, streamOf]
  | api =>
    refine ⟨⟨_, _, _, rfl⟩, fun i hi => ?_, ?_, ?_, ?_, ?_, ?_, fun _ => .inl rfl,
      .inr ⟨rfl, ?_⟩⟩
    · have hne : i ≠ s.actorCount := Nat.ne_of_lt hi
      simp [addActor, addStream, update, hne]
    all_goals simp [addActor, addStream, update, isHandled, isRetired, streamOf]

theorem Registers.list (h : Registers s topicName role type s') {topic : Topic}
    (hlist : s.actorsOf topicName = topic.actors) :
    Registers s topicName role type { s' with
      topics := s'.topics.set topicName
        { topic with actors := topic.actors ++ [s.actorCount] } } := by
  obtain ⟨actors, streams, topics, hframe⟩ := h.frame
  refine ⟨⟨actors, streams, s'.topics.set topicName
    { topic with actors := topic.actors ++ [s.actorCount] }, by rw [hframe]⟩,
    h.old, h.topic, h.role, h.type, h.unhandled, h.live, fun t => ?_, h.stream⟩
  · rw [actorsOf_set]
    split_ifs with ht
    · exact .inr ⟨ht, by rw [ht, hlist]⟩
    · exact (h.listed t).imp_right fun h => absurd h.1 ht

theorem register_cases (s : ServiceDiscovery) (topicName : String) (role : ActorRole)
    (type : ActorType) (contentType : String) :
    s.register topicName role type contentType = s ∨
      ∃ s', Registers s topicName role type s' ∧
        s.register topicName role type contentType = s'.onTopicUpdate topicName := by
  unfold register
  cases hcreated : s.createTopic topicName contentType with
  | none => exact .inl rfl
  | some created =>
    obtain ⟨⟨topics, rfl⟩, hlisted⟩ := actorsOf_createTopic hcreated
    have h := addActor_registers { s with topics } topicName role type contentType
    have hadded : Registers s topicName role type
        (({ s with topics } : ServiceDiscovery).addActor topicName role type contentType) := by
      obtain ⟨_, _, _, hframe⟩ := h.frame
      exact ⟨⟨_, _, _, hframe⟩, h.old, h.topic, h.role, h.type, h.unhandled, h.live,
        fun t => hlisted t ▸ h.listed t, h.stream⟩
    refine .inr ⟨_, ?_, rfl⟩
    split_ifs
    · exact hadded
    · split
      next => exact hadded
      next topic hget =>
        refine hadded.list ?_
        rw [← hlisted, ← actorsOf_addActor topicName role type contentType, actorsOf, hget]
section

variable (h : Registers s topicName role type s')
include h

theorem Registers.streams_isPrefix : s.streams <+: s'.streams := by
  rcases h.stream with ⟨-, hstreams, -⟩ | ⟨hstreams, -⟩
  · rw [hstreams]
  · rw [hstreams]
    exact List.prefix_append _ _

theorem Registers.getElem? {k i : ℕ}
    (hk : s.streams[k]? = some i) : s'.streams[k]? = some i := by
  obtain ⟨l, hl⟩ := h.streams_isPrefix
  rw [← hl]
  exact OrderedMap.getElem?_append_of_some hk

theorem Registers.streamOf {i : ℕ}
    (hi : i < s.actorCount) :
    s'.streamOf i = s.streamOf i := by
  rw [ServiceDiscovery.streamOf, h.old i hi, ServiceDiscovery.streamOf]

theorem Registers.owned (ho : s.Owned) : s'.Owned := by
  have hold : ∀ i < s.actorCount, s'.actors i = s.actors i := h.old
  obtain ⟨_, _, _, hframe⟩ := h.frame
  have hcount : s'.actorCount = s.actorCount + 1 := by rw [hframe]
  have hlinks : s'.links = s.links := by rw [hframe]
  have hpiped : s'.piped = s.piped := by rw [hframe]
  have htasks : s'.tasks = s.tasks := by rw [hframe]
  have hgroups : s'.groups = s.groups := by rw [hframe]
  constructor
  case listed =>
    intro t i hi
    have holdi : i ∈ s.actorsOf t → i < s'.actorCount ∧ (s'.actors i).topic = t := by
      intro hi
      obtain ⟨hlt, ht⟩ := ho.listed t i hi
      rw [hold i hlt, hcount]
      exact ⟨by omega, ht⟩
    rcases h.listed t with heq | ⟨ht, heq⟩
    · exact holdi (heq ▸ hi)
    · rw [heq, List.mem_append, List.mem_singleton] at hi
      rcases hi with hi | rfl
      · exact holdi hi
      · rw [hcount, ht]
        exact ⟨by omega, h.topic⟩
  case distinct =>
    intro t
    rcases h.listed t with heq | ⟨-, heq⟩
    · exact heq ▸ ho.distinct t
    · rw [heq, ← List.concat_eq_append]
      refine (ho.distinct t).concat fun hmem => ?_
      exact absurd (ho.listed t _ hmem).1 (Nat.lt_irrefl _)
  case stream =>
    intro i k hi hk
    by_cases hlt : i < s.actorCount
    · rw [h.streamOf hlt] at hk
      exact h.getElem? (ho.stream i k hlt hk)
    · obtain rfl : i = s.actorCount := by omega
      rcases h.stream with ⟨-, -, hnone⟩ | ⟨hstreams, hsome⟩
      · rw [hnone] at hk
        cases hk
      · rw [hsome, Option.some.injEq] at hk
        rw [hstreams, ← hk]
        simp
  case api =>
    intro i hi htype
    by_cases hlt : i < s.actorCount
    · rw [h.streamOf hlt]
      exact ho.api i hlt (hold i hlt ▸ htype)
    · obtain rfl : i = s.actorCount := by omega
      rcases h.stream with ⟨⟨id, hhost⟩, -, -⟩ | ⟨-, hsome⟩
      · rw [hhost] at htype
        cases htype
      · rw [hsome]
        rfl
  case owner =>
    intro i hi
    rw [hcount]
    rcases h.stream with ⟨-, hstreams, -⟩ | ⟨hstreams, -⟩
    · have := ho.owner i (hstreams ▸ hi)
      omega
    · rw [hstreams, List.mem_append, List.mem_singleton] at hi
      rcases hi with hi | rfl
      · have := ho.owner i hi
        omega
      · omega
  case links =>
    intro l hl
    obtain ⟨hs, ht⟩ := ho.links l (hlinks ▸ hl)
    exact ⟨h.getElem? hs, h.getElem? ht⟩
  case piped =>
    intro e he
    obtain ⟨h1, h2⟩ := ho.piped e (hpiped ▸ he)
    have hlength := h.streams_isPrefix.length_le
    omega
  case tasks =>
    intro t ht
    obtain ⟨hp, hc, hhost, hready⟩ := ho.tasks t (htasks ▸ ht)
    refine ⟨by omega, by omega, ?_, fun hawaits => ?_⟩
    · rw [sameHost, hold _ hp, hold _ hc]
      exact hhost
    · rw [h.streamOf hp]
      exact hready hawaits
  case groups =>
    intro g hg
    have := ho.groups g (hgroups ▸ hg)
    omega

theorem Registers.load (ho : s.Owned) (p c : ℕ) : s'.load p c = s.load p c := by
  obtain ⟨l, hl⟩ := h.streams_isPrefix
  have htasks : s'.inFlight p c = s.inFlight p c := by
    obtain ⟨_, _, _, hframe⟩ := h.frame
    rw [hframe]
    rfl
  have hpiped : s'.piped = s.piped := by
    obtain ⟨_, _, _, hframe⟩ := h.frame
    rw [hframe]
  have hpipes : s'.pipes p c = s.pipes p c := by
    rw [pipes, hpiped]
    refine List.countP_congr fun e he => ?_
    obtain ⟨h1, h2⟩ := ho.piped e he
    rw [leads, ← hl, List.getElem?_append_left h1, List.getElem?_append_left h2, leads]
  rw [ServiceDiscovery.load, hpipes, htasks, ServiceDiscovery.load]

end

end Registers

/-! ## Every step -/

section Every

variable {s : ServiceDiscovery}

theorem Owned.connectAll (ho : s.Owned) (topicName : String) : (s.connectAll topicName).Owned := by
  obtain ⟨s', hconnects, heq⟩ := connectAll_connects ho topicName
  obtain ⟨_, _, _, _, hframe⟩ := hconnects.frame
  have hcount : s'.actorCount = s.actorCount := by rw [hframe]
  rw [heq]
  refine { hconnects.owned ho with groups := fun g hg => ?_ }
  show g.provider < s'.actorCount
  rw [hcount]
  rcases List.mem_append.mp hg with hg | hg
  · exact ho.groups g hg
  · obtain ⟨p, hp, rfl⟩ := List.mem_map.mp hg
    rw [findRole_eq] at hp
    exact (ho.listed _ p (List.mem_of_mem_filter hp)).1

theorem Owned.onTopicUpdateWorker (ho : s.Owned) (topicName : String) :
    (s.onTopicUpdateWorker topicName).Owned := by
  rcases onTopicUpdateWorker_cases s topicName with ⟨h, -⟩ | ⟨topic, hget, heq⟩
  · exact h.owned ho
  · rw [heq]
    exact ((withdraws_prepare hget).owned ho).connectAll topicName

theorem Owned.next (ho : s.Owned) (a : Action) : (s.next a).Owned := by
  cases a with
  | register topicName role type contentType =>
    show (s.register topicName role type contentType).Owned
    rcases register_cases s topicName role type contentType with heq | ⟨s', h, heq⟩
    · rw [heq]
      exact ho
    · rw [heq]
      exact (withdraws_onTopicUpdate topicName).owned (h.owned ho)
  | unregister actor => exact (withdraws_unregister actor).owned ho
  | requestClosed actor => exact (withdraws_requestClosed actor).owned ho
  | createTopic topicName contentType =>
    show ((s.createTopic topicName contentType).getD s).Owned
    cases h : s.createTopic topicName contentType with
    | none => exact ho
    | some s' =>
      obtain ⟨⟨topics, rfl⟩, hlisted⟩ := actorsOf_createTopic h
      exact { ho with
        listed := fun t i hi => ho.listed t i (hlisted t ▸ hi)
        distinct := fun t => hlisted t ▸ ho.distinct t }
  | deleteTopic topicName => exact (withdraws_deleteTopic topicName).owned ho
  | update => exact withdraws_onUpdate.owned ho
  | streamClosed stream => exact (withdraws_streamClosed ho stream).owned ho
  | streamFailed stream => exact (withdraws_streamFailed ho stream).owned ho
  | continueUpdate =>
    show s.continueUpdate.Owned
    rcases continueUpdate_cases s with heq | ⟨-, hpass, hnil, heq⟩ | ⟨t, rest, -, -, -, heq⟩
    · rw [heq]
      exact ho
    · rw [heq]
      exact (withdraws_endUpdate hpass hnil).owned ho
    · rw [heq]
      exact Owned.onTopicUpdateWorker (s := { s with remaining := rest }) { ho with } t
  | requestResolved task =>
    show (s.requestResolved task).Owned
    cases h : s.tasks[task]? with
    | none => simpa only [requestResolved, h] using ho
    | some t =>
      obtain ⟨hp, hc, -⟩ := ho.tasks t (List.mem_of_getElem? h)
      have howned := (ho.eraseTask task).addStream (i := Task.awaited t) (by
        rw [Task.awaited]
        split <;> assumption)
      exact (requestResolved_connected ho h).owned howned hp hc
  | requestFailed task =>
    show (s.requestFailed task).Owned
    unfold requestFailed
    split
    next => exact ho
    next => exact { ho.eraseTask task with
      groups := fun g hg => ho.groups g (List.mem_of_mem_filter hg) }
  | groupResolved group =>
    show (s.groupResolved group).Owned
    unfold groupResolved
    split_ifs
    · exact Owned.setHandled (s := { s with groups := s.groups.filter fun g => g ≠ group })
        { ho with groups := fun g hg => ho.groups g (List.mem_of_mem_filter hg) } _ _
    · exact ho
  | passResolved =>
    show s.passResolved.Owned
    unfold passResolved
    split
    next => split_ifs <;> exact { ho with }
    next => exact ho

end Every

end ServiceDiscovery

end TransformHub.Manager
