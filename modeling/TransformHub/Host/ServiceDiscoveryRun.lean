import TransformHub.Host.ServiceDiscovery
import TransformHub.Host.TopicIngress

/-!
# Runs of the topics of a Host

A topic enters the map with a content type that the API has checked, with the one that an instance
has sent, or with none, where an instance that ends looks up a topic that is gone.
-/

namespace TransformHub.Host

open OrderedMap

/-! ## Streams -/

namespace Topic

/-- The event makes `failPendingIngress` destroy the topic. -/
def fails (t : Topic) : Event → Bool
  | .sourceError p => !((t.sources p).errored || (t.sources p).closed) && t.holdsFor p
  | .sourceClose p => !(t.sources p).closed && t.holdsFor p && !(t.sources p).readableEnded
  | .sourceAborted p => !(t.sources p).closed && t.holdsFor p
  | _ => false

theorem destroyed_write (t : Topic) (source : Option ℕ) (added : Bool) (bytes : List UInt8) :
    (t.write source added bytes).destroyed = t.destroyed := by
  unfold write
  split_ifs <;> rfl

theorem destroyed_addNewlines (t : Topic) (p : ℕ) : (t.addNewlines p).destroyed = t.destroyed := by
  unfold addNewlines
  generalize (t.sources p).lastChunks = lastChunks
  induction lastChunks generalizing t with
  | nil => rfl
  | cons lastChunk lastChunks ih =>
    rw [List.foldl_cons, ih]
    split_ifs
    · rfl
    · exact destroyed_write t _ _ _

theorem destroyed_serve (t : Topic) : t.serve.destroyed = t.destroyed := by
  unfold serve
  split <;> rfl

theorem destroyed_acceptPipe (t : Topic) (p : ℕ) : (t.acceptPipe p).destroyed = t.destroyed := by
  unfold acceptPipe consumePipe
  split_ifs
  · rfl
  · exact destroyed_serve _

theorem destroyed_resume (t : Topic) : t.resume.destroyed = t.destroyed := by
  unfold resume
  split
  · exact destroyed_serve _
  · rfl

theorem destroyed_sourceData (t : Topic) (p : ℕ) (bytes : List UInt8) :
    (t.sourceData p bytes).destroyed = t.destroyed := by
  unfold sourceData
  split_ifs
  · rfl
  · exact destroyed_write t _ _ _
  · rfl

theorem destroyed_sourceEnd (t : Topic) (p : ℕ) : (t.sourceEnd p).destroyed = t.destroyed := by
  unfold sourceEnd
  split_ifs
  · rfl
  · exact destroyed_addNewlines _ p

theorem destroyed_failPendingIngress {t : Topic} {p : ℕ} (h : t.holdsFor p = true) :
    t.failPendingIngress.destroyed = true := by
  unfold holdsFor at h
  unfold failPendingIngress
  split
  next hnone =>
    rw [hnone] at h
    cases h
  · rfl

theorem destroyed_failing (t : Topic) (p : ℕ) {fails : Bool}
    (h : fails = true → t.holdsFor p = true) :
    (if fails then t.failPendingIngress else t).destroyed = (t.destroyed || fails) := by
  cases fails with
  | true =>
    rw [if_pos rfl, Bool.or_true]
    exact destroyed_failPendingIngress (h rfl)
  | false => exact (Bool.or_false _).symm

theorem destroyed_next (t : Topic) (e : Event) :
    (t.next e).destroyed = (t.destroyed || t.fails e) := by
  have hqueue (t' : Topic) (h : t'.queue = t.queue) : t'.destroyed = (t.destroyed || false) := by
    rw [Bool.or_false]
    exact congrArg Queue.destroyed h
  cases e with
  | acceptPipe p => exact (destroyed_acceptPipe t p).trans (Bool.or_false _).symm
  | resume => exact (destroyed_resume t).trans (Bool.or_false _).symm
  | sourceData p bytes => exact (destroyed_sourceData t p bytes).trans (Bool.or_false _).symm
  | sourceEnd p => exact (destroyed_sourceEnd t p).trans (Bool.or_false _).symm
  | sourceError p =>
    simp only [next, sourceError, fails]
    cases (t.sources p).errored || (t.sources p).closed with
    | true => exact (Bool.or_false _).symm
    | false => exact destroyed_failing (t.updateSource p .emitError) p id
  | sourceClose p =>
    simp only [next, sourceClose, fails]
    cases (t.sources p).closed with
    | true => exact (Bool.or_false _).symm
    | false =>
      have hended : ((t.updateSource p .emitClose).sources p).readableEnded =
          (t.sources p).readableEnded := by
        rw [updateSource_self]
        rfl
      have hholds : (t.updateSource p .emitClose).holdsFor p = t.holdsFor p := rfl
      rw [Bool.not_false, Bool.true_and, ← hended, ← hholds]
      apply destroyed_failing (t.updateSource p .emitClose) p
      rw [Bool.and_eq_true]
      exact And.left
  | sourceAborted p =>
    simp only [next, sourceAborted, fails]
    cases (t.sources p).closed with
    | true => exact (Bool.or_false _).symm
    | false => exact destroyed_failing t p id
  | sourceUnpipe p => exact (Bool.or_false _).symm
  | write bytes => exact (destroyed_write t _ _ _).trans (Bool.or_false _).symm
  | transform room => exact hqueue _ (queue_transformNext room)
  | read => exact hqueue _ queue_read
  | emitData => exact hqueue _ queue_emitData
  | pipe destination room => exact hqueue _ (queue_pipe destination room)
  | unpipe destination => exact hqueue _ (queue_unpipe destination)
  | on listener => exact hqueue _ (queue_on listener)
  | removeListener listener => exact hqueue _ (queue_removeListener listener)

end Topic

namespace ServiceDiscovery

/-! ## Well-formed topics -/

/-- Every registered topic has a supported content type and a stream that is not destroyed. -/
def Formed (s : ServiceDiscovery) : Prop :=
  ∀ name t, s.topicsMap.get? name = some t →
    isContentType t.contentType = true ∧ t.stream.destroyed = false

/-- The end of an instance registers no topic. -/
def CreatesNone (s : ServiceDiscovery) (a : Action) : Prop :=
  match a with
  | .terminated _ _ | .ended _ =>
    ∀ name, (s.next a).topicsMap.get? name ≠ none → s.topicsMap.get? name ≠ none
  | _ => True

/-- The topic, and its content type, that a handler of `pang` routes to when it goes on. -/
def routes (h : PangHandler) (x : RoutedInstance) (ok : Bool) : Option (String × String) :=
  match h.stage with
  | .input =>
    if ok then (truthyText h.requires).bind fun topic =>
      (truthyText h.contentType).map fun contentType => (topic, contentType)
    else none
  | .output =>
    if x.outputRouted then none
    else (truthyText h.provides).bind fun topic =>
      (truthyText h.contentType).map fun contentType => (topic, contentType)
  | .inputRouted | .outputRouted => none

def Keeps (s : ServiceDiscovery) : Action → Prop
  -- no producer fails while its first chunk is held back
  | .stream topic e => ∀ t, s.topicsMap.get? topic = some t → t.stream.fails e = false
  -- an instance is routed to a topic that is registered or has a supported content type
  | .resume k ok _ => ∀ h x, s.handlers[k]? = some h → s.instances[h.controller]? = some x →
      ∀ topic contentType, routes h x ok = some (topic, contentType) →
        s.topicsMap.get? topic = none → isContentType contentType = true
  -- what an instance is unrouted from is registered
  | .terminated i _ => ∀ x, s.instances[i]? = some x → x.lifecycle = .running →
      ∀ topic, truthyText x.requires = some topic → s.topicsMap.get? topic ≠ none
  | .ended i => ∀ x, s.instances[i]? = some x → x.lifecycle = .terminated →
      ∀ topic, truthyText x.provides = some topic → s.topicsMap.get? topic ≠ none
  | _ => True

variable {s t : ServiceDiscovery} {topic contentType : String} {e : Topic.Event}

theorem formed_congr (h : t.topicsMap = s.topicsMap) : t.Formed ↔ s.Formed := by
  unfold Formed
  rw [h]

/-! ## Operations on the map -/

theorem createTopicIfNotExist_cases (h : s.createTopicIfNotExist topic contentType = some t) :
    (s.topicsMap.get? topic ≠ none ∧ t = s) ∨
      (s.topicsMap.get? topic = none ∧
        t = { s with
          topicsMap := s.topicsMap.set topic
            ⟨contentType, .new (streamContentType contentType)⟩ }) := by
  unfold createTopicIfNotExist at h
  split at h
  next existing hget =>
    have hsame : some s = some t := by
      dsimp only at h
      split_ifs at h <;> exact h
    cases hsame
    refine .inl ⟨?_, rfl⟩
    rw [hget]
    rintro ⟨⟩
  next hnone =>
    cases h
    exact .inr ⟨hnone, rfl⟩

theorem formed_createTopicIfNotExist (hformed : s.Formed)
    (h : s.createTopicIfNotExist topic contentType = some t) :
    t.Formed ↔ (s.topicsMap.get? topic = none → isContentType contentType = true) := by
  rcases createTopicIfNotExist_cases h with ⟨hsome, rfl⟩ | ⟨hnone, rfl⟩
  · exact ⟨fun _ hnone => absurd hnone hsome, fun _ => hformed⟩
  · constructor
    · intro hafter _
      exact (hafter topic _ (get?_set_self _ _ _)).1
    · intro htype name existing hget
      have hget : (s.topicsMap.set topic
          ⟨contentType, .new (streamContentType contentType)⟩).get? name = some existing := hget
      rw [get?_set] at hget
      split_ifs at hget
      · cases hget
        exact ⟨htype hnone, rfl⟩
      · exact hformed name existing hget

theorem formed_updateStream (hformed : s.Formed) (topic : String) (e : Topic.Event) :
    (s.updateStream topic e).Formed ↔
      ∀ t, s.topicsMap.get? topic = some t → t.stream.fails e = false := by
  unfold updateStream
  cases hget : s.topicsMap.get? topic with
  | none => exact ⟨fun _ t ht => (nomatch ht), fun _ => hformed⟩
  | some existing =>
    obtain ⟨htype, hintact⟩ := hformed topic existing hget
    have hdestroyed := Topic.destroyed_next existing.stream e
    rw [hintact, Bool.false_or] at hdestroyed
    constructor
    · intro hafter t ht
      cases ht
      rw [← hdestroyed]
      exact (hafter topic _ (get?_set_self _ _ _)).2
    · intro hfails name t ht
      have ht : (s.topicsMap.set topic
          { existing with stream := existing.stream.next e }).get? name = some t := ht
      rw [get?_set] at ht
      split_ifs at ht
      · cases ht
        exact ⟨htype, hdestroyed.trans (hfails existing rfl)⟩
      · exact hformed name t ht

theorem formed_of_updateStream (h : (s.updateStream topic e).Formed) : s.Formed := by
  unfold updateStream at h
  cases hget : s.topicsMap.get? topic with
  | none =>
    rw [hget] at h
    exact h
  | some existing =>
    rw [hget] at h
    intro name t ht
    by_cases hname : topic = name
    · subst hname
      cases hget.symm.trans ht
      obtain ⟨htype, hintact⟩ := h topic _ (get?_set_self _ _ _)
      have hdestroyed := Topic.destroyed_next existing.stream e
      rw [hintact] at hdestroyed
      exact ⟨htype, (Bool.or_eq_false_iff.mp hdestroyed.symm).1⟩
    · exact h name t ((get?_set_of_ne _ hname _).trans ht)

theorem Formed.updateStream (hformed : s.Formed) (topic : String)
    (he : ∀ t : Topic, t.fails e = false) : (s.updateStream topic e).Formed :=
  (formed_updateStream hformed topic e).mpr fun t _ => he t.stream

theorem get?_updateStream (name : String) :
    (s.updateStream topic e).topicsMap.get? name = none ↔ s.topicsMap.get? name = none := by
  unfold updateStream
  split
  next existing hget =>
    rw [get?_set]
    split_ifs with hname
    · subst hname
      rw [hget]
      simp
    · exact Iff.rfl
  · exact Iff.rfl

theorem formed_requestTopic (hformed : s.Formed)
    (h : s.requestTopic topic contentType = some t) : t.Formed := by
  unfold requestTopic at h
  split_ifs at h with hvalid
  rw [Bool.and_eq_true] at hvalid
  exact (formed_createTopicIfNotExist hformed h).mpr fun _ => hvalid.1

theorem Formed.requestTopic (hformed : s.Formed) (topic contentType : String) :
    ((s.requestTopic topic contentType).getD s).Formed := by
  cases h : s.requestTopic topic contentType with
  | none => exact hformed
  | some t => exact formed_requestTopic hformed h

/-! ## Handlers -/

theorem topicsMap_setStage (k : ℕ) (h : PangHandler) (stage : Option PangStage) :
    (s.setStage k h stage).topicsMap = s.topicsMap := rfl

theorem formed_route (hformed : s.Formed) (topic contentType : String)
    (he : ∀ t : Topic, t.fails e = false) (k : ℕ) (h : PangHandler) (stage : PangStage) :
    (match s.createTopicIfNotExist topic contentType with
      | some s => (s.updateStream topic e).setStage k h (some stage)
      | none => s.setStage k h none).Formed ↔
      (s.topicsMap.get? topic = none → isContentType contentType = true) := by
  cases hcreate : s.createTopicIfNotExist topic contentType with
  | some t =>
    rw [← formed_createTopicIfNotExist hformed hcreate]
    constructor
    · intro hafter
      exact formed_of_updateStream ((formed_congr (topicsMap_setStage k h _)).mp hafter)
    · intro hcreated
      exact (formed_congr (topicsMap_setStage k h _)).mpr (hcreated.updateStream topic he)
  | none =>
    -- a lookup throws for a registered topic only
    have hsome : s.topicsMap.get? topic ≠ none := by
      intro hnone
      unfold createTopicIfNotExist at hcreate
      rw [hnone] at hcreate
      cases hcreate
    exact ⟨fun _ hnone => absurd hnone hsome,
      fun _ => (formed_congr (topicsMap_setStage k h none)).mpr hformed⟩

theorem formed_routeInput (hformed : s.Formed) (k : ℕ) (h : PangHandler) (x : RoutedInstance)
    (ok room : Bool) (hstage : h.stage = .input) :
    (s.routeInput k h x ok room).Formed ↔
      ∀ topic contentType, routes h x ok = some (topic, contentType) →
        s.topicsMap.get? topic = none → isContentType contentType = true := by
  unfold routeInput routes
  rw [hstage]
  dsimp only
  cases truthyText h.requires with
  | none => cases ok <;> exact ⟨fun _ _ _ hroutes => (nomatch hroutes), fun _ => hformed⟩
  | some topic =>
    cases truthyText h.contentType with
    | none => cases ok <;> exact ⟨fun _ _ _ hroutes => (nomatch hroutes), fun _ => hformed⟩
    | some contentType =>
      cases ok with
      | false => exact ⟨fun _ _ _ hroutes => (nomatch hroutes), fun _ => hformed⟩
      | true =>
        dsimp only [Option.bind_some, Option.map_some]
        rw [if_pos rfl]
        refine (formed_route (e := .pipe x.input room) hformed topic contentType
          (fun _ => rfl) k h .inputRouted).trans ?_
        constructor
        · rintro hkeeps _ _ ⟨⟩
          exact hkeeps
        · intro hkeeps
          exact hkeeps topic contentType rfl

theorem formed_routeOutput (hformed : s.Formed) (k : ℕ) (h : PangHandler) (x : RoutedInstance)
    (ok : Bool) (hstage : h.stage = .output) :
    (s.routeOutput k h x).Formed ↔
      ∀ topic contentType, routes h x ok = some (topic, contentType) →
        s.topicsMap.get? topic = none → isContentType contentType = true := by
  unfold routeOutput routes
  rw [hstage]
  dsimp only
  cases truthyText h.provides with
  | none =>
    cases x.outputRouted <;>
      exact ⟨fun _ _ _ hroutes => (nomatch hroutes), fun _ => hformed⟩
  | some topic =>
    cases truthyText h.contentType with
    | none =>
      cases x.outputRouted <;>
        exact ⟨fun _ _ _ hroutes => (nomatch hroutes), fun _ => hformed⟩
    | some contentType =>
      cases x.outputRouted with
      | true => exact ⟨fun _ _ _ hroutes => (nomatch hroutes), fun _ => hformed⟩
      | false =>
        dsimp only [Option.bind_some, Option.map_some]
        rw [if_neg Bool.false_ne_true]
        refine (formed_route (e := .acceptPipe x.output) hformed topic contentType
          (fun _ => rfl) k h .outputRouted).trans ?_
        constructor
        · rintro hkeeps _ _ ⟨⟩
          exact hkeeps
        · intro hkeeps
          exact hkeeps topic contentType rfl

theorem formed_resume_iff (hformed : s.Formed) (k : ℕ) (ok room : Bool) :
    (s.resume k ok room).Formed ↔ s.Keeps (.resume k ok room) := by
  unfold resume Keeps
  dsimp only
  cases s.handlers[k]? with
  | none => exact ⟨fun _ _ _ hh => (by cases hh), fun _ => hformed⟩
  | some h =>
    simp only [Option.some.injEq]
    cases hx : s.instances[h.controller]? with
    | none =>
      refine ⟨fun _ h' x hh hx' => ?_, fun _ => hformed⟩
      subst hh
      cases hx.symm.trans hx'
    | some x =>
      have hunique : (∀ h' x', h = h' → s.instances[h'.controller]? = some x' →
          ∀ topic contentType, routes h' x' ok = some (topic, contentType) →
            s.topicsMap.get? topic = none → isContentType contentType = true) ↔
          ∀ topic contentType, routes h x ok = some (topic, contentType) →
            s.topicsMap.get? topic = none → isContentType contentType = true := by
        constructor
        · intro hkeeps
          exact hkeeps h x rfl hx
        · rintro hkeeps _ x' rfl hx'
          cases hx.symm.trans hx'
          exact hkeeps
      rw [hunique]
      have hquiet (hnone : routes h x ok = none) {t : ServiceDiscovery}
          (ht : t.topicsMap = s.topicsMap) :
          t.Formed ↔ ∀ topic contentType, routes h x ok = some (topic, contentType) →
            s.topicsMap.get? topic = none → isContentType contentType = true := by
        rw [hnone]
        exact ⟨fun _ _ _ hroutes => (by cases hroutes), fun _ => (formed_congr ht).mpr hformed⟩
      cases hstage : h.stage with
      | input => exact formed_routeInput hformed k h x ok room hstage
      | output => exact formed_routeOutput hformed k h x ok hstage
      | inputRouted =>
        apply hquiet
        · rw [routes, hstage]
        · rfl
      | outputRouted =>
        apply hquiet
        · rw [routes, hstage]
        · cases ok <;> rfl

/-! ## Instances that end -/

theorem formed_getData (hformed : s.Formed) (topic : Option String) :
    (s.getData topic).Formed ↔
      ∀ name, truthyText topic = some name → s.topicsMap.get? name ≠ none := by
  unfold getData
  cases truthyText topic with
  | none => exact ⟨fun _ _ hname => (nomatch hname), fun _ => hformed⟩
  | some name =>
    have hunsupported : isContentType "" = false := rfl
    simp only [Option.some.injEq, forall_eq', Option.bind_some]
    cases hcreate : s.createTopicIfNotExist name "" with
    | some t =>
      have hiff := formed_createTopicIfNotExist hformed hcreate
      rw [hunsupported] at hiff
      constructor
      · exact fun hafter hnone => Bool.false_ne_true (hiff.mp hafter hnone)
      · exact fun hsome => hiff.mpr fun hnone => absurd hnone hsome
    | none =>
      refine ⟨fun _ hnone => ?_, fun _ => hformed⟩
      unfold createTopicIfNotExist at hcreate
      rw [hnone] at hcreate
      cases hcreate

theorem formed_unroute (hformed : s.Formed) (topic : Option String)
    (he : ∀ t : Topic, t.fails e = false) :
    (s.unroute topic e).Formed ↔
      ∀ name, truthyText topic = some name → s.topicsMap.get? name ≠ none := by
  rw [← formed_getData hformed topic]
  unfold unroute
  cases htopic : truthyText topic with
  | none =>
    rw [formed_getData hformed topic, htopic]
    exact ⟨fun _ _ hname => (nomatch hname), fun _ => hformed⟩
  | some name => exact ⟨formed_of_updateStream, fun hdata => hdata.updateStream name he⟩

theorem topicsMap_updateInstance (i : ℕ) (f : RoutedInstance → RoutedInstance) :
    (s.updateInstance i f).topicsMap = s.topicsMap := rfl

theorem formed_terminated_iff (hformed : s.Formed) (i : ℕ) (streams : Bool) :
    (s.next (.terminated i streams)).Formed ↔ s.Keeps (.terminated i streams) := by
  unfold next Keeps
  dsimp only
  cases s.instances[i]? with
  | none => exact ⟨fun _ _ hx => (nomatch hx), fun _ => hformed⟩
  | some x =>
    simp only [Option.some.injEq, forall_eq']
    split_ifs with hrunning
    · rw [imp_iff_right hrunning]
      unfold onTerminated
      split
      · rw [formed_congr (topicsMap_updateInstance i _)]
        exact formed_getData hformed x.requires
      · rw [formed_congr (topicsMap_updateInstance i _)]
        exact formed_unroute hformed x.requires fun _ => rfl
    · exact ⟨fun _ hrun => absurd hrun hrunning, fun _ => hformed⟩

theorem formed_ended_iff (hformed : s.Formed) (i : ℕ) :
    (s.next (.ended i)).Formed ↔ s.Keeps (.ended i) := by
  unfold next Keeps
  dsimp only
  cases s.instances[i]? with
  | none => exact ⟨fun _ _ hx => (nomatch hx), fun _ => hformed⟩
  | some x =>
    simp only [Option.some.injEq, forall_eq']
    split_ifs with hterminated
    · rw [imp_iff_right hterminated]
      unfold onEnd
      rw [formed_congr (topicsMap_updateInstance i _)]
      exact formed_unroute hformed x.provides fun _ => rfl
    · exact ⟨fun _ hend => absurd hend hterminated, fun _ => hformed⟩

/-! ## Runs -/

theorem formed_next_iff (hformed : s.Formed) (a : Action) : (s.next a).Formed ↔ s.Keeps a := by
  have hdownstream (id : String) (header : Option String) (request : ℕ) :
      (s.topicDownstream id header request).Formed := by
    unfold topicDownstream
    split
    next t hrequest =>
      have ht := formed_requestTopic hformed hrequest
      exact ht.updateStream id fun _ => rfl
    · exact hformed
  cases a with
  | topicsPost id contentType =>
    refine iff_of_true ?_ trivial
    show (s.topicsPost id contentType).Formed
    unfold topicsPost
    split
    · split_ifs
      · exact hformed
      · exact hformed.requestTopic _ _
    · exact hformed
  | createTopic name contentType header originType =>
    refine iff_of_true ?_ trivial
    show (s.createTopic name contentType header originType).Formed
    unfold createTopic
    dsimp only
    split_ifs
    · exact hformed
    · exact hformed.requestTopic _ _
  | topicDownstream id header request => exact iff_of_true (hdownstream id header request) trivial
  | topicWrite name header request => exact iff_of_true (hdownstream name header request) trivial
  | topicUpstream id header => exact iff_of_true (hformed.requestTopic _ _) trivial
  | topicRead name header => exact iff_of_true (hformed.requestTopic _ _) trivial
  | deleteTopic topic =>
    refine iff_of_true ?_ trivial
    show (s.deleteTopic topic).Formed
    unfold deleteTopic
    split_ifs
    · intro name t ht
      have ht : (s.topicsMap.delete topic).get? name = some t := ht
      rw [get?_delete] at ht
      split_ifs at ht
      exact hformed name t ht
    · exact hformed
  | stream topic e => exact formed_updateStream hformed topic e
  | start | ping | handshake => exact iff_of_true hformed trivial
  | pang i requires provides contentType =>
    refine iff_of_true ?_ trivial
    show (s.pang i requires provides contentType).Formed
    unfold pang
    split <;> exact hformed
  | resume k ok room => exact formed_resume_iff hformed k ok room
  | terminated i streams => exact formed_terminated_iff hformed i streams
  | ended i => exact formed_ended_iff hformed i

theorem getData_of_registered (topic : Option String)
    (h : ∀ name, truthyText topic = some name → s.topicsMap.get? name ≠ none) :
    s.getData topic = s := by
  unfold getData
  cases htopic : truthyText topic with
  | none => rfl
  | some name =>
    rw [Option.bind_some]
    cases hcreate : s.createTopicIfNotExist name "" with
    | none => rfl
    | some t =>
      rcases createTopicIfNotExist_cases hcreate with ⟨-, rfl⟩ | ⟨hnone, -⟩
      · rfl
      · exact absurd hnone (h name htopic)

theorem get?_unroute (topic : Option String) (name : String)
    (h : ∀ name, truthyText topic = some name → s.topicsMap.get? name ≠ none)
    (hsome : (s.unroute topic e).topicsMap.get? name ≠ none) :
    s.topicsMap.get? name ≠ none := by
  unfold unroute at hsome
  rw [getData_of_registered topic h] at hsome
  split at hsome
  · rw [ne_eq, get?_updateStream] at hsome
    exact hsome
  · exact hsome

theorem createsNone_of_keeps (a : Action) (h : s.Keeps a) : s.CreatesNone a := by
  cases a with
  | terminated i streams =>
    intro name hsome
    unfold next at hsome
    dsimp only at hsome
    cases hx : s.instances[i]? with
    | none =>
      rw [hx] at hsome
      exact hsome
    | some x =>
      rw [hx] at hsome
      dsimp only at hsome
      split_ifs at hsome with hrunning
      · have hregistered := h x hx hrunning
        unfold onTerminated at hsome
        split at hsome
        · rw [getData_of_registered x.requires hregistered] at hsome
          exact hsome
        · exact get?_unroute x.requires name hregistered hsome
      · exact hsome
  | ended i =>
    intro name hsome
    unfold next at hsome
    dsimp only at hsome
    cases hx : s.instances[i]? with
    | none =>
      rw [hx] at hsome
      exact hsome
    | some x =>
      rw [hx] at hsome
      dsimp only at hsome
      split_ifs at hsome with hterminated
      · exact get?_unroute x.provides name (h x hx hterminated) hsome
      · exact hsome
  | topicsPost | createTopic | topicDownstream | topicUpstream | topicWrite | topicRead
  | deleteTopic | stream | start | ping | handshake | pang | resume => trivial

/-- Throughout a run all topics are well formed, and no end of an instance creates one, exactly if
every step keeps them well formed. -/
theorem formed_iff_keeps (actions : List Action) :
    System.Always next Formed new actions ∧ System.Meets next CreatesNone new actions ↔
      System.Meets next Keeps new actions := by
  have hnew : new.Formed := by rintro name t ⟨⟩
  have hiff : System.Always next Formed new actions ↔ System.Meets next Keeps new actions := by
    apply System.always_iff_meets (I := fun _ => True) (A := fun _ => True) _ _ trivial hnew actions
    · exact fun _ _ => trivial
    · exact fun s a _ _ hformed => formed_next_iff hformed a
    · exact fun _ _ _ _ _ _ => trivial
  rw [hiff]
  refine and_iff_left_of_imp fun hkeeps => ?_
  apply System.meets_of_invariant (I := fun _ => True) _ _ trivial actions hkeeps
  · exact fun _ _ _ _ => trivial
  · exact fun s a _ h => createsNone_of_keeps a h

/-! ## A topic that is deleted before its producer ends -/

/-- An instance provides a topic that the API has created; the topic is deleted, and then the
instance ends. -/
def endAfterDelete : List Action :=
  [.topicsPost (some "news") (some "text/plain"), .start none none 0 0,
    .pang 0 none (some "news") (some "text/plain"), .resume 0 true true, .resume 0 true true,
    .resume 0 true true, .deleteTopic "news", .terminated 0 true, .ended 0]

theorem not_formed_endAfterDelete :
    ¬ (System.Always next Formed new endAfterDelete ∧
      System.Meets next CreatesNone new endAfterDelete) := by
  rintro ⟨h, -⟩
  have hget : ((endAfterDelete.foldl next new).topicsMap.get? "news").map
      RegisteredTopic.contentType = some "" := rfl
  obtain ⟨t, ht, htype⟩ := Option.map_eq_some_iff.mp hget
  have hsupported := (System.always_last h "news" t ht).1
  rw [htype] at hsupported
  cases hsupported

end ServiceDiscovery

end TransformHub.Host
