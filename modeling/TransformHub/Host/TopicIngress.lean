import TransformHub.Host.Topic

/-!
# The queue of a topic

`consumePipe` serves the producers in the order of their `acceptPipe`, one at a time. It goes on
when the one it waits for emits `end`, `error` or `close`.
-/

namespace TransformHub.Host.Topic

/-! ## The queue -/

/-- What the queue of a topic rests on. -/
structure Queue where
  pipeQueue : List ℕ
  consuming : Option Consuming
  sources : ℕ → Source
  accepted : List ℕ
  served : List ℕ
  written : List Written
  destroyed : Bool

def queue (t : Topic) : Queue :=
  ⟨t.pipeQueue, t.consuming, t.sources, t.accepted, t.served, t.written, t.destroyed⟩

namespace Queue

def Current (q : Queue) (p : ℕ) : Prop := ∃ resolved, q.consuming = some ⟨p, resolved⟩

/-- In every state the producers are served in order. -/
structure Sound (q : Queue) : Prop where
  arrival : q.served ++ q.pipeQueue = q.accepted
  working : q.consuming = none → q.pipeQueue = []
  last : ∀ p, q.Current p → q.served.getLast? = some p
  resolved : ∀ p, q.consuming = some ⟨p, true⟩ → (q.sources p).terminated = true
  piped : ∀ p, (q.sources p).piped = true → q.Current p
  listens : ∀ p, (q.sources p).lastChunks ≠ [] → (q.sources p).terminated = true ∨ q.Current p
  turns : ∀ w ∈ q.written, ∀ p, w.source = some p → 0 < w.turn ∧ q.served[w.turn - 1]? = some p
  ordered : (q.written.map (·.turn)).Pairwise (· ≤ ·)
  bounded : ∀ w ∈ q.written, w.turn ≤ q.served.length

/-- What the queue waits for can still happen. -/
def Waits (q : Queue) : Prop :=
  ∀ p, q.consuming = some ⟨p, false⟩ →
    (q.sources p).terminated = false ∧ ((q.sources p).piped = true ∨ q.destroyed = true)

variable {q : Queue}

theorem Current.unique {p p' : ℕ} (h : q.Current p) (h' : q.Current p') : p = p' := by
  obtain ⟨resolved, h⟩ := h
  obtain ⟨resolved', h'⟩ := h'
  rw [h] at h'
  cases h'
  rfl

theorem Sound.write (h : q.Sound) {w : Written} (hturn : w.turn = q.served.length)
    (hsource : ∀ p, w.source = some p → q.Current p) :
    { q with written := q.written ++ [w] }.Sound :=
  { h with
    turns := by
      intro w' hw' p hp
      rcases List.mem_append.mp hw' with hw' | hw'
      · exact h.turns w' hw' p hp
      · rw [List.mem_singleton] at hw'
        subst hw'
        have hlast := h.last p (hsource p hp)
        rw [List.getLast?_eq_getElem?] at hlast
        have hlength : 0 < q.served.length := by
          apply List.length_pos_iff.mpr
          intro hnil
          rw [hnil] at hlast
          cases hlast
        rw [hturn]
        exact ⟨hlength, hlast⟩
    ordered := by
      rw [List.map_append, List.pairwise_append]
      refine ⟨h.ordered, List.pairwise_singleton _ _, ?_⟩
      intro n hn m hm
      obtain ⟨w', hw', rfl⟩ := List.mem_map.mp hn
      rw [List.map_singleton, List.mem_singleton] at hm
      rw [hm, hturn]
      exact h.bounded w' hw'
    bounded := by
      intro w' hw'
      rcases List.mem_append.mp hw' with hw' | hw'
      · exact h.bounded w' hw'
      · rw [List.mem_singleton] at hw'
        have hlength : w'.turn = q.served.length := by rw [hw', hturn]
        exact Nat.le_of_eq hlength }

theorem Sound.sources (h : q.Sound) {sources : ℕ → Source}
    (hterminated : ∀ p, (q.sources p).terminated = true → (sources p).terminated = true)
    (hpiped : ∀ p, (sources p).piped = true → (q.sources p).piped = true)
    (hlastChunks : ∀ p, (sources p).lastChunks ≠ [] → (q.sources p).lastChunks ≠ []) :
    { q with sources := sources }.Sound where
  arrival := h.arrival
  working := h.working
  last := h.last
  resolved p hp := hterminated p (h.resolved p hp)
  piped p hp := h.piped p (hpiped p hp)
  listens p hp := (h.listens p (hlastChunks p hp)).imp_left (hterminated p)
  turns := h.turns
  ordered := h.ordered
  bounded := h.bounded

theorem Sound.destroyed (h : q.Sound) (destroyed : Bool) :
    { q with destroyed := destroyed }.Sound := ⟨h.arrival, h.working, h.last, h.resolved, h.piped,
  h.listens, h.turns, h.ordered, h.bounded⟩

theorem Sound.resolve (h : q.Sound) {p : ℕ} (hterminated : (q.sources p).terminated = true)
    {consuming : Option Consuming}
    (hconsuming : consuming = q.consuming.map (Consuming.resolve p)) :
    { q with consuming := consuming }.Sound := by
  have hcurrent : ∀ r, ({ q with consuming := consuming } : Queue).Current r ↔ q.Current r := by
    intro r
    unfold Current
    rw [hconsuming]
    cases q.consuming with
    | none => simp
    | some c =>
      obtain ⟨source, resolved⟩ := c
      simp [Consuming.resolve]
  constructor
  · exact h.arrival
  · intro hnone
    apply h.working
    have hmap : consuming = none := hnone
    rw [hconsuming, Option.map_eq_none_iff] at hmap
    exact hmap
  · exact fun r hr => h.last r ((hcurrent r).mp hr)
  · intro r hr
    have hmap : consuming = some ⟨r, true⟩ := hr
    rw [hconsuming] at hmap
    obtain ⟨⟨source, resolved⟩, hc, heq⟩ := Option.map_eq_some_iff.mp hmap
    cases resolved with
    | true =>
      cases heq
      exact h.resolved source hc
    | false =>
      rw [Consuming.resolve, Bool.false_or, Consuming.mk.injEq, beq_iff_eq] at heq
      obtain ⟨rfl, rfl⟩ := heq
      exact hterminated
  · exact fun r hr => (hcurrent r).mpr (h.piped r hr)
  · exact fun r hr => (h.listens r hr).imp_right (hcurrent r).mpr
  · exact h.turns
  · exact h.ordered
  · exact h.bounded

section

variable (h : q.Sound) (hpiped : ∀ p, (q.sources p).piped = false)
  (hlistens : ∀ p, (q.sources p).lastChunks ≠ [] → (q.sources p).terminated = true)
include h hpiped hlistens

theorem Sound.serve {p : ℕ}
    {rest accepted : List ℕ} (harrival : q.served ++ p :: rest = accepted)
    {sources : ℕ → Source} (hother : ∀ r, r ≠ p → sources r = q.sources r) :
    { q with
      pipeQueue := rest
      consuming := some ⟨p, false⟩
      accepted := accepted
      served := q.served ++ [p]
      sources := sources }.Sound where
  arrival := by
    rw [← harrival, List.append_assoc]
    rfl
  working := fun hnone => absurd hnone (Option.some_ne_none _)
  last := by
    rintro r ⟨resolved, hr⟩
    cases hr
    exact List.getLast?_concat
  resolved := by
    intro r hr
    cases hr
  piped := by
    intro r hr
    by_cases hrp : r = p
    · subst hrp
      exact ⟨false, rfl⟩
    · have hr' : (sources r).piped = true := hr
      rw [hother r hrp, hpiped r] at hr'
      cases hr'
  listens := by
    intro r hr
    by_cases hrp : r = p
    · subst hrp
      exact .inr ⟨false, rfl⟩
    · have hr' : (sources r).lastChunks ≠ [] := hr
      rw [hother r hrp] at hr'
      apply Or.inl
      show (sources r).terminated = true
      rw [hother r hrp]
      exact hlistens r hr'
  turns := by
    intro w hw r hr
    obtain ⟨hpos, hget⟩ := h.turns w hw r hr
    have hlt : w.turn - 1 < q.served.length := by
      by_contra hge
      rw [List.getElem?_eq_none (by omega)] at hget
      cases hget
    refine ⟨hpos, ?_⟩
    show (q.served ++ [p])[w.turn - 1]? = some r
    rw [List.getElem?_append_left hlt]
    exact hget
  ordered := h.ordered
  bounded := by
    intro w hw
    have hle := h.bounded w hw
    show w.turn ≤ (q.served ++ [p]).length
    rw [List.length_append]
    omega

theorem Sound.rest (hqueue : q.pipeQueue = []) : { q with consuming := none }.Sound :=
  { h with
    working := fun _ => hqueue
    last := by
      rintro p ⟨resolved, hp⟩
      cases hp
    resolved := by
      intro p hp
      cases hp
    piped := by
      intro p hp
      have hp' : (q.sources p).piped = true := hp
      rw [hpiped p] at hp'
      cases hp'
    listens := fun p hp => .inl (hlistens p hp) }

end

theorem Waits.terminate (h : q.Waits) {p : ℕ} {q' : Queue}
    (hconsuming : q'.consuming = q.consuming.map (Consuming.resolve p))
    (hother : ∀ r, r ≠ p → (q'.sources r).terminated = (q.sources r).terminated ∧
      ((q'.sources r).piped = (q.sources r).piped ∨ q'.destroyed = true))
    (hdestroyed : q.destroyed = true → q'.destroyed = true) : q'.Waits := by
  intro r hr
  rw [hconsuming] at hr
  obtain ⟨⟨source, resolved⟩, hc, heq⟩ := Option.map_eq_some_iff.mp hr
  rw [Consuming.resolve, Consuming.mk.injEq, Bool.or_eq_false_iff, beq_eq_false_iff_ne] at heq
  obtain ⟨rfl, rfl, hne⟩ := heq
  obtain ⟨hterminated, hpiped⟩ := h source hc
  obtain ⟨hsame, hpiped'⟩ := hother source hne
  refine ⟨hsame.trans hterminated, ?_⟩
  rcases hpiped' with hpiped' | hpiped'
  · rw [hpiped']
    exact hpiped.imp_right hdestroyed
  · exact .inr hpiped'

theorem Waits.same (h : q.Waits) {q' : Queue} (hconsuming : q'.consuming = q.consuming)
    (hsources : ∀ r, (q'.sources r).terminated = (q.sources r).terminated ∧
      ((q'.sources r).piped = (q.sources r).piped ∨ q'.destroyed = true))
    (hdestroyed : q.destroyed = true → q'.destroyed = true) : q'.Waits := by
  intro r hr
  rw [hconsuming] at hr
  obtain ⟨hterminated, hpiped⟩ := h r hr
  obtain ⟨hsame, hpiped'⟩ := hsources r
  refine ⟨hsame.trans hterminated, ?_⟩
  rcases hpiped' with hpiped' | hpiped'
  · rw [hpiped']
    exact hpiped.imp_right hdestroyed
  · exact .inr hpiped'

end Queue

/-! ## What the steps do to the queue -/

variable {t : Topic}

theorem queue_transformNext (room : Bool) : (t.transformNext room).queue = t.queue := by
  rcases t.transformNext_cases room with ⟨hsame, -⟩ | ⟨w, rest, -, -, -, htransformed⟩
  · rw [hsame]
  · generalize t.transformNext room = t' at htransformed ⊢
    cases htransformed with
    | pushed ingress | full ingress | held | dropped ingress => rfl

theorem queue_flushPendingIngress (room : Bool) : (t.flushPendingIngress room).queue = t.queue := by
  unfold flushPendingIngress
  split
  · rfl
  · split_ifs
    · obtain ⟨ingress, hclear⟩ := t.clearPendingIngress_eq
      rw [hclear]
      cases room with
      | true | false => rfl
    · rfl

theorem queue_pipe (d : ℕ) (room : Bool) : (t.pipe d room).queue = t.queue := by
  unfold pipe
  split_ifs
  · rfl
  · exact queue_flushPendingIngress room

theorem queue_read : t.read.queue = t.queue := by
  unfold read
  split <;> rfl

theorem queue_emitData : t.emitData.queue = t.queue := by
  unfold emitData
  split
  · rfl
  · split_ifs <;> rfl

theorem queue_unpipe (d : Option ℕ) : (t.unpipe d).queue = t.queue := by
  cases d with
  | none | some d => rfl

theorem queue_on (listener : Listener) : (t.on listener).queue = t.queue := by
  cases listener with
  | data | readable => rfl

theorem queue_removeListener (listener : Listener) :
    (t.removeListener listener).queue = t.queue := by
  cases listener with
  | data | readable => rfl

theorem queue_failPendingIngress :
    t.failPendingIngress.queue = t.queue ∨
      t.failPendingIngress.queue =
        { t.queue with
          destroyed := true
          sources := fun q => (t.sources q).unpipe } := by
  cases hingress : t.pendingIngress with
  | none =>
    exact .inl (congrArg Topic.queue (failPendingIngress_of_none hingress))
  | some pending =>
    obtain ⟨ingress, hfail⟩ := failPendingIngress_eq hingress
    rw [hfail]
    exact .inr rfl

theorem queue_write (source : Option ℕ) (added : Bool) (bytes : List UInt8) :
    ∃ written, (t.write source added bytes).queue = { t.queue with written := written } := by
  unfold write
  split_ifs
  · exact ⟨t.written, rfl⟩
  · exact ⟨_, rfl⟩

theorem Queue.Sound.topicWrite (h : t.queue.Sound) {source : Option ℕ} (added : Bool)
    (bytes : List UInt8) (hsource : ∀ p, source = some p → t.queue.Current p) :
    (t.write source added bytes).queue.Sound := by
  unfold Topic.write
  split_ifs
  · exact h
  · exact h.write rfl hsource

theorem addNewlines_spec (p : ℕ) (h : t.queue.Sound)
    (hcurrent : (t.sources p).lastChunks ≠ [] → t.queue.Current p) :
    (t.addNewlines p).queue.Sound ∧
      ∃ written, (t.addNewlines p).queue = { t.queue with written := written } := by
  unfold addNewlines
  generalize (t.sources p).lastChunks = lastChunks at hcurrent ⊢
  induction lastChunks generalizing t with
  | nil => exact ⟨h, t.written, rfl⟩
  | cons lastChunk lastChunks ih =>
    rw [List.foldl_cons]
    have hp : t.queue.Current p := hcurrent (List.cons_ne_nil _ _)
    split_ifs
    · exact ih h fun _ => hp
    · obtain ⟨written, hwrite⟩ := queue_write (t := t) (some p) true [newlineByte]
      have hp' : (t.write (some p) true [newlineByte]).queue.Current p := by
        rw [hwrite]
        exact hp
      have hsound' : (t.write (some p) true [newlineByte]).queue.Sound := by
        apply h.topicWrite
        intro r hr
        cases hr
        exact hp
      obtain ⟨hsound, written', hqueue⟩ := ih hsound' fun _ => hp'
      refine ⟨hsound, written', ?_⟩
      rw [hqueue, hwrite]

theorem Queue.Sound.fail (h : t.queue.Sound) : t.failPendingIngress.queue.Sound := by
  rcases queue_failPendingIngress (t := t) with hqueue | hqueue
  · rw [hqueue]
    exact h
  · have hunpiped : { t.queue with
        sources := fun q => (t.sources q).unpipe }.Sound := by
      apply h.sources
      · exact fun _ hp => hp
      · intro p hp
        cases hp
      · exact fun _ hp => hp
    rw [hqueue]
    exact hunpiped.destroyed true

theorem Queue.Sound.updateSource (h : t.queue.Sound) (p : ℕ) {f : Source → Source}
    (hterminated : (t.sources p).terminated = true → (f (t.sources p)).terminated = true)
    (hpiped : (f (t.sources p)).piped = true → (t.sources p).piped = true)
    (hlastChunks : (f (t.sources p)).lastChunks ≠ [] → (t.sources p).lastChunks ≠ []) :
    (t.updateSource p f).queue.Sound := by
  apply h.sources
  · intro r hr
    by_cases hrp : r = p
    · subst hrp
      rw [updateSource_self]
      exact hterminated hr
    · rw [updateSource_other f hrp]
      exact hr
  · intro r hr
    by_cases hrp : r = p
    · subst hrp
      rw [updateSource_self] at hr
      exact hpiped hr
    · rw [updateSource_other f hrp] at hr
      exact hr
  · intro r hr
    by_cases hrp : r = p
    · subst hrp
      rw [updateSource_self] at hr
      exact hlastChunks hr
    · rw [updateSource_other f hrp] at hr
      exact hr

theorem Queue.Sound.topicResolve (h : t.queue.Sound) {p : ℕ}
    (hterminated : (t.sources p).terminated = true) : (t.resolve p).queue.Sound :=
  h.resolve hterminated rfl

theorem terminated_failPendingIngress (p : ℕ) :
    (t.failPendingIngress.sources p).terminated = (t.sources p).terminated := by
  rcases queue_failPendingIngress (t := t) with hqueue | hqueue
  · have hsources : t.failPendingIngress.sources = t.sources := congrArg Queue.sources hqueue
    rw [hsources]
  · have hsources : t.failPendingIngress.sources = fun q => (t.sources q).unpipe :=
      congrArg Queue.sources hqueue
    rw [hsources]
    rfl

section

variable (h : t.queue.Sound) (p : ℕ)
include h p

theorem Queue.Sound.sourceData (bytes : List UInt8) : (t.sourceData p bytes).queue.Sound := by
  have hmap : ∀ t : Topic, ((t.sources p).lastChunks.map fun _ => bytes) ≠ [] →
      (t.sources p).lastChunks ≠ [] := by
    intro t hne hnil
    rw [hnil] at hne
    exact hne rfl
  unfold Topic.sourceData
  split_ifs with hterminated hpiped
  · exact h
  · have hwrite : (t.write (some p) false bytes).queue.Sound := by
      apply h.topicWrite
      intro r hr
      cases hr
      exact h.piped p hpiped
    exact hwrite.updateSource p id id (hmap _)
  · exact h.updateSource p id id (hmap _)

theorem Queue.Sound.sourceEnd : (t.sourceEnd p).queue.Sound := by
  unfold Topic.sourceEnd
  split_ifs with hterminated
  · exact h
  · have hended : (t.updateSource p .emitEnd).queue.Sound := by
      apply h.updateSource p
      · exact fun _ => rfl
      · exact fun hfalse => absurd hfalse Bool.false_ne_true
      · exact id
    have hcurrent : ((t.updateSource p .emitEnd).sources p).lastChunks ≠ [] →
        t.queue.Current p := by
      rw [updateSource_self]
      exact fun hne => (h.listens p hne).resolve_left hterminated
    obtain ⟨hsound, written, hqueue⟩ := addNewlines_spec p hended hcurrent
    apply hsound.topicResolve
    rw [show (Topic.addNewlines _ p).sources = _ from congrArg Queue.sources hqueue]
    show ((t.updateSource p _).sources p).terminated = true
    rw [updateSource_self]
    rfl

theorem Queue.Sound.sourceError : (t.sourceError p).queue.Sound := by
  have herrored : (t.updateSource p .emitError).queue.Sound := by
    apply h.updateSource p
    · exact fun _ => Source.terminated_emitError
    · exact id
    · exact id
  have hterminated : ((t.updateSource p .emitError).sources p).terminated = true := by
    rw [updateSource_self]
    exact Source.terminated_emitError
  unfold Topic.sourceError
  split_ifs
  · exact h
  · dsimp only
    split_ifs
    · apply herrored.fail.topicResolve
      rw [terminated_failPendingIngress]
      exact hterminated
    · exact herrored.topicResolve hterminated

theorem Queue.Sound.sourceClose : (t.sourceClose p).queue.Sound := by
  have hclosed : (t.updateSource p .emitClose).queue.Sound := by
    apply h.updateSource p
    · exact fun _ => Source.terminated_emitClose
    · exact id
    · exact id
  have hterminated : ((t.updateSource p .emitClose).sources p).terminated = true := by
    rw [updateSource_self]
    exact Source.terminated_emitClose
  unfold Topic.sourceClose
  split_ifs
  · exact h
  · dsimp only
    split_ifs
    · apply hclosed.fail.topicResolve
      rw [terminated_failPendingIngress]
      exact hterminated
    · exact hclosed.topicResolve hterminated

theorem Queue.Sound.sourceAborted : (t.sourceAborted p).queue.Sound := by
  unfold Topic.sourceAborted
  split_ifs
  · exact h
  · exact h.fail
  · exact h

theorem Queue.Sound.sourceUnpipe : (t.sourceUnpipe p).queue.Sound := by
  apply h.updateSource p
  · exact id
  · exact fun hfalse => absurd hfalse Bool.false_ne_true
  · exact id

end

theorem sources_serve {p : ℕ} {rest : List ℕ} (hqueue : t.pipeQueue = p :: rest) :
    ∃ sources, (∀ r, r ≠ p → sources r = t.sources r) ∧
      (sources p).terminated = (t.sources p).terminated ∧
      (sources p).piped = (!(t.sources p).readableEnded) ∧
      t.serve.queue =
        { t.queue with
          pipeQueue := rest
          consuming := some ⟨p, false⟩
          served := t.served ++ [p]
          sources := sources } := by
  refine ⟨t.serve.sources, ?_, ?_, ?_, ?_⟩
  all_goals unfold serve
  all_goals rw [hqueue]
  · exact fun r hr => if_neg hr
  · show (if p = p then _ else _ : Source).terminated = _
    rw [if_pos rfl]
    rfl
  · show (if p = p then _ else _ : Source).piped = _
    rw [if_pos rfl]
    rfl
  · rfl

theorem Queue.Sound.acceptPipe (h : t.queue.Sound) (p : ℕ) : (t.acceptPipe p).queue.Sound := by
  unfold Topic.acceptPipe consumePipe
  split_ifs with hconsuming
  · have harrival : t.served ++ (t.pipeQueue ++ [p]) = t.accepted ++ [p] := by
      rw [← List.append_assoc, show t.served ++ t.pipeQueue = t.accepted from h.arrival]
    refine ⟨harrival, ?_, h.last, h.resolved, h.piped, h.listens, h.turns, h.ordered, h.bounded⟩
    intro hnone
    rw [show t.consuming = none from hnone] at hconsuming
    cases hconsuming
  · rw [Option.not_isSome_iff_eq_none] at hconsuming
    have hnone : t.consuming = none := hconsuming
    have hnot : ∀ r, ¬ t.queue.Current r := by
      rintro r ⟨resolved, hr⟩
      rw [show t.queue.consuming = none from hnone] at hr
      cases hr
    have hnil : t.pipeQueue = [] := h.working hnone
    have hqueue : ({ t with
        pipeQueue := t.pipeQueue ++ [p], accepted := t.accepted ++ [p] } : Topic).pipeQueue =
        p :: [] := by
      show t.pipeQueue ++ [p] = [p]
      rw [hnil]
      rfl
    obtain ⟨sources, hother, -, -, hserve⟩ := sources_serve hqueue
    rw [hserve]
    apply h.serve
    · intro r
      rw [← Bool.not_eq_true]
      exact fun hr => hnot r (h.piped r hr)
    · exact fun r hr => (h.listens r hr).resolve_right (hnot r)
    · show t.served ++ [p] = t.accepted ++ [p]
      have harrival : t.served ++ t.pipeQueue = t.accepted := h.arrival
      rw [← harrival, hnil, List.append_nil]
    · exact hother

theorem resume_cases :
    t.resume = t ∧ (∀ p, t.consuming ≠ some ⟨p, true⟩) ∨
      ∃ (p : ℕ) (t' : Topic), t.consuming = some ⟨p, true⟩ ∧
        t'.queue = (t.updateSource p .unpipe).queue ∧
        t.resume = t'.serve := by
  unfold resume
  split
  next p hconsuming =>
    refine .inr ⟨p, _, hconsuming, ?_, rfl⟩
    rfl
  next hconsuming => exact .inl ⟨rfl, fun p hp => hconsuming p hp⟩

theorem Queue.Sound.resume (h : t.queue.Sound) : t.resume.queue.Sound := by
  rcases resume_cases (t := t) with ⟨hsame, -⟩ | ⟨p, t', hconsuming, hunpipe, hresume⟩
  · rw [hsame]
    exact h
  · have hcurrent : t.queue.Current p := ⟨true, hconsuming⟩
    have hunpiped : (t.updateSource p .unpipe).queue.Sound := h.sourceUnpipe p
    have hpiped : ∀ r, ((t.updateSource p .unpipe).queue.sources r).piped = false := by
      intro r
      show ((t.updateSource p .unpipe).sources r).piped = false
      by_cases hrp : r = p
      · subst hrp
        rw [updateSource_self]
        rfl
      · rw [updateSource_other _ hrp, ← Bool.not_eq_true]
        exact fun hr => hrp ((h.piped r hr).unique hcurrent)
    have hlistens : ∀ r, ((t.updateSource p .unpipe).queue.sources r).lastChunks ≠ [] →
        ((t.updateSource p .unpipe).queue.sources r).terminated = true := by
      intro r hr
      rcases hunpiped.listens r hr with hterminated | hcurrent'
      · exact hterminated
      · have hrp : r = p := hcurrent'.unique hcurrent
        subst hrp
        exact hunpiped.resolved r hconsuming
    rw [← hunpipe] at hunpiped hpiped hlistens
    rw [hresume]
    cases hqueue : t'.pipeQueue with
    | nil =>
      rw [serve_nil hqueue]
      exact hunpiped.rest hpiped hlistens hqueue
    | cons q rest =>
      obtain ⟨sources, hother, -, -, hserve⟩ := sources_serve hqueue
      rw [hserve]
      apply hunpiped.serve hpiped hlistens
      · show t'.served ++ q :: rest = t'.accepted
        rw [← hqueue]
        exact hunpiped.arrival
      · exact hother

theorem Queue.Sound.next (h : t.queue.Sound) (e : Event) : (t.next e).queue.Sound := by
  cases e with
  | acceptPipe p => exact h.acceptPipe p
  | resume => exact h.resume
  | sourceData p bytes => exact h.sourceData p bytes
  | sourceEnd p => exact h.sourceEnd p
  | sourceError p => exact h.sourceError p
  | sourceClose p => exact h.sourceClose p
  | sourceAborted p => exact h.sourceAborted p
  | sourceUnpipe p => exact h.sourceUnpipe p
  | write bytes =>
    apply h.topicWrite
    intro p hp
    cases hp
  | transform room =>
    show (t.transformNext room).queue.Sound
    rw [queue_transformNext]
    exact h
  | read =>
    show t.read.queue.Sound
    rw [queue_read]
    exact h
  | emitData =>
    show t.emitData.queue.Sound
    rw [queue_emitData]
    exact h
  | pipe d room =>
    show (t.pipe d room).queue.Sound
    rw [queue_pipe]
    exact h
  | unpipe d =>
    show (t.unpipe d).queue.Sound
    rw [queue_unpipe]
    exact h
  | on listener =>
    show (t.on listener).queue.Sound
    rw [queue_on]
    exact h
  | removeListener listener =>
    show (t.removeListener listener).queue.Sound
    rw [queue_removeListener]
    exact h

theorem queue_sound_new (contentType : ContentType) : (new contentType).queue.Sound where
  arrival := rfl
  working := fun _ => rfl
  last := by
    rintro p ⟨resolved, hp⟩
    cases hp
  resolved := by
    intro p hp
    cases hp
  piped := by
    intro p hp
    cases hp
  listens := fun p hp => absurd rfl hp
  turns := fun w hw => absurd hw List.not_mem_nil
  ordered := List.Pairwise.nil
  bounded := fun w hw => absurd hw List.not_mem_nil

/-! ## What the queue waits for -/

theorem sourceEnd_spec (h : t.queue.Sound) {p : ℕ} (hp : (t.sources p).terminated = false) :
    (t.sourceEnd p).consuming = t.consuming.map (Consuming.resolve p) ∧
      (∀ r, r ≠ p → (t.sourceEnd p).sources r = t.sources r) ∧
      (t.sourceEnd p).destroyed = t.destroyed := by
  have hended : (t.updateSource p .emitEnd).queue.Sound := by
    apply h.updateSource p
    · exact fun _ => rfl
    · exact fun hfalse => absurd hfalse Bool.false_ne_true
    · exact id
  have hcurrent : ((t.updateSource p .emitEnd).sources p).lastChunks ≠ [] →
      t.queue.Current p := by
    rw [updateSource_self]
    intro hne
    apply (h.listens p hne).resolve_left
    rw [show t.queue.sources p = t.sources p from rfl, hp]
    exact Bool.false_ne_true
  obtain ⟨-, written, hqueue⟩ := addNewlines_spec p hended hcurrent
  have hconsuming := congrArg Queue.consuming hqueue
  have hsources := congrArg Queue.sources hqueue
  have hdestroyed := congrArg Queue.destroyed hqueue
  unfold sourceEnd
  rw [if_neg (by rw [hp]; exact Bool.false_ne_true)]
  refine ⟨?_, ?_, hdestroyed⟩
  · exact congrArg (Option.map (Consuming.resolve p)) hconsuming
  · intro r hr
    exact (congrFun hsources r).trans (updateSource_other _ hr)

theorem failed_spec {p : ℕ} {f : Source → Source} (fails : Bool) {t' : Topic}
    (ht' : t' = (if fails then (t.updateSource p f).failPendingIngress
      else t.updateSource p f).resolve p) :
    t'.consuming = t.consuming.map (Consuming.resolve p) ∧
      (∀ r, r ≠ p → (t'.sources r).terminated = (t.sources r).terminated ∧
        ((t'.sources r).piped = (t.sources r).piped ∨ t'.destroyed = true)) ∧
      (t.destroyed = true → t'.destroyed = true) := by
  subst ht'
  cases fails with
  | false =>
    refine ⟨rfl, fun r hr => ?_, id⟩
    rw [if_neg Bool.false_ne_true]
    have hother : ((t.updateSource p f).resolve p).sources r = t.sources r :=
      updateSource_other f hr
    rw [hother]
    exact ⟨rfl, .inl rfl⟩
  | true =>
    rw [if_pos rfl]
    rcases queue_failPendingIngress (t := t.updateSource p f) with hqueue | hqueue
    · have hconsuming := congrArg Queue.consuming hqueue
      have hsources := congrArg Queue.sources hqueue
      have hdestroyed : (t.updateSource p f).failPendingIngress.destroyed = t.destroyed :=
        congrArg Queue.destroyed hqueue
      refine ⟨congrArg (Option.map (Consuming.resolve p)) hconsuming, fun r hr => ?_, ?_⟩
      · have hr' : ((t.updateSource p f).failPendingIngress.resolve p).sources r = t.sources r :=
          (congrFun hsources r).trans (updateSource_other f hr)
        rw [hr']
        exact ⟨rfl, .inl rfl⟩
      · exact fun htrue => hdestroyed.trans htrue
    · have hconsuming := congrArg Queue.consuming hqueue
      have hdestroyed : ((t.updateSource p f).failPendingIngress.resolve p).destroyed = true :=
        congrArg Queue.destroyed hqueue
      refine ⟨congrArg (Option.map (Consuming.resolve p)) hconsuming, fun r hr => ?_, ?_⟩
      · refine ⟨?_, .inr hdestroyed⟩
        refine (terminated_failPendingIngress r).trans ?_
        rw [updateSource_other f hr]
      · exact fun _ => hdestroyed

theorem sources_emitData (t : Topic) (p : ℕ) (bytes : List UInt8) (r : ℕ) :
    ((t.updateSource p (.emitData · bytes)).sources r).terminated = (t.sources r).terminated ∧
      ((t.updateSource p (.emitData · bytes)).sources r).piped = (t.sources r).piped := by
  by_cases hrp : r = p
  · subst hrp
    rw [updateSource_self]
    exact ⟨rfl, rfl⟩
  · rw [updateSource_other _ hrp]
    exact ⟨rfl, rfl⟩

section

variable (h : t.queue.Waits)
include h

theorem Queue.Waits.sourceData (p : ℕ) (bytes : List UInt8) :
    (t.sourceData p bytes).queue.Waits := by
  unfold Topic.sourceData
  dsimp only
  split_ifs with hterminated hpiped
  · exact h
  · obtain ⟨written, hwrite⟩ := queue_write (t := t) (some p) false bytes
    have hsources : (t.write (some p) false bytes).sources = t.sources :=
      congrArg Queue.sources hwrite
    have hdestroyed : (t.write (some p) false bytes).destroyed = t.destroyed :=
      congrArg Queue.destroyed hwrite
    have hconsuming : (t.write (some p) false bytes).consuming = t.consuming :=
      congrArg Queue.consuming hwrite
    apply Queue.Waits.same h
    · exact hconsuming
    · intro r
      have hsame := sources_emitData (t.write (some p) false bytes) p bytes r
      rw [hsources] at hsame
      exact ⟨hsame.1, .inl hsame.2⟩
    · exact fun htrue => hdestroyed.trans htrue
  · apply Queue.Waits.same h
    · rfl
    · intro r
      have hsame := sources_emitData t p bytes r
      exact ⟨hsame.1, .inl hsame.2⟩
    · exact id

theorem Queue.Waits.sourceEnd (hsound : t.queue.Sound) (p : ℕ) : (t.sourceEnd p).queue.Waits := by
  cases hp : (t.sources p).terminated with
  | true =>
    unfold Topic.sourceEnd
    rw [if_pos hp]
    exact h
  | false =>
    obtain ⟨hconsuming, hother, hdestroyed⟩ := sourceEnd_spec hsound hp
    apply h.terminate hconsuming
    · intro r hr
      show ((t.sourceEnd p).sources r).terminated = _ ∧
        (((t.sourceEnd p).sources r).piped = _ ∨ _)
      rw [hother r hr]
      exact ⟨rfl, .inl rfl⟩
    · exact fun htrue => hdestroyed.trans htrue

theorem Queue.Waits.sourceError (p : ℕ) : (t.sourceError p).queue.Waits := by
  unfold Topic.sourceError
  split_ifs
  · exact h
  · obtain ⟨hconsuming, hother, hdestroyed⟩ := failed_spec (t := t) (p := p) _ rfl
    exact h.terminate hconsuming hother hdestroyed

theorem Queue.Waits.sourceClose (p : ℕ) : (t.sourceClose p).queue.Waits := by
  unfold Topic.sourceClose
  split_ifs
  · exact h
  · obtain ⟨hconsuming, hother, hdestroyed⟩ := failed_spec (t := t) (p := p) _ rfl
    exact h.terminate hconsuming hother hdestroyed

theorem Queue.Waits.fail : t.failPendingIngress.queue.Waits := by
  rcases queue_failPendingIngress (t := t) with hqueue | hqueue
  · rw [hqueue]
    exact h
  · rw [hqueue]
    apply Queue.Waits.same h
    · rfl
    · exact fun r => ⟨rfl, .inr rfl⟩
    · exact fun _ => rfl

theorem Queue.Waits.sourceAborted (p : ℕ) : (t.sourceAborted p).queue.Waits := by
  unfold Topic.sourceAborted
  split_ifs
  · exact h
  · exact h.fail
  · exact h

end

theorem waits_serve_iff {p : ℕ} {rest : List ℕ} (hqueue : t.pipeQueue = p :: rest) :
    t.serve.queue.Waits ↔ (t.sources p).terminated = false := by
  obtain ⟨sources, -, hterminated, hpiped, hserve⟩ := sources_serve hqueue
  rw [hserve]
  constructor
  · intro h
    rw [← hterminated]
    exact (h p rfl).1
  · intro h r hr
    cases hr
    refine ⟨hterminated.trans h, .inl ?_⟩
    show (sources p).piped = true
    unfold Source.terminated at h
    rw [Bool.or_eq_false_iff, Bool.or_eq_false_iff] at h
    rw [hpiped, h.1.1]
    rfl

/-- A producer that is served has not terminated before, and the one that is waited for is not
unpiped unless the topic is destroyed. -/
def Timely (t : Topic) : Event → Prop
  | .acceptPipe p => t.consuming = none → (t.sources p).terminated = false
  | .resume => ∀ p q, t.consuming = some ⟨p, true⟩ → t.pipeQueue.head? = some q →
      (t.sources q).terminated = false
  | .sourceUnpipe p => t.consuming = some ⟨p, false⟩ → t.destroyed = true
  | _ => True

theorem waits_acceptPipe_iff (hsound : t.queue.Sound) (hwaits : t.queue.Waits) (p : ℕ) :
    (t.acceptPipe p).queue.Waits ↔ (t.consuming = none → (t.sources p).terminated = false) := by
  unfold Topic.acceptPipe consumePipe
  split_ifs with hconsuming
  · refine ⟨fun _ hnone => ?_, fun _ => hwaits⟩
    rw [show t.consuming = none from hnone] at hconsuming
    cases hconsuming
  · rw [Option.not_isSome_iff_eq_none] at hconsuming
    have hnone : t.consuming = none := hconsuming
    have hnil : t.pipeQueue = [] := hsound.working hnone
    have hqueue : ({ t with
        pipeQueue := t.pipeQueue ++ [p], accepted := t.accepted ++ [p] } : Topic).pipeQueue =
        p :: [] := by
      show t.pipeQueue ++ [p] = [p]
      rw [hnil]
      rfl
    rw [waits_serve_iff hqueue]
    exact ⟨fun h _ => h, fun h => h hnone⟩

theorem waits_resume_iff (hwaits : t.queue.Waits) :
    t.resume.queue.Waits ↔ ∀ p q, t.consuming = some ⟨p, true⟩ → t.pipeQueue.head? = some q →
      (t.sources q).terminated = false := by
  rcases resume_cases (t := t) with ⟨hsame, hnot⟩ | ⟨p, t', hconsuming, hunpipe, hresume⟩
  · rw [hsame]
    exact ⟨fun _ p q hp => absurd hp (hnot p), fun _ => hwaits⟩
  · have hpipeQueue : t'.pipeQueue = t.pipeQueue := congrArg Queue.pipeQueue hunpipe
    have hsources : t'.sources = (t.updateSource p .unpipe).sources :=
      congrArg Queue.sources hunpipe
    rw [hresume, ← hpipeQueue]
    cases hqueue : t'.pipeQueue with
    | nil =>
      rw [serve_nil hqueue]
      refine ⟨fun _ p q _ hq => absurd hq (Option.some_ne_none q).symm, fun _ r hr => ?_⟩
      cases hr
    | cons q rest =>
      have hsame : (t'.sources q).terminated = (t.sources q).terminated := by
        rw [hsources]
        by_cases hqp : q = p
        · subst hqp
          rw [updateSource_self]
          rfl
        · rw [updateSource_other _ hqp]
      rw [waits_serve_iff hqueue, hsame]
      constructor
      · intro h p' q' _ hq'
        cases hq'
        exact h
      · exact fun h => h p q hconsuming rfl

theorem waits_sourceUnpipe_iff (hwaits : t.queue.Waits) (p : ℕ) :
    (t.sourceUnpipe p).queue.Waits ↔ (t.consuming = some ⟨p, false⟩ → t.destroyed = true) := by
  constructor
  · intro h hconsuming
    rcases (h p hconsuming).2 with hpiped | hdestroyed
    · have hpiped' : ((t.updateSource p .unpipe).sources p).piped = true := hpiped
      rw [updateSource_self] at hpiped'
      cases hpiped'
    · exact hdestroyed
  · intro h r hr
    obtain ⟨hterminated, hpiped⟩ := hwaits r hr
    show ((t.updateSource p _).sources r).terminated = false ∧
      (((t.updateSource p _).sources r).piped = true ∨ t.destroyed = true)
    by_cases hrp : r = p
    · subst hrp
      rw [updateSource_self]
      exact ⟨hterminated, .inr (h hr)⟩
    · rw [updateSource_other _ hrp]
      exact ⟨hterminated, hpiped⟩

theorem waits_next_iff (hsound : t.queue.Sound) (hwaits : t.queue.Waits) (e : Event) :
    (t.next e).queue.Waits ↔ Timely t e := by
  cases e with
  | acceptPipe p => exact waits_acceptPipe_iff hsound hwaits p
  | resume => exact waits_resume_iff hwaits
  | sourceUnpipe p => exact waits_sourceUnpipe_iff hwaits p
  | sourceData p bytes => exact iff_of_true (hwaits.sourceData p bytes) trivial
  | sourceEnd p => exact iff_of_true (hwaits.sourceEnd hsound p) trivial
  | sourceError p => exact iff_of_true (hwaits.sourceError p) trivial
  | sourceClose p => exact iff_of_true (hwaits.sourceClose p) trivial
  | sourceAborted p => exact iff_of_true (hwaits.sourceAborted p) trivial
  | write bytes =>
    refine iff_of_true ?_ trivial
    obtain ⟨written, hwrite⟩ := queue_write (t := t) none false bytes
    show (t.write none false bytes).queue.Waits
    rw [hwrite]
    exact hwaits
  | transform room =>
    refine iff_of_true ?_ trivial
    show (t.transformNext room).queue.Waits
    rw [queue_transformNext]
    exact hwaits
  | read =>
    refine iff_of_true ?_ trivial
    show t.read.queue.Waits
    rw [queue_read]
    exact hwaits
  | emitData =>
    refine iff_of_true ?_ trivial
    show t.emitData.queue.Waits
    rw [queue_emitData]
    exact hwaits
  | pipe d room =>
    refine iff_of_true ?_ trivial
    show (t.pipe d room).queue.Waits
    rw [queue_pipe]
    exact hwaits
  | unpipe d =>
    refine iff_of_true ?_ trivial
    show (t.unpipe d).queue.Waits
    rw [queue_unpipe]
    exact hwaits
  | on listener =>
    refine iff_of_true ?_ trivial
    show (t.on listener).queue.Waits
    rw [queue_on]
    exact hwaits
  | removeListener listener =>
    refine iff_of_true ?_ trivial
    show (t.removeListener listener).queue.Waits
    rw [queue_removeListener]
    exact hwaits

/-! ## Runs -/

/-- The producers are served one after the other in the order in which they came, and the queue goes
on. -/
structure Proceeds (t : Topic) : Prop where
  arrival : t.served ++ t.pipeQueue = t.accepted
  /-- a source writes in its turn only -/
  turns : ∀ w ∈ t.written, ∀ p, w.source = some p → 0 < w.turn ∧ t.served[w.turn - 1]? = some p
  ordered : (t.written.map (·.turn)).Pairwise (· ≤ ·)
  working : t.consuming = none → t.pipeQueue = []
  waits : ∀ p, t.consuming = some ⟨p, false⟩ →
    (t.sources p).terminated = false ∧ ((t.sources p).piped = true ∨ t.destroyed = true)
  wakes : ∀ p, t.consuming = some ⟨p, false⟩ →
    (t.sourceEnd p).consuming = some ⟨p, true⟩ ∧ (t.sourceError p).consuming = some ⟨p, true⟩ ∧
      (t.sourceClose p).consuming = some ⟨p, true⟩
  goesOn : ∀ p, t.consuming = some ⟨p, true⟩ →
    t.resume.served = t.served ++ t.pipeQueue.take 1 ∧ t.resume.pipeQueue = t.pipeQueue.drop 1

theorem resolve_self (p : ℕ) : (some ⟨p, false⟩ : Option Consuming).map (Consuming.resolve p) =
    some ⟨p, true⟩ := by
  unfold Consuming.resolve
  simp

theorem proceeds_iff (h : t.queue.Sound) : t.Proceeds ↔ t.queue.Waits := by
  refine ⟨fun hproceeds => hproceeds.waits, fun hwaits => ?_⟩
  refine ⟨h.arrival, h.turns, h.ordered, h.working, hwaits, ?_, ?_⟩
  · intro p hp
    have hterminated : (t.sources p).terminated = false := (hwaits p hp).1
    have hnot := hterminated
    unfold Source.terminated at hnot
    rw [Bool.or_eq_false_iff, Bool.or_eq_false_iff] at hnot
    refine ⟨?_, ?_, ?_⟩
    · rw [(sourceEnd_spec h hterminated).1, hp, resolve_self]
    · unfold sourceError
      rw [hnot.1.2, hnot.2]
      refine (failed_spec (t := t) (p := p) _ rfl).1.trans ?_
      rw [hp, resolve_self]
    · unfold sourceClose
      rw [hnot.2]
      refine (failed_spec (t := t) (p := p) _ rfl).1.trans ?_
      rw [hp, resolve_self]
  · intro p hp
    rcases resume_cases (t := t) with ⟨-, hnot⟩ | ⟨p', t', -, hunpipe, hresume⟩
    · exact absurd hp (hnot p)
    · have hserved : t'.served = t.served := congrArg Queue.served hunpipe
      have hpipeQueue : t'.pipeQueue = t.pipeQueue := congrArg Queue.pipeQueue hunpipe
      rw [hresume, ← hserved, ← hpipeQueue]
      cases hqueue : t'.pipeQueue with
      | nil =>
        rw [serve_nil hqueue]
        exact ⟨(List.append_nil _).symm, hqueue⟩
      | cons q rest =>
        obtain ⟨sources, -, -, -, hserve⟩ := sources_serve hqueue
        exact ⟨congrArg Queue.served hserve, congrArg Queue.pipeQueue hserve⟩

/-- In a run the queue proceeds in every state exactly if every step is timely. -/
theorem proceeds_iff_timely (contentType : ContentType) (events : List Event) :
    System.Always next Proceeds (new contentType) events ↔
      System.Meets next Timely (new contentType) events := by
  apply System.always_iff_meets (A := fun _ => True) (I := fun t => t.queue.Sound)
  · intro t e _ hsound hproceeds
    rw [proceeds_iff (hsound.next e)]
    exact waits_next_iff hsound ((proceeds_iff hsound).mp hproceeds) e
  · exact fun t e _ hsound _ _ => hsound.next e
  · exact queue_sound_new contentType
  · rw [proceeds_iff (queue_sound_new contentType)]
    intro p hp
    cases hp
  · exact fun _ _ => trivial

/-- The second producer is closed while it waits for its turn. -/
def closedRun : List Event :=
  [.acceptPipe 0, .acceptPipe 1, .acceptPipe 2, .sourceClose 1, .sourceEnd 0, .resume]

def unpipedRun : List Event := [.acceptPipe 0, .acceptPipe 1, .sourceUnpipe 0]

/-- The queue waits for a producer that has terminated, or that is not piped any more. -/
theorem goneSource_awaited :
    ¬ System.Always next Proceeds (new .textPlain) closedRun ∧
    ¬ System.Always next Proceeds (new .textPlain) unpipedRun := by
  refine ⟨fun h => ?_, fun h => ?_⟩
  · have hwaits := ((System.always_last h).waits 1 (by decide)).1
    exact absurd hwaits (by decide)
  · have hwaits := ((System.always_last h).waits 0 (by decide)).2
    exact absurd hwaits (by decide)

end TransformHub.Host.Topic
