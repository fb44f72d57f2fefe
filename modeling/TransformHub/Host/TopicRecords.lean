import TransformHub.Host.TopicTransform
import TransformHub.Host.TopicIngress

/-!
# Records of a topic

The producers of a topic write lines.
-/

namespace TransformHub.Host.Topic

open Lines

def text (chunks : List Written) : List UInt8 := chunks.flatMap (·.bytes)

theorem text_append (a b : List Written) : text (a ++ b) = text a ++ text b := List.flatMap_append

theorem text_singleton (w : Written) : text [w] = w.bytes := List.append_nil _

/-- The lines of the bytes, and what is left after them. -/
abbrev linesOf (bytes : List UInt8) : List (List UInt8) × List UInt8 := lines newlineByte bytes

/-! ## Lines of one producer -/

namespace Queue

/-- What the producer of a turn has written. -/
def sent (q : Queue) (turn : ℕ) : List UInt8 :=
  text (q.written.filter fun w => w.turn == turn && w.source.isSome && !w.added)

/-- The producer of the turn has terminated. -/
def Over (q : Queue) (turn : ℕ) : Prop :=
  turn < q.served.length ∨
    turn = q.served.length ∧ ∀ p, q.served.getLast? = some p → (q.sources p).terminated = true

/-- The line is one of a producer, or the last bytes of one that has terminated. -/
def Good (q : Queue) (line : List UInt8) : Prop :=
  ∃ turn, line ∈ (linesOf (q.sent turn)).1 ∨
    line = (linesOf (q.sent turn)).2 ∧ line ≠ [] ∧ q.Over turn

/-- The bytes consist of lines of one producer each. -/
def Clean (q : Queue) (bytes : List UInt8) : Prop :=
  (∀ line ∈ (linesOf bytes).1, q.Good line) ∧
    ∃ turn, Begins newlineByte (q.sent turn) (linesOf bytes).2

/-- The producers go on, and those that have terminated do not. -/
def Grows (q q' : Queue) : Prop :=
  ∀ turn, q.sent turn <+: q'.sent turn ∧
    (q.Over turn → q'.sent turn = q.sent turn ∧ q'.Over turn)

variable {q q' q'' : Queue} {line bytes : List UInt8}

theorem Grows.refl (q : Queue) : q.Grows q := fun _ => ⟨List.prefix_rfl, fun h => ⟨rfl, h⟩⟩

theorem Grows.trans (h : q.Grows q') (h' : q'.Grows q'') : q.Grows q'' := by
  intro turn
  refine ⟨(h turn).1.trans (h' turn).1, fun hover => ?_⟩
  obtain ⟨hsent, hover'⟩ := (h turn).2 hover
  obtain ⟨hsent', hover''⟩ := (h' turn).2 hover'
  exact ⟨hsent'.trans hsent, hover''⟩

theorem Good.grows (h : q.Good line) (hgrows : q.Grows q') : q'.Good line := by
  obtain ⟨turn, hline | ⟨hline, hne, hover⟩⟩ := h
  · exact ⟨turn, .inl ((lines_isPrefix (hgrows turn).1).mem hline)⟩
  · obtain ⟨hsent, hover'⟩ := (hgrows turn).2 hover
    refine ⟨turn, .inr ⟨?_, hne, hover'⟩⟩
    rw [hsent]
    exact hline

theorem Clean.grows (h : q.Clean bytes) (hgrows : q.Grows q') : q'.Clean bytes := by
  refine ⟨fun line hline => (h.1 line hline).grows hgrows, ?_⟩
  obtain ⟨turn, hbegins⟩ := h.2
  obtain ⟨rest, hrest⟩ := (hgrows turn).1
  refine ⟨turn, ?_⟩
  rw [← hrest]
  exact hbegins.append rest

theorem Good.begins (h : q.Good line) : ∃ turn, Begins newlineByte (q.sent turn) line := by
  obtain ⟨turn, hline | ⟨hline, -, -⟩⟩ := h
  · exact ⟨turn, .inl ⟨line, hline, List.prefix_rfl⟩⟩
  · refine ⟨turn, ?_⟩
    rw [hline]
    exact begins_rest _

theorem Clean.of_isPrefix (h : q.Clean bytes) {part : List UInt8} (hpart : part <+: bytes) :
    q.Clean part := by
  refine ⟨fun line hline => h.1 line ((lines_isPrefix hpart).mem hline), ?_⟩
  obtain ⟨rest, rfl⟩ := hpart
  have hbegins : Begins newlineByte (part ++ rest) (linesOf part).2 :=
    (begins_rest part).append rest
  rcases hbegins with ⟨line, hline, hprefix⟩ | hprefix
  · obtain ⟨turn, hbegins⟩ := (h.1 line hline).begins
    exact ⟨turn, hbegins.of_isPrefix hprefix⟩
  · obtain ⟨turn, hbegins⟩ := h.2
    exact ⟨turn, hbegins.of_isPrefix hprefix⟩

/-- The lines of what is written, in every state. -/
structure Records (q : Queue) : Prop where
  lines : ∀ line ∈ (linesOf (text q.written)).1, q.Good line
  rest : (linesOf (text q.written)).2 = [] ∨
    ∃ turn, turn ≤ q.served.length ∧ (linesOf (text q.written)).2 = (linesOf (q.sent turn)).2
  current : ∀ p, q.served.getLast? = some p → (q.sources p).terminated = false →
    q.sent q.served.length ≠ [] →
      (linesOf (text q.written)).2 = (linesOf (q.sent q.served.length)).2
  listens : ∀ p, (q.sources p).terminated = false → (q.sources p).lastChunks.length ≤ 1

theorem Records.clean (h : q.Records) : q.Clean (text q.written) := by
  refine ⟨h.lines, ?_⟩
  rcases h.rest with hrest | ⟨turn, -, hrest⟩
  · refine ⟨0, ?_⟩
    rw [hrest]
    exact begins_nil _
  · refine ⟨turn, ?_⟩
    rw [hrest]
    exact begins_rest _

theorem sent_write {w : Written} (turn : ℕ) :
    ({ q with written := q.written ++ [w] } : Queue).sent turn =
      q.sent turn ++ if w.turn = turn ∧ w.source.isSome = true ∧ w.added = false then w.bytes
        else [] := by
  unfold sent
  rw [List.filter_append, text_append]
  congr 1
  split_ifs with h
  · rw [List.filter_cons_of_pos (by simp [h]), List.filter_nil, text_singleton]
  · rw [List.filter_cons_of_neg (by simpa using h), List.filter_nil]
    rfl

theorem Records.data (h : q.Records) {w : Written} {p : ℕ} (hturn : w.turn = q.served.length)
    (hsource : w.source = some p) (hadded : w.added = false)
    (hlast : q.served.getLast? = some p) (hterminated : (q.sources p).terminated = false)
    (horderly : q.sent q.served.length = [] → (linesOf (text q.written)).2 = []) :
    ({ q with written := q.written ++ [w] } : Queue).Records ∧
      q.Grows { q with written := q.written ++ [w] } := by
  have hsent : ({ q with written := q.written ++ [w] } : Queue).sent q.served.length =
      q.sent q.served.length ++ w.bytes := by
    rw [sent_write, if_pos ⟨hturn, by rw [hsource]; rfl, hadded⟩]
  have hother : ∀ turn, turn ≠ q.served.length →
      ({ q with written := q.written ++ [w] } : Queue).sent turn = q.sent turn := by
    intro turn hne
    rw [sent_write, if_neg, List.append_nil]
    exact fun hw => hne (hw.1.symm.trans hturn)
  have hgrows : q.Grows { q with written := q.written ++ [w] } := by
    intro turn
    by_cases hcurrent : turn = q.served.length
    · subst hcurrent
      rw [hsent]
      refine ⟨List.prefix_append _ _, ?_⟩
      rintro (hlt | ⟨-, hover⟩)
      · exact absurd hlt (Nat.lt_irrefl _)
      · rw [hover p hlast] at hterminated
        cases hterminated
    · rw [hother turn hcurrent]
      exact ⟨List.prefix_rfl, fun hover => ⟨rfl, hover⟩⟩
  -- what is left of the bytes is what is left of this producer
  have hrest : (linesOf (text q.written)).2 = (linesOf (q.sent q.served.length)).2 := by
    by_cases hnil : q.sent q.served.length = []
    · rw [horderly hnil, hnil]
      rfl
    · exact h.current p hlast hterminated hnil
  have hlines : linesOf (text (q.written ++ [w])) =
      ((linesOf (text q.written)).1 ++
          (linesOf ((linesOf (q.sent q.served.length)).2 ++ w.bytes)).1,
        (linesOf (q.sent q.served.length ++ w.bytes)).2) := by
    have hafter : (linesOf (q.sent q.served.length ++ w.bytes)).2 =
        (linesOf ((linesOf (q.sent q.served.length)).2 ++ w.bytes)).2 := by
      rw [show linesOf (q.sent q.served.length ++ w.bytes) = _ from lines_append _ _]
    rw [hafter, ← hrest, text_append, text_singleton]
    exact lines_append _ _
  refine ⟨?_, hgrows⟩
  constructor
  · intro line hline
    rw [show linesOf (text (q.written ++ [w])) = _ from hlines] at hline
    rcases List.mem_append.mp hline with hline | hline
    · exact (h.lines line hline).grows hgrows
    · refine ⟨q.served.length, .inl ?_⟩
      rw [hsent]
      exact mem_lines_append hline
  · apply Or.inr
    refine ⟨q.served.length, Nat.le_refl _, ?_⟩
    rw [hsent]
    show (linesOf (text (q.written ++ [w]))).2 = (linesOf (q.sent q.served.length ++ w.bytes)).2
    rw [hlines]
  · intro _ _ _ _
    show (linesOf (text (q.written ++ [w]))).2 =
      (linesOf (({ q with written := q.written ++ [w] } : Queue).sent q.served.length)).2
    rw [hlines, hsent]
  · exact h.listens

theorem Records.newline (h : q.Records) {w : Written} {p : ℕ} (hadded : w.added = true)
    (hbytes : w.bytes = [newlineByte]) (hlast : q.served.getLast? = some p)
    (hterminated : (q.sources p).terminated = true)
    (horderly : (linesOf (text q.written)).2 ≠ []) :
    ({ q with written := q.written ++ [w] } : Queue).Records ∧
      q.Grows { q with written := q.written ++ [w] } := by
  have hsent : ∀ turn,
      ({ q with written := q.written ++ [w] } : Queue).sent turn = q.sent turn := by
    intro turn
    rw [sent_write, if_neg, List.append_nil]
    rintro ⟨-, -, hfalse⟩
    rw [hadded] at hfalse
    cases hfalse
  have hgrows : q.Grows { q with written := q.written ++ [w] } := by
    intro turn
    rw [hsent]
    exact ⟨List.prefix_rfl, fun hover => ⟨rfl, hover⟩⟩
  have hlines : linesOf (text (q.written ++ [w])) =
      ((linesOf (text q.written)).1 ++ [(linesOf (text q.written)).2], []) := by
    rw [text_append, text_singleton, hbytes, linesOf, lines_append,
      lines_singleton_of_notMem (rest_notMem _)]
  have hgood : q.Good (linesOf (text q.written)).2 := by
    rcases h.rest with hrest | ⟨turn, hturn, hrest⟩
    · exact absurd hrest horderly
    · refine ⟨turn, .inr ⟨hrest, horderly, ?_⟩⟩
      rcases Nat.lt_or_eq_of_le hturn with hlt | heq
      · exact .inl hlt
      · refine .inr ⟨heq, fun r hr => ?_⟩
        rw [hlast] at hr
        cases hr
        exact hterminated
  refine ⟨?_, hgrows⟩
  constructor
  · intro line hline
    rw [show linesOf (text (q.written ++ [w])) = _ from hlines] at hline
    rcases List.mem_append.mp hline with hline | hline
    · exact (h.lines line hline).grows hgrows
    · rw [List.mem_singleton] at hline
      rw [hline]
      exact hgood.grows hgrows
  · exact .inl (congrArg Prod.snd hlines)
  · intro r hr hfalse
    have hr' : q.served.getLast? = some r := hr
    have hfalse' : (q.sources r).terminated = false := hfalse
    rw [hlast] at hr'
    cases hr'
    rw [hterminated] at hfalse'
    cases hfalse'
  · exact h.listens

theorem Records.sources (h : q.Records) {sources : ℕ → Source}
    (hterminated : ∀ p, (q.sources p).terminated = true → (sources p).terminated = true)
    (hlastChunks : ∀ p, (sources p).lastChunks.length = (q.sources p).lastChunks.length) :
    ({ q with sources := sources } : Queue).Records ∧ q.Grows { q with sources := sources } := by
  have hfalse : ∀ p, (sources p).terminated = false → (q.sources p).terminated = false := by
    intro p hp
    rw [← Bool.not_eq_true] at hp ⊢
    exact fun htrue => hp (hterminated p htrue)
  have hgrows : q.Grows { q with sources := sources } := by
    intro turn
    refine ⟨List.prefix_rfl, fun hover => ⟨rfl, ?_⟩⟩
    rcases hover with hlt | ⟨heq, hover⟩
    · exact .inl hlt
    · exact .inr ⟨heq, fun p hp => hterminated p (hover p hp)⟩
  refine ⟨⟨fun line hline => (h.lines line hline).grows hgrows, h.rest, ?_, ?_⟩, hgrows⟩
  · exact fun p hp hpfalse => h.current p hp (hfalse p hpfalse)
  · intro p hp
    show (sources p).lastChunks.length ≤ 1
    rw [hlastChunks]
    exact h.listens p (hfalse p hp)

theorem Records.serve (h : q.Records) (hbounded : ∀ w ∈ q.written, w.turn ≤ q.served.length)
    {p : ℕ} {pipeQueue accepted : List ℕ} {consuming : Option Consuming} {sources : ℕ → Source}
    (hother : ∀ r, r ≠ p → sources r = q.sources r)
    (hlastChunks : (sources p).terminated = false → (sources p).lastChunks.length ≤ 1) :
    let q' : Queue := { q with
      pipeQueue := pipeQueue
      accepted := accepted
      consuming := consuming
      served := q.served ++ [p]
      sources := sources }
    q'.Records ∧ q.Grows q' := by
  intro q'
  have hlength : q'.served.length = q.served.length + 1 := List.length_append
  have hgrows : q.Grows q' := by
    intro turn
    refine ⟨List.prefix_rfl, fun hover => ⟨rfl, .inl ?_⟩⟩
    rw [hlength]
    rcases hover with hlt | ⟨heq, -⟩ <;> omega
  have hnil : q'.sent q'.served.length = [] := by
    show text (q.written.filter _) = []
    rw [List.filter_eq_nil_iff.mpr]
    · rfl
    · intro w hw
      have hle := hbounded w hw
      rw [hlength]
      simp
      omega
  refine ⟨⟨fun line hline => (h.lines line hline).grows hgrows, ?_, ?_, ?_⟩, hgrows⟩
  · rcases h.rest with hrest | ⟨turn, hturn, hrest⟩
    · exact .inl hrest
    · refine .inr ⟨turn, ?_, hrest⟩
      rw [hlength]
      omega
  · exact fun _ _ _ hne => absurd hnil hne
  · intro r hr
    by_cases hrp : r = p
    · subst hrp
      exact hlastChunks hr
    · show (sources r).lastChunks.length ≤ 1
      have hr' : (sources r).terminated = false := hr
      rw [hother r hrp] at hr' ⊢
      exact h.listens r hr'

theorem Records.same (h : q.Records) (hwritten : q'.written = q.written)
    (hserved : q'.served = q.served) (hsources : q'.sources = q.sources) :
    q'.Records ∧ q.Grows q' := by
  have hsent : ∀ turn, q'.sent turn = q.sent turn := by
    intro turn
    unfold sent
    rw [hwritten]
  have hover : ∀ turn, q'.Over turn ↔ q.Over turn := by
    intro turn
    unfold Over
    rw [hserved, hsources]
  have hgrows : q.Grows q' := by
    intro turn
    rw [hsent, hover]
    exact ⟨List.prefix_rfl, fun h => ⟨rfl, h⟩⟩
  refine ⟨⟨?_, ?_, ?_, ?_⟩, hgrows⟩
  · rw [hwritten]
    exact fun line hline => (h.lines line hline).grows hgrows
  · rw [hwritten, hserved]
    simp only [hsent]
    exact h.rest
  · rw [hwritten, hserved, hsources]
    simp only [hsent]
    exact h.current
  · rw [hsources]
    exact h.listens

/-- The records are kept, and the producers go on. -/
def Advances (q q' : Queue) : Prop := q.Records → q'.Records ∧ q.Grows q'

theorem Advances.refl (q : Queue) : q.Advances q := fun h => ⟨h, .refl q⟩

theorem Advances.trans (h : q.Advances q') (h' : q'.Advances q'') : q.Advances q'' := by
  intro hrecords
  obtain ⟨hrecords', hgrows⟩ := h hrecords
  obtain ⟨hrecords'', hgrows'⟩ := h' hrecords'
  exact ⟨hrecords'', hgrows.trans hgrows'⟩

theorem Sound.terminated_of_resolved (h : q.Sound) {p r : ℕ} (hp : q.consuming = some ⟨p, true⟩)
    (hr : (q.sources r).lastChunks ≠ []) : (q.sources r).terminated = true := by
  rcases h.listens r hr with hterminated | hcurrent
  · exact hterminated
  · have hrp : r = p := hcurrent.unique ⟨true, hp⟩
    subst hrp
    exact h.resolved r hp

end Queue

/-! ## What the steps do to the records -/

variable {t t' t'' : Topic}

/-- The steps keep to the ends of the lines: a producer starts where a line has ended, and when it
ends a newline is added within a line only; only whole lines are dropped; and a destination is
attached where a line has ended. -/
def Orderly (t : Topic) : Event → Prop
  | .sourceData p _ => (t.sources p).terminated = false → (t.sources p).piped = true →
      t.destroyed = false → t.queue.sent t.served.length = [] → (linesOf (text t.written)).2 = []
  | .sourceEnd p => (t.sources p).terminated = false → t.destroyed = false →
      ∀ lastChunk ∈ (t.sources p).lastChunks, lastChunk.getLast? ≠ some newlineByte →
        (linesOf (text t.written)).2 ≠ []
  | .transform _ => t.destroyed = false → t.outstanding = none → t.hasConsumer = false →
      (∀ source, t.activeIngress ≠ some ⟨source, false⟩) → ∀ w, t.writable.head? = some w →
        (linesOf (text t.transformed)).2 = [] ∧ (linesOf w.bytes).2 = []
  | .pipe d _ => d ∉ t.pipeTargets →
      (linesOf (text (t.received d))).2 = [] ∧ (linesOf (text t.delivered)).2 = []
  | _ => True

theorem advances_updateSource (p : ℕ) {f : Source → Source}
    (hterminated : (t.sources p).terminated = true → (f (t.sources p)).terminated = true)
    (hlastChunks : (f (t.sources p)).lastChunks.length = (t.sources p).lastChunks.length) :
    t.queue.Advances (t.updateSource p f).queue := by
  intro h
  apply h.sources
  · intro r hr
    by_cases hrp : r = p
    · subst hrp
      rw [updateSource_self]
      exact hterminated hr
    · rw [updateSource_other f hrp]
      exact hr
  · intro r
    by_cases hrp : r = p
    · subst hrp
      rw [updateSource_self]
      exact hlastChunks
    · rw [updateSource_other f hrp]
      rfl

theorem advances_resolve (p : ℕ) : t.queue.Advances (t.resolve p).queue :=
  fun h => h.same rfl rfl rfl

theorem advances_failPendingIngress : t.queue.Advances t.failPendingIngress.queue := by
  rcases queue_failPendingIngress (t := t) with hqueue | hqueue
  · rw [hqueue]
    exact .refl _
  · rw [hqueue]
    intro h
    have hunpiped : ({ t.queue with
        sources := fun q => (t.sources q).unpipe } : Queue).Records ∧
        t.queue.Grows { t.queue with sources := fun q => (t.sources q).unpipe } := by
      apply h.sources
      · exact fun _ hp => hp
      · exact fun _ => rfl
    have hdestroyed : Queue.Advances { t.queue with sources := fun q => (t.sources q).unpipe }
        { t.queue with destroyed := true, sources := fun q => (t.sources q).unpipe } :=
      fun h => h.same rfl rfl rfl
    obtain ⟨hrecords, hgrows⟩ := hdestroyed hunpiped.1
    exact ⟨hrecords, hunpiped.2.trans hgrows⟩

theorem advances_sourceData (hsound : t.queue.Sound) {p : ℕ} {bytes : List UInt8}
    (horderly : Orderly t (.sourceData p bytes)) :
    t.queue.Advances (t.sourceData p bytes).queue := by
  unfold sourceData
  dsimp only
  split_ifs with hterminated hpiped
  · exact .refl _
  · rw [Bool.not_eq_true] at hterminated
    have hwrite : t.queue.Advances (t.write (some p) false bytes).queue := by
      unfold write
      split_ifs with hdestroyed
      · exact .refl _
      · rw [Bool.not_eq_true] at hdestroyed
        intro h
        apply h.data rfl rfl rfl
        · exact hsound.last p (hsound.piped p hpiped)
        · exact hterminated
        · exact horderly hterminated hpiped hdestroyed
    exact hwrite.trans (advances_updateSource p id (List.length_map _))
  · exact advances_updateSource p id (List.length_map _)

theorem advances_sourceEnd (hsound : t.queue.Sound) {p : ℕ}
    (horderly : Orderly t (.sourceEnd p)) : t.queue.Advances (t.sourceEnd p).queue := by
  intro h
  unfold sourceEnd
  split_ifs with hterminated
  · exact ⟨h, .refl _⟩
  · rw [Bool.not_eq_true] at hterminated
    have hended : t.queue.Advances (t.updateSource p .emitEnd).queue :=
      advances_updateSource p (fun _ => rfl) rfl
    have hlastChunks : ((t.updateSource p .emitEnd).sources p).lastChunks =
        (t.sources p).lastChunks := by
      rw [updateSource_self]
      rfl
    have hnewlines : (t.updateSource p .emitEnd).queue.Advances
        ((t.updateSource p .emitEnd).addNewlines p).queue := by
      have hlength : (t.sources p).lastChunks.length ≤ 1 := h.listens p hterminated
      unfold addNewlines
      rw [hlastChunks]
      cases hchunks : (t.sources p).lastChunks with
      | nil => exact .refl _
      | cons lastChunk rest =>
        have hrest : rest = [] := by
          rw [hchunks, List.length_cons] at hlength
          apply List.length_eq_zero_iff.mp
          omega
        subst hrest
        rw [List.foldl_cons, List.foldl_nil]
        split_ifs with hnewline
        · exact .refl _
        · unfold write
          split_ifs with hdestroyed
          · exact .refl _
          · rw [Bool.not_eq_true] at hdestroyed
            have hcurrent : t.queue.Current p := by
              have hne : (t.queue.sources p).lastChunks ≠ [] := by
                show (t.sources p).lastChunks ≠ []
                rw [hchunks]
                exact List.cons_ne_nil _ _
              apply (hsound.listens p hne).resolve_left
              show ¬ (t.sources p).terminated = true
              rw [hterminated]
              exact Bool.false_ne_true
            intro h
            apply h.newline rfl rfl
            · exact hsound.last p hcurrent
            · show ((t.updateSource p .emitEnd).sources p).terminated = true
              rw [updateSource_self]
              rfl
            · apply horderly hterminated hdestroyed lastChunk _ hnewline
              rw [hchunks]
              exact List.mem_cons_self
    exact ((hended.trans hnewlines).trans (advances_resolve p)) h

theorem advances_sourceError (p : ℕ) : t.queue.Advances (t.sourceError p).queue := by
  have herrored : t.queue.Advances (t.updateSource p .emitError).queue :=
    advances_updateSource p (fun _ => Source.terminated_emitError) rfl
  unfold sourceError
  split_ifs
  · exact .refl _
  · dsimp only
    split_ifs
    · exact (herrored.trans advances_failPendingIngress).trans (advances_resolve p)
    · exact herrored.trans (advances_resolve p)

theorem advances_sourceClose (p : ℕ) : t.queue.Advances (t.sourceClose p).queue := by
  have hclosed : t.queue.Advances (t.updateSource p .emitClose).queue :=
    advances_updateSource p (fun _ => Source.terminated_emitClose) rfl
  unfold sourceClose
  split_ifs
  · exact .refl _
  · dsimp only
    split_ifs
    · exact (hclosed.trans advances_failPendingIngress).trans (advances_resolve p)
    · exact hclosed.trans (advances_resolve p)

theorem advances_sourceAborted (p : ℕ) : t.queue.Advances (t.sourceAborted p).queue := by
  unfold sourceAborted
  split_ifs
  · exact .refl _
  · exact advances_failPendingIngress
  · exact .refl _

theorem length_lastChunks_serve {p : ℕ} {rest : List ℕ} (hqueue : t.pipeQueue = p :: rest) :
    (t.serve.sources p).lastChunks.length ≤ (t.sources p).lastChunks.length + 1 := by
  unfold serve
  rw [hqueue]
  show (if p = p then _ else _ : Source).lastChunks.length ≤ _
  rw [if_pos rfl]
  unfold Source.pipe
  dsimp only
  split_ifs
  · exact Nat.le_of_eq List.length_append
  · exact Nat.le_succ _

theorem advances_serve (hbounded : ∀ w ∈ t.written, w.turn ≤ t.served.length) {p : ℕ}
    {rest : List ℕ} (hqueue : t.pipeQueue = p :: rest)
    (hlistens : (t.sources p).lastChunks ≠ [] → (t.sources p).terminated = true) :
    t.queue.Advances t.serve.queue := by
  obtain ⟨sources, hother, hterminated, -, hserve⟩ := sources_serve hqueue
  have hsources : t.serve.sources = sources := congrArg Queue.sources hserve
  rw [hserve]
  intro h
  apply h.serve hbounded hother
  intro hfalse
  rw [hterminated] at hfalse
  have hnil : (t.sources p).lastChunks = [] := by
    by_contra hne
    rw [hlistens hne] at hfalse
    cases hfalse
  have hlength := length_lastChunks_serve hqueue
  rw [hsources, hnil] at hlength
  exact hlength

theorem advances_acceptPipe (hsound : t.queue.Sound) (p : ℕ) :
    t.queue.Advances (t.acceptPipe p).queue := by
  unfold acceptPipe consumePipe
  split_ifs with hconsuming
  · exact fun h => h.same rfl rfl rfl
  · rw [Option.not_isSome_iff_eq_none] at hconsuming
    have hnone : t.queue.consuming = none := hconsuming
    have hqueue : ({ t with
        pipeQueue := t.pipeQueue ++ [p], accepted := t.accepted ++ [p] } : Topic).pipeQueue =
        p :: [] := by
      show t.pipeQueue ++ [p] = [p]
      rw [show t.pipeQueue = [] from hsound.working hnone]
      rfl
    have haccepted : t.queue.Advances ({ t with
        pipeQueue := t.pipeQueue ++ [p], accepted := t.accepted ++ [p] } : Topic).queue :=
      fun h => h.same rfl rfl rfl
    refine haccepted.trans (advances_serve hsound.bounded hqueue ?_)
    intro hne
    apply (hsound.listens p hne).resolve_right
    rintro ⟨resolved, hp⟩
    rw [hnone] at hp
    cases hp

theorem advances_resume (hsound : t.queue.Sound) : t.queue.Advances t.resume.queue := by
  rcases resume_cases (t := t) with ⟨hsame, -⟩ | ⟨p, t', hconsuming, hunpipe, hresume⟩
  · rw [hsame]
    exact .refl _
  · have hunpiped : t.queue.Advances t'.queue := by
      rw [hunpipe]
      exact advances_updateSource p id rfl
    have hsound' : t'.queue.Sound := by
      rw [hunpipe]
      exact hsound.sourceUnpipe p
    have hconsuming' : t'.queue.consuming = some ⟨p, true⟩ := by
      rw [hunpipe]
      exact hconsuming
    rw [hresume]
    cases hqueue : t'.pipeQueue with
    | nil =>
      rw [serve_nil hqueue]
      exact hunpiped.trans fun h => h.same rfl rfl rfl
    | cons q rest =>
      refine hunpiped.trans (advances_serve hsound'.bounded hqueue ?_)
      exact hsound'.terminated_of_resolved hconsuming'

theorem advances_next (hsound : t.queue.Sound) {e : Event} (hwrite : ∀ bytes, e ≠ .write bytes)
    (horderly : Orderly t e) : t.queue.Advances (t.next e).queue := by
  cases e with
  | acceptPipe p => exact advances_acceptPipe hsound p
  | resume => exact advances_resume hsound
  | sourceData p bytes => exact advances_sourceData hsound horderly
  | sourceEnd p => exact advances_sourceEnd hsound horderly
  | sourceError p => exact advances_sourceError p
  | sourceClose p => exact advances_sourceClose p
  | sourceAborted p => exact advances_sourceAborted p
  | sourceUnpipe p => exact advances_updateSource p id rfl
  | write bytes => exact absurd rfl (hwrite bytes)
  | transform room =>
    show t.queue.Advances (t.transformNext room).queue
    rw [queue_transformNext]
    exact .refl _
  | read =>
    show t.queue.Advances t.read.queue
    rw [queue_read]
    exact .refl _
  | emitData =>
    show t.queue.Advances t.emitData.queue
    rw [queue_emitData]
    exact .refl _
  | pipe d room =>
    show t.queue.Advances (t.pipe d room).queue
    rw [queue_pipe]
    exact .refl _
  | unpipe d =>
    show t.queue.Advances (t.unpipe d).queue
    rw [queue_unpipe]
    exact .refl _
  | on listener =>
    show t.queue.Advances (t.on listener).queue
    rw [queue_on]
    exact .refl _
  | removeListener listener =>
    show t.queue.Advances (t.removeListener listener).queue
    rw [queue_removeListener]
    exact .refl _

/-! ## What is read -/

/-- The chunks of which it is known what becomes of them. -/
def settled (t : Topic) : List Written := t.called ++ t.pendingTransform.toList

/-- The lines of the second text are among those of the first, and the same is left. -/
def Follows (bytes read : List UInt8) : Prop :=
  (∀ line ∈ (linesOf read).1, line ∈ (linesOf bytes).1) ∧ (linesOf read).2 = (linesOf bytes).2

theorem Follows.refl (bytes : List UInt8) : Follows bytes bytes := ⟨fun _ h => h, rfl⟩

theorem Follows.append {bytes read : List UInt8} (h : Follows bytes read) (more : List UInt8) :
    Follows (bytes ++ more) (read ++ more) := by
  unfold Follows linesOf
  rw [lines_append bytes, lines_append read, h.2]
  refine ⟨fun line hline => ?_, rfl⟩
  rcases List.mem_append.mp hline with hline | hline
  · exact List.mem_append_left _ (h.1 line hline)
  · exact List.mem_append_right _ hline

theorem Follows.skip {bytes read more : List UInt8} (h : Follows bytes read)
    (hbytes : (linesOf bytes).2 = []) (hmore : (linesOf more).2 = []) :
    Follows (bytes ++ more) read := by
  unfold Follows linesOf
  rw [lines_append bytes, hbytes, List.nil_append]
  refine ⟨fun line hline => ?_, (h.2.trans hbytes).trans hmore.symm⟩
  exact List.mem_append_left _ (h.1 line hline)

structure Reading (t : Topic) : Prop where
  pushed : t.destroyed = false → Follows (text t.settled) (text t.pushed)
  buffered : t.delivered ++ t.readable = t.pushed
  attached : ∀ d ∈ t.pipeTargets,
    (linesOf (text (t.received d))).2 = (linesOf (text t.delivered)).2

structure Aside (t t' : Topic) : Prop where
  destroyed : t'.destroyed = false → t.destroyed = false
  settled : t'.destroyed = false → t'.settled = t.settled
  pushed : t'.pushed = t.pushed
  delivered : t'.delivered = t.delivered
  readable : t'.readable = t.readable
  received : t'.received = t.received
  pipeTargets : t'.pipeTargets = t.pipeTargets

theorem Aside.refl (t : Topic) : Aside t t := ⟨id, fun _ => rfl, rfl, rfl, rfl, rfl, rfl⟩

theorem Aside.trans (h : Aside t t') (h' : Aside t' t'') : Aside t t'' where
  destroyed := h.destroyed ∘ h'.destroyed
  settled hfalse := (h'.settled hfalse).trans (h.settled (h'.destroyed hfalse))
  pushed := h'.pushed.trans h.pushed
  delivered := h'.delivered.trans h.delivered
  readable := h'.readable.trans h.readable
  received := h'.received.trans h.received
  pipeTargets := h'.pipeTargets.trans h.pipeTargets

theorem Reading.aside (h : Reading t) (haside : Aside t t') : Reading t' where
  pushed := by
    intro hfalse
    rw [haside.settled hfalse, haside.pushed]
    exact h.pushed (haside.destroyed hfalse)
  buffered := by
    rw [haside.delivered, haside.readable, haside.pushed]
    exact h.buffered
  attached := by
    rw [haside.pipeTargets, haside.received, haside.delivered]
    exact h.attached

theorem aside_updateSource (p : ℕ) (f : Source → Source) : Aside t (t.updateSource p f) :=
  ⟨id, fun _ => rfl, rfl, rfl, rfl, rfl, rfl⟩

theorem aside_resolve (p : ℕ) : Aside t (t.resolve p) :=
  ⟨id, fun _ => rfl, rfl, rfl, rfl, rfl, rfl⟩

theorem aside_write (source : Option ℕ) (added : Bool) (bytes : List UInt8) :
    Aside t (t.write source added bytes) := by
  unfold write
  split_ifs
  · exact .refl t
  · exact ⟨id, fun _ => rfl, rfl, rfl, rfl, rfl, rfl⟩

theorem aside_addNewlines (p : ℕ) : Aside t (t.addNewlines p) := by
  unfold addNewlines
  generalize (t.sources p).lastChunks = lastChunks
  induction lastChunks generalizing t with
  | nil => exact .refl t
  | cons lastChunk lastChunks ih =>
    rw [List.foldl_cons]
    split_ifs
    · exact ih
    · exact (aside_write _ _ _).trans ih

theorem aside_failPendingIngress : Aside t t.failPendingIngress := by
  cases hingress : t.pendingIngress with
  | none =>
    rw [failPendingIngress_of_none hingress]
    exact .refl t
  | some pending =>
    obtain ⟨ingress, hfail⟩ := failPendingIngress_eq hingress
    rw [hfail]
    refine ⟨fun hfalse => ?_, fun hfalse => ?_, rfl, rfl, rfl, rfl, rfl⟩ <;> cases hfalse

theorem aside_serve : Aside t t.serve := by
  unfold serve
  split <;> exact ⟨id, fun _ => rfl, rfl, rfl, rfl, rfl, rfl⟩

theorem aside_acceptPipe (p : ℕ) : Aside t (t.acceptPipe p) := by
  have haccepted : Aside t
      { t with pipeQueue := t.pipeQueue ++ [p], accepted := t.accepted ++ [p] } :=
    ⟨id, fun _ => rfl, rfl, rfl, rfl, rfl, rfl⟩
  unfold acceptPipe consumePipe
  split_ifs
  · exact haccepted
  · exact haccepted.trans aside_serve

theorem aside_resume : Aside t t.resume := by
  unfold resume
  split
  · dsimp only
    apply Aside.trans _ aside_serve
    exact ⟨id, fun _ => rfl, rfl, rfl, rfl, rfl, rfl⟩
  · exact .refl t

theorem aside_sourceData (p : ℕ) (bytes : List UInt8) : Aside t (t.sourceData p bytes) := by
  unfold sourceData
  dsimp only
  split_ifs
  · exact .refl t
  · exact (aside_write _ _ _).trans (aside_updateSource _ _)
  · exact aside_updateSource _ _

theorem aside_sourceEnd (p : ℕ) : Aside t (t.sourceEnd p) := by
  unfold sourceEnd
  split_ifs
  · exact .refl t
  · exact ((aside_updateSource _ _).trans (aside_addNewlines p)).trans (aside_resolve p)

theorem aside_sourceError (p : ℕ) : Aside t (t.sourceError p) := by
  unfold sourceError
  split_ifs
  · exact .refl t
  · dsimp only
    split_ifs
    · exact ((aside_updateSource _ _).trans aside_failPendingIngress).trans (aside_resolve p)
    · exact (aside_updateSource _ _).trans (aside_resolve p)

theorem aside_sourceClose (p : ℕ) : Aside t (t.sourceClose p) := by
  unfold sourceClose
  split_ifs
  · exact .refl t
  · dsimp only
    split_ifs
    · exact ((aside_updateSource _ _).trans aside_failPendingIngress).trans (aside_resolve p)
    · exact (aside_updateSource _ _).trans (aside_resolve p)

theorem aside_sourceAborted (p : ℕ) : Aside t (t.sourceAborted p) := by
  unfold sourceAborted
  split_ifs
  · exact .refl t
  · exact aside_failPendingIngress
  · exact .refl t

theorem aside_read : Aside t t.read := by
  unfold read
  split
  · exact .refl t
  next w hpending =>
    refine ⟨id, fun _ => ?_, rfl, rfl, rfl, rfl, rfl⟩
    show t.called ++ [w] ++ (none : Option Written).toList = t.called ++ t.pendingTransform.toList
    rw [hpending, Option.toList_none, List.append_nil]
    rfl

theorem aside_on (listener : Listener) : Aside t (t.on listener) := by
  cases listener with
  | data | readable => exact ⟨id, fun _ => rfl, rfl, rfl, rfl, rfl, rfl⟩

theorem aside_removeListener (listener : Listener) : Aside t (t.removeListener listener) := by
  cases listener with
  | data | readable => exact ⟨id, fun _ => rfl, rfl, rfl, rfl, rfl, rfl⟩

theorem pending_of_outstanding (h : t.outstanding = none) :
    t.pendingIngress = none ∧ t.pendingTransform = none := by
  unfold outstanding at h
  rw [Option.or_eq_none_iff, Option.map_eq_none_iff] at h
  exact h

theorem Reading.transformNext (h : Reading t) (hsound : t.account.Sound) {room : Bool}
    (horderly : Orderly t (.transform room)) : Reading (t.transformNext room) := by
  rcases t.transformNext_cases room with ⟨hsame, -⟩ |
    ⟨w, rest, hwritable, hdestroyed, houtstanding, htransformed⟩
  · rw [hsame]
    exact h
  · obtain ⟨-, hnone⟩ := pending_of_outstanding houtstanding
    have hsettled : t.settled = t.called := by
      unfold settled
      rw [hnone, Option.toList_none, List.append_nil]
    have hpushed : Follows (text t.called) (text t.pushed) := by
      rw [← hsettled]
      exact h.pushed hdestroyed
    have happended : Follows (text (t.called ++ [w])) (text (t.pushed ++ [w])) := by
      rw [text_append, text_append]
      exact hpushed.append _
    have hbuffered : t.delivered ++ (t.readable ++ [w]) = t.pushed ++ [w] := by
      rw [← List.append_assoc, h.buffered]
    generalize t.transformNext room = t' at htransformed ⊢
    cases htransformed with
    | pushed ingress hhas =>
      refine ⟨fun _ => ?_, hbuffered, h.attached⟩
      show Follows (text (t.called ++ [w] ++ t.pendingTransform.toList)) (text (t.pushed ++ [w]))
      rw [hnone, Option.toList_none, List.append_nil]
      exact happended
    | full ingress hhas => exact ⟨fun _ => happended, hbuffered, h.attached⟩
    | held hhas hingress => exact ⟨h.pushed, h.buffered, h.attached⟩
    | dropped ingress hhas hunseen =>
      refine ⟨fun _ => ?_, h.buffered, h.attached⟩
      have hcalled : t.called = t.transformed := by
        have hcalledOnce : t.called ++ t.outstanding.toList = t.transformed := hsound.calledOnce
        rwa [houtstanding, Option.toList_none, List.append_nil] at hcalledOnce
      obtain ⟨hrest, hbytes⟩ := horderly hdestroyed houtstanding hhas hunseen w
        (by rw [hwritable]; rfl)
      show Follows (text (t.called ++ [w] ++ t.pendingTransform.toList)) (text t.pushed)
      rw [hnone, Option.toList_none, List.append_nil, text_append, text_singleton]
      apply hpushed.skip _ hbytes
      rw [hcalled]
      exact hrest

theorem Reading.flushPendingIngress (h : Reading t) (hsound : t.account.Sound) (room : Bool) :
    Reading (t.flushPendingIngress room) := by
  unfold Topic.flushPendingIngress
  split
  · exact h
  next pending hingress =>
    split_ifs
    · obtain ⟨ingress, hclear⟩ := t.clearPendingIngress_eq
      have hnone : t.pendingTransform = none := by
        apply hsound.single
        show t.pendingIngress ≠ none
        rw [hingress]
        exact Option.some_ne_none _
      have happended (hdestroyed : t.destroyed = false) :
          Follows (text (t.called ++ [pending.chunk])) (text (t.pushed ++ [pending.chunk])) := by
        have hpushed := h.pushed hdestroyed
        unfold settled at hpushed
        rw [hnone, Option.toList_none, List.append_nil] at hpushed
        rw [text_append, text_append]
        exact hpushed.append _
      have hbuffered :
          t.delivered ++ (t.readable ++ [pending.chunk]) = t.pushed ++ [pending.chunk] := by
        rw [← List.append_assoc, h.buffered]
      rw [hclear]
      cases room with
      | true =>
        refine ⟨fun hdestroyed => ?_, hbuffered, h.attached⟩
        show Follows (text (t.called ++ [pending.chunk] ++ t.pendingTransform.toList))
          (text (t.pushed ++ [pending.chunk]))
        rw [hnone, Option.toList_none, List.append_nil]
        exact happended hdestroyed
      | false => exact ⟨happended, hbuffered, h.attached⟩
    · exact h

theorem Reading.pipe (h : Reading t) (hsound : t.account.Sound) {d : ℕ} {room : Bool}
    (horderly : Orderly t (.pipe d room)) : Reading (t.pipe d room) := by
  unfold Topic.pipe
  split_ifs with hmem
  · exact h
  · obtain ⟨hreceived, hdelivered⟩ := horderly hmem
    have hpiped : Reading { t with pipeTargets := t.pipeTargets ++ [d] } := by
      refine ⟨h.pushed, h.buffered, fun d' hd' => ?_⟩
      rcases List.mem_append.mp hd' with hd' | hd'
      · exact h.attached d' hd'
      · rw [List.mem_singleton] at hd'
        subst hd'
        exact hreceived.trans hdelivered.symm
    exact hpiped.flushPendingIngress hsound room

theorem Reading.unpipe (h : Reading t) (d : Option ℕ) : Reading (t.unpipe d) := by
  cases d with
  | none => exact ⟨h.pushed, h.buffered, fun d' hd' => absurd hd' List.not_mem_nil⟩
  | some d => exact ⟨h.pushed, h.buffered, fun d' hd' => h.attached d' (List.mem_of_mem_erase hd')⟩

theorem rest_append {a b : List UInt8} (h : (linesOf a).2 = (linesOf b).2) (bytes : List UInt8) :
    (linesOf (a ++ bytes)).2 = (linesOf (b ++ bytes)).2 := by
  unfold linesOf
  rw [lines_append a, lines_append b, h]

theorem Reading.emitData (h : Reading t) : Reading t.emitData := by
  unfold Topic.emitData
  split
  · exact h
  next w rest hreadable =>
    split_ifs
    · exact h
    · refine ⟨h.pushed, ?_, fun d hd => ?_⟩
      · show t.delivered ++ [w] ++ rest = t.pushed
        rw [List.append_assoc, ← h.buffered, hreadable]
        rfl
      · have hd' : d ∈ t.pipeTargets := hd
        show (linesOf (text (if d ∈ t.pipeTargets then t.received d ++ [w] else t.received d))).2 =
          (linesOf (text (t.delivered ++ [w]))).2
        rw [if_pos hd', text_append, text_append]
        exact rest_append (h.attached d hd') _

theorem Reading.next (h : Reading t) (hsound : t.account.Sound) {e : Event}
    (horderly : Orderly t e) : Reading (t.next e) := by
  cases e with
  | acceptPipe p => exact h.aside (aside_acceptPipe p)
  | resume => exact h.aside aside_resume
  | sourceData p bytes => exact h.aside (aside_sourceData p bytes)
  | sourceEnd p => exact h.aside (aside_sourceEnd p)
  | sourceError p => exact h.aside (aside_sourceError p)
  | sourceClose p => exact h.aside (aside_sourceClose p)
  | sourceAborted p => exact h.aside (aside_sourceAborted p)
  | sourceUnpipe p => exact h.aside (aside_updateSource p _)
  | write bytes => exact h.aside (aside_write none false bytes)
  | transform room => exact h.transformNext hsound horderly
  | read => exact h.aside aside_read
  | emitData => exact h.emitData
  | pipe d room => exact h.pipe hsound horderly
  | unpipe d => exact h.unpipe d
  | on listener => exact h.aside (aside_on listener)
  | removeListener listener => exact h.aside (aside_removeListener listener)

/-! ## Runs -/

/-- What each destination has read consists of lines of one producer each. -/
def Unmixed (t : Topic) : Prop := ∀ d, t.queue.Clean (text (t.received d))

theorem settled_isPrefix (hsound : t.account.Sound) : t.settled <+: t.transformed := by
  have hcalledOnce : t.called ++ t.outstanding.toList = t.transformed := hsound.calledOnce
  unfold settled
  rw [← hcalledOnce]
  unfold outstanding
  cases hingress : t.pendingIngress with
  | none =>
    show t.called ++ t.pendingTransform.toList <+: t.called ++ t.pendingTransform.toList
    exact List.prefix_rfl
  | some pending =>
    have hnone : t.pendingTransform = none := by
      apply hsound.single
      show t.pendingIngress ≠ none
      rw [hingress]
      exact Option.some_ne_none _
    rw [hnone, Option.toList_none, List.append_nil]
    exact List.prefix_append _ _

theorem text_isPrefix {a b : List Written} (h : a <+: b) : text a <+: text b := by
  obtain ⟨rest, rfl⟩ := h
  rw [text_append]
  exact List.prefix_append _ _

theorem clean_pushed (hsound : t.account.Sound) (hrecords : t.queue.Records) (hreading : Reading t)
    (hdestroyed : t.destroyed = false) : t.queue.Clean (text t.pushed) := by
  have hwritten : t.transformed <+: t.written := ⟨t.writable, hsound.arrived⟩
  have hsettled : t.queue.Clean (text t.settled) :=
    hrecords.clean.of_isPrefix (text_isPrefix ((settled_isPrefix hsound).trans hwritten))
  obtain ⟨hlines, hrest⟩ := hreading.pushed hdestroyed
  refine ⟨fun line hline => hsettled.1 line (hlines line hline), ?_⟩
  rw [hrest]
  exact hsettled.2

theorem Unmixed.emitData (h : Unmixed t) (hsound : t.account.Sound) (hrecords : t.queue.Records)
    (hreading : Reading t) : Unmixed t.emitData := by
  intro d
  rw [queue_emitData]
  unfold Topic.emitData
  split
  · exact h d
  next w rest hreadable =>
    split_ifs with hdestroyed
    · exact h d
    · rw [Bool.not_eq_true] at hdestroyed
      show t.queue.Clean (text (if d ∈ t.pipeTargets then t.received d ++ [w] else t.received d))
      split_ifs with hd
      · have hdelivered : t.queue.Clean (text (t.delivered ++ [w])) := by
          apply (clean_pushed hsound hrecords hreading hdestroyed).of_isPrefix
          apply text_isPrefix
          refine ⟨rest, ?_⟩
          rw [List.append_assoc, ← hreading.buffered, hreadable]
          rfl
        have hrest := hreading.attached d hd
        rw [text_append] at hdelivered ⊢
        refine ⟨fun line hline => ?_, ?_⟩
        · rw [show linesOf (text (t.received d) ++ text [w]) = _ from lines_append _ _] at hline
          rcases List.mem_append.mp hline with hline | hline
          · exact (h d).1 line hline
          · apply hdelivered.1 line
            apply mem_lines_append
            rw [← hrest]
            exact hline
        · rw [rest_append hrest]
          exact hdelivered.2
      · exact h d

theorem received_flushPendingIngress (room : Bool) :
    (t.flushPendingIngress room).received = t.received := by
  unfold flushPendingIngress
  split
  · rfl
  · split_ifs
    · obtain ⟨ingress, hclear⟩ := t.clearPendingIngress_eq
      rw [hclear]
      cases room with
      | true | false => rfl
    · rfl

theorem received_next {e : Event} (h : e ≠ .emitData) : (t.next e).received = t.received := by
  cases e with
  | acceptPipe p => exact (aside_acceptPipe p).received
  | resume => exact aside_resume.received
  | sourceData p bytes => exact (aside_sourceData p bytes).received
  | sourceEnd p => exact (aside_sourceEnd p).received
  | sourceError p => exact (aside_sourceError p).received
  | sourceClose p => exact (aside_sourceClose p).received
  | sourceAborted p => exact (aside_sourceAborted p).received
  | sourceUnpipe p => rfl
  | write bytes => exact (aside_write none false bytes).received
  | transform room =>
    show (t.transformNext room).received = t.received
    rcases t.transformNext_cases room with ⟨hsame, -⟩ | ⟨w, rest, -, -, -, htransformed⟩
    · rw [hsame]
    · generalize t.transformNext room = t' at htransformed ⊢
      cases htransformed with
      | pushed ingress | full ingress | held | dropped ingress => rfl
  | read => exact aside_read.received
  | emitData => exact absurd rfl h
  | pipe d room =>
    show (t.pipe d room).received = t.received
    unfold pipe
    split_ifs
    · rfl
    · exact received_flushPendingIngress room
  | unpipe d =>
    cases d with
    | none | some d => rfl
  | on listener => exact (aside_on listener).received
  | removeListener listener => exact (aside_removeListener listener).received

structure Inv (t : Topic) : Prop where
  account : t.account.Sound
  queue : t.queue.Sound
  records : t.queue.Records
  reading : Reading t

theorem Inv.next (h : Inv t) {e : Event} (hwrite : ∀ bytes, e ≠ .write bytes)
    (horderly : Orderly t e) : Inv (t.next e) where
  account := h.account.next e
  queue := h.queue.next e
  records := (advances_next h.queue hwrite horderly h.records).1
  reading := h.reading.next h.account horderly

theorem Unmixed.next (h : Unmixed t) (hinv : Inv t) {e : Event} (hwrite : ∀ bytes, e ≠ .write bytes)
    (horderly : Orderly t e) : Unmixed (t.next e) := by
  by_cases hemit : e = .emitData
  · subst hemit
    exact h.emitData hinv.account hinv.records hinv.reading
  · intro d
    rw [received_next hemit]
    exact (h d).grows (advances_next hinv.queue hwrite horderly hinv.records).2

theorem inv_new (contentType : ContentType) : Inv (new contentType) where
  account := sound_new contentType
  queue := queue_sound_new contentType
  records := by
    refine ⟨?_, .inl rfl, fun p hp => ?_, fun p _ => ?_⟩
    · exact fun line hline => absurd hline List.not_mem_nil
    · cases hp
    · exact Nat.zero_le _
  reading := ⟨fun _ => .refl _, rfl, fun d hd => absurd hd List.not_mem_nil⟩

theorem unmixed_new (contentType : ContentType) : Unmixed (new contentType) :=
  fun _ => ⟨fun _ hline => absurd hline List.not_mem_nil, 0, begins_nil _⟩

/-- Whatever is done to a topic, it hands chunks on in the order in which they were written, each
once, and those of a producer in the turn that it got when it was accepted. -/
theorem pushed_in_turn (contentType : ContentType) (events : List Event) :
    let t := events.foldl next (new contentType)
    (t.pushed.map (·.number)).Pairwise (· < ·) ∧ (t.pushed.map (·.turn)).Pairwise (· ≤ ·) ∧
      ∀ w ∈ t.pushed, ∀ p, w.source = some p → t.accepted[w.turn - 1]? = some p := by
  intro t
  have hrun : t.account.Sound ∧ t.queue.Sound := by
    apply (System.reachable_foldl events).invariant_ofFun
      (I := fun t : Topic => t.account.Sound ∧ t.queue.Sound)
    · exact ⟨sound_new contentType, queue_sound_new contentType⟩
    · exact fun _ e h _ => ⟨h.1.next e, h.2.next e⟩
  obtain ⟨haccount, hqueue⟩ := hrun
  have hsub : t.pushed.Sublist t.written := by
    have harrived : t.transformed ++ t.writable = t.written := haccount.arrived
    have hinOrder := (List.sublist_append_left _ _).trans haccount.inOrder
    rw [← harrived]
    exact hinOrder.trans (List.sublist_append_left _ _)
  have hnumbers : t.written.map (·.number) = List.range t.written.length := haccount.numbers
  refine ⟨(hnumbers ▸ List.pairwise_lt_range).sublist (hsub.map _),
    hqueue.ordered.sublist (hsub.map _), fun w hw p hp => ?_⟩
  have hserved : t.served[w.turn - 1]? = some p := (hqueue.turns w (hsub.subset hw) p hp).2
  have harrival : t.served ++ t.pipeQueue = t.accepted := hqueue.arrival
  rw [← harrival, List.getElem?_append_left (List.getElem?_eq_some_iff.mp hserved).1]
  exact hserved

/-- Where nobody but the producers writes to a topic, in an orderly run every destination reads lines
that are each of one producer. -/
theorem unmixed_of_orderly (contentType : ContentType) (events : List Event)
    (hproducers : ∀ e ∈ events, ∀ bytes, e ≠ .write bytes)
    (horderly : System.Meets next Orderly (new contentType) events) :
    System.Always next Unmixed (new contentType) events := by
  apply System.always_of_meets (I := Inv) _ (inv_new contentType) (unmixed_new contentType)
  · exact System.meets_and horderly hproducers
  · intro t e hinv hunmixed hok
    exact ⟨hinv.next hok.1 hok.2, hunmixed.next hinv hok.1 hok.2⟩

/-- Two producers, of which the first ends within a line. -/
def endedRun : List Event :=
  [.acceptPipe 0, .acceptPipe 1, .pipe 0 true, .sourceData 0 [97, 10, 98], .transform true,
    .sourceEnd 0, .transform true, .resume, .sourceData 1 [99, 10], .transform true, .emitData,
    .emitData, .emitData]

theorem endedRun_unmixed : System.Always next Unmixed (new .applicationXNdjson) endedRun := by
  apply unmixed_of_orderly
  · unfold endedRun
    simp
  · refine ⟨trivial, trivial, fun _ => ⟨rfl, rfl⟩, fun _ _ _ _ => rfl, ?_, ?_, ?_, trivial, ?_, ?_,
      trivial, trivial, trivial, trivial⟩
    · exact fun _ _ hnone => absurd hnone (by decide)
    · exact fun _ _ => by decide
    · exact fun _ _ hnone => absurd hnone (by decide)
    · exact fun _ _ _ _ => by decide
    · exact fun _ _ hnone => absurd hnone (by decide)

/-- The first producer is aborted within a line. -/
def abortedRun : List Event :=
  [.acceptPipe 0, .acceptPipe 1, .pipe 0 true, .sourceData 0 [97], .transform true, .sourceClose 0,
    .resume, .sourceData 1 [98, 10], .transform true, .emitData, .emitData]

/-- The bytes of two producers are on one line. -/
theorem abortedRecord_mixed :
    ¬ System.Always next Unmixed (new .applicationXNdjson) abortedRun := by
  intro h
  obtain ⟨turn, hgood⟩ := (System.always_last h 0).1 [97, 98] (by decide)
  have hline := hgood.imp_right And.left
  -- the producers have written in the first two turns
  match turn with
  | 0 => exact absurd hline (by decide)
  | 1 => exact absurd hline (by decide)
  | 2 => exact absurd hline (by decide)
  | turn + 3 =>
    rcases hline with hline | hline
    · exact absurd hline List.not_mem_nil
    · cases hline

end TransformHub.Host.Topic
