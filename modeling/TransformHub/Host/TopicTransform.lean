import TransformHub.Host.Topic

/-!
# Accounts of a topic

What becomes of the chunks that are written to a topic.
-/

namespace TransformHub.Host.Topic

/-! ## The account -/

/-- What the account of a topic rests on. -/
structure Account where
  pendingTransform : Option Written
  pendingIngress : Option PendingIngress
  destroyed : Bool
  writable : List Written
  written : List Written
  transformed : List Written
  called : List Written
  pushed : List Written
  dropped : List (Written × Bool)

def account (t : Topic) : Account :=
  ⟨t.pendingTransform, t.pendingIngress, t.destroyed, t.writable, t.written, t.transformed,
    t.called, t.pushed, t.dropped⟩

namespace Account

def outstanding (a : Account) :
    Option Written := (a.pendingIngress.map (·.chunk)).or a.pendingTransform

def held (a : Account) : List Written := (a.pendingIngress.map (·.chunk)).toList

structure Sound (a : Account) : Prop where
  arrived : a.transformed ++ a.writable = a.written
  numbers : a.written.map (·.number) = List.range a.written.length
  calledOnce : a.called ++ a.outstanding.toList = a.transformed
  single : a.pendingIngress ≠ none → a.pendingTransform = none
  inOrder : (a.pushed ++ a.held).Sublist a.transformed
  kept : a.destroyed = false → ∀ w ∈ a.transformed,
    w ∈ a.pushed ∨ (∃ consumer, (w, consumer) ∈ a.dropped) ∨ w ∈ a.held
  dropped : ∀ d ∈ a.dropped, d.2 = false
  undestroyed : a.destroyed = true → a.pendingIngress = none

variable {a : Account}

theorem Sound.write (h : a.Sound) {w : Written} (hw : w.number = a.written.length) :
    { a with writable := a.writable ++ [w], written := a.written ++ [w] }.Sound :=
  { h with
    arrived := by rw [← h.arrived, List.append_assoc]
    numbers := by
      rw [List.map_append, h.numbers, List.map_singleton, hw, List.length_append,
        List.length_singleton, List.range_succ] }

theorem Sound.transform (h : a.Sound) (hdestroyed : a.destroyed = false)
    (houtstanding : a.outstanding = none) {w : Written} {rest : List Written}
    (hwritable : a.writable = w :: rest) {a' : Account}
    (hwritable' : a'.writable = rest) (hwritten : a'.written = a.written)
    (htransformed : a'.transformed = a.transformed ++ [w]) (hdestroyed' : a'.destroyed = false)
    (hcalled : a'.called ++ a'.outstanding.toList = a.called ++ [w])
    (hsingle : a'.pendingIngress ≠ none → a'.pendingTransform = none)
    (hpushed : a'.pushed ++ a'.held = a.pushed ++ [w] ∧ a'.dropped = a.dropped ∨
      a'.pushed ++ a'.held = a.pushed ∧ a'.dropped = a.dropped ++ [(w, false)]) :
    a'.Sound := by
  have hheld : a.held = [] := by
    have hnone : a.pendingIngress = none := by
      cases hingress : a.pendingIngress with
      | none => rfl
      | some pending =>
        unfold outstanding at houtstanding
        rw [hingress] at houtstanding
        cases houtstanding
    unfold held
    rw [hnone]
    rfl
  have hpushedOld : a.pushed.Sublist a.transformed := by
    have hinOrder := h.inOrder
    rwa [hheld, List.append_nil] at hinOrder
  have hcalledOld : a.called = a.transformed := by
    have hcalledOnce := h.calledOnce
    rwa [houtstanding, Option.toList_none, List.append_nil] at hcalledOnce
  have hkeptOld : ∀ w ∈ a.transformed,
      w ∈ a.pushed ∨ ∃ consumer, (w, consumer) ∈ a.dropped := by
    intro w hw
    rcases h.kept hdestroyed w hw with hw | hw | hw
    · exact .inl hw
    · exact .inr hw
    · rw [hheld] at hw
      cases hw
  constructor
  · rw [htransformed, hwritable', hwritten, ← h.arrived, hwritable, List.append_assoc]
    rfl
  · rw [hwritten]
    exact h.numbers
  · rw [hcalled, htransformed, hcalledOld]
  · exact hsingle
  · rw [htransformed]
    rcases hpushed with ⟨hpushed, -⟩ | ⟨hpushed, -⟩
    · rw [hpushed]
      exact hpushedOld.append (.refl _)
    · rw [hpushed]
      exact hpushedOld.trans (List.sublist_append_left _ _)
  · intro _ w' hw'
    rw [htransformed, List.mem_append, List.mem_singleton] at hw'
    rcases hpushed with ⟨hpushed, hdropped⟩ | ⟨hpushed, hdropped⟩
    · have hmem : w' ∈ a'.pushed ++ a'.held ∨ ∃ consumer, (w', consumer) ∈ a'.dropped := by
        rw [hpushed, hdropped]
        rcases hw' with hw' | rfl
        · exact (hkeptOld w' hw').imp_left (List.mem_append_left _)
        · exact .inl (List.mem_append_right _ List.mem_cons_self)
      rcases hmem with hmem | hmem
      · rcases List.mem_append.mp hmem with hmem | hmem
        · exact .inl hmem
        · exact .inr (.inr hmem)
      · exact .inr (.inl hmem)
    · have hmem : w' ∈ a'.pushed ++ a'.held ∨ ∃ consumer, (w', consumer) ∈ a'.dropped := by
        rw [hpushed, hdropped]
        rcases hw' with hw' | rfl
        · rcases hkeptOld w' hw' with hmem | ⟨consumer, hmem⟩
          · exact .inl hmem
          · exact .inr ⟨consumer, List.mem_append_left _ hmem⟩
        · exact .inr ⟨false, List.mem_append_right _ List.mem_cons_self⟩
      rcases hmem with hmem | hmem
      · rcases List.mem_append.mp hmem with hmem | hmem
        · exact .inl hmem
        · exact .inr (.inr hmem)
      · exact .inr (.inl hmem)
  · intro d hd
    rcases hpushed with ⟨-, hdropped⟩ | ⟨-, hdropped⟩
    · rw [hdropped] at hd
      exact h.dropped d hd
    · rw [hdropped, List.mem_append, List.mem_singleton] at hd
      rcases hd with hd | rfl
      · exact h.dropped d hd
      · rfl
  · intro htrue
    rw [hdestroyed'] at htrue
    cases htrue

theorem Sound.read (h : a.Sound) {w : Written} (hpending : a.pendingTransform = some w) :
    { a with pendingTransform := none, called := a.called ++ [w] }.Sound := by
  have hingress : a.pendingIngress = none := by
    by_contra hne
    rw [h.single hne] at hpending
    cases hpending
  have hcalled : a.called ++ [w] = a.transformed := by
    have hcalledOnce := h.calledOnce
    unfold outstanding at hcalledOnce
    rwa [hingress, hpending] at hcalledOnce
  constructor
  · exact h.arrived
  · exact h.numbers
  · show a.called ++ [w] ++ ((a.pendingIngress.map (·.chunk)).or none).toList = a.transformed
    rw [hingress, Option.map_none, Option.or_none, Option.toList_none, List.append_nil, hcalled]
  · exact fun _ => rfl
  · exact h.inOrder
  · exact h.kept
  · exact h.dropped
  · exact h.undestroyed

theorem Sound.flush (h : a.Sound) {pending : PendingIngress}
    (hingress : a.pendingIngress = some pending) {a' : Account}
    (hwritable : a'.writable = a.writable) (hwritten : a'.written = a.written)
    (htransformed : a'.transformed = a.transformed) (hdestroyed : a'.destroyed = a.destroyed)
    (hdropped : a'.dropped = a.dropped) (hpushed : a'.pushed = a.pushed ++ [pending.chunk])
    (hingress' : a'.pendingIngress = none)
    (hcalled : a'.called ++ a'.pendingTransform.toList = a.called ++ [pending.chunk]) :
    a'.Sound := by
  have hheld : a.held = [pending.chunk] := by
    unfold held
    rw [hingress]
    rfl
  have hheld' : a'.held = [] := by
    unfold held
    rw [hingress']
    rfl
  have hcalledOld : a.called ++ [pending.chunk] = a.transformed := by
    have hcalledOnce := h.calledOnce
    unfold outstanding at hcalledOnce
    rwa [hingress] at hcalledOnce
  constructor
  · rw [htransformed, hwritable, hwritten]
    exact h.arrived
  · rw [hwritten]
    exact h.numbers
  · unfold outstanding
    rw [hingress', Option.map_none, Option.none_or, hcalled, hcalledOld, htransformed]
  · exact fun hne => absurd hingress' hne
  · rw [hpushed, hheld', List.append_nil, htransformed, ← hheld]
    exact h.inOrder
  · intro hfalse w hw
    rw [hdestroyed] at hfalse
    rw [htransformed] at hw
    rw [hpushed, hdropped, hheld', ← hheld]
    rcases h.kept hfalse w hw with hw | hw | hw
    · exact .inl (List.mem_append_left _ hw)
    · exact .inr (.inl hw)
    · exact .inl (List.mem_append_right _ hw)
  · rw [hdropped]
    exact h.dropped
  · exact fun _ => hingress'

theorem Sound.fail (h : a.Sound) {pending : PendingIngress}
    (hingress : a.pendingIngress = some pending) :
    { a with
      pendingIngress := none
      called := a.called ++ [pending.chunk]
      destroyed := true }.Sound := by
  have hsingle : a.pendingTransform = none := by
    apply h.single
    rw [hingress]
    exact Option.some_ne_none _
  have hcalled : a.called ++ [pending.chunk] = a.transformed := by
    have hcalledOnce := h.calledOnce
    unfold outstanding at hcalledOnce
    rwa [hingress] at hcalledOnce
  constructor
  · exact h.arrived
  · exact h.numbers
  · show a.called ++ [pending.chunk] ++ (Option.or none a.pendingTransform).toList = a.transformed
    rw [hsingle, Option.or_none, Option.toList_none, List.append_nil, hcalled]
  · exact fun hne => absurd rfl hne
  · show (a.pushed ++ []).Sublist a.transformed
    rw [List.append_nil]
    exact (List.sublist_append_left _ _).trans h.inOrder
  · exact nofun
  · exact h.dropped
  · exact fun _ => rfl

end Account

/-! ## What the steps do to the account -/

variable {t : Topic}

/-- Nothing happens to the chunks and the consumers. -/
structure Quiet (t t' : Topic) : Prop where
  account : t'.account = t.account
  hasConsumer : t'.hasConsumer = t.hasConsumer

theorem Quiet.refl (t : Topic) : Quiet t t := ⟨rfl, rfl⟩

theorem Quiet.trans {t' t'' : Topic} (h : Quiet t t') (h' : Quiet t' t'') : Quiet t t'' :=
  ⟨h'.account.trans h.account, h'.hasConsumer.trans h.hasConsumer⟩

theorem quiet_updateSource (p : ℕ) (f : Source → Source) : Quiet t
    (t.updateSource p f) := ⟨rfl, rfl⟩

theorem quiet_resolve (p : ℕ) : Quiet t (t.resolve p) := ⟨rfl, rfl⟩

theorem quiet_serve : Quiet t t.serve := by
  unfold serve
  split <;> exact ⟨rfl, rfl⟩

theorem quiet_acceptPipe (p : ℕ) : Quiet t (t.acceptPipe p) := by
  unfold acceptPipe consumePipe
  split_ifs
  · exact ⟨rfl, rfl⟩
  · have hpush : Quiet t
        { t with pipeQueue := t.pipeQueue ++ [p], accepted := t.accepted ++ [p] } := ⟨rfl, rfl⟩
    exact hpush.trans quiet_serve

theorem quiet_resume : Quiet t t.resume := by
  unfold resume
  split
  · dsimp only
    apply Quiet.trans _ quiet_serve
    exact ⟨rfl, rfl⟩
  · exact .refl t

theorem quiet_emitData : Quiet t t.emitData := by
  unfold emitData
  split
  · exact .refl t
  · split_ifs
    · exact .refl t
    · exact ⟨rfl, rfl⟩

/-- No chunk is dropped, and none is held back that was not. -/
structure Gentle (t t' : Topic) : Prop where
  sound : t.account.Sound → t'.account.Sound
  destroyed : t'.destroyed = false → t.destroyed = false
  dropped : t'.dropped = t.dropped
  hasConsumer : t'.hasConsumer = t.hasConsumer
  pendingIngress : t.pendingIngress = none → t'.pendingIngress = none

theorem Gentle.refl (t : Topic) : Gentle t t := ⟨id, id, rfl, rfl, id⟩

theorem Gentle.trans {t' t'' : Topic} (h : Gentle t t') (h' : Gentle t' t'') : Gentle t t'' where
  sound := h'.sound ∘ h.sound
  destroyed := h.destroyed ∘ h'.destroyed
  dropped := h'.dropped.trans h.dropped
  hasConsumer := h'.hasConsumer.trans h.hasConsumer
  pendingIngress := h'.pendingIngress ∘ h.pendingIngress

theorem Quiet.gentle {t' : Topic} (h : Quiet t t') : Gentle t t' where
  sound hsound := by
    rw [h.account]
    exact hsound
  destroyed := by
    have hdestroyed : t'.destroyed = t.destroyed := congrArg Account.destroyed h.account
    rw [hdestroyed]
    exact id
  dropped := congrArg Account.dropped h.account
  hasConsumer := h.hasConsumer
  pendingIngress := by
    have hpending : t'.pendingIngress = t.pendingIngress :=
      congrArg Account.pendingIngress h.account
    rw [hpending]
    exact id

theorem gentle_write (source : Option ℕ) (added : Bool) (bytes : List UInt8) :
    Gentle t (t.write source added bytes) := by
  unfold write
  split_ifs
  · exact .refl t
  · exact ⟨fun hsound => hsound.write rfl, id, rfl, rfl, id⟩

theorem gentle_addNewlines (p : ℕ) : Gentle t (t.addNewlines p) := by
  unfold addNewlines
  generalize (t.sources p).lastChunks = lastChunks
  induction lastChunks generalizing t with
  | nil => exact .refl t
  | cons lastChunk lastChunks ih =>
    rw [List.foldl_cons]
    split_ifs
    · exact ih
    · exact (gentle_write _ _ _).trans ih

theorem gentle_failPendingIngress : Gentle t t.failPendingIngress := by
  cases hingress : t.pendingIngress with
  | none =>
    rw [failPendingIngress_of_none hingress]
    exact .refl t
  | some pending =>
    obtain ⟨ingress, hfail⟩ := failPendingIngress_eq hingress
    rw [hfail]
    refine ⟨fun hsound => hsound.fail hingress, ?_, rfl, rfl, fun _ => rfl⟩
    exact nofun

theorem gentle_sourceData (p : ℕ) (bytes : List UInt8) : Gentle t (t.sourceData p bytes) := by
  unfold sourceData
  split_ifs
  · exact .refl t
  · exact (gentle_write _ _ _).trans (quiet_updateSource _ _).gentle
  · exact (quiet_updateSource _ _).gentle

theorem gentle_sourceEnd (p : ℕ) : Gentle t (t.sourceEnd p) := by
  unfold sourceEnd
  split_ifs
  · exact .refl t
  · exact ((quiet_updateSource _ _).gentle.trans (gentle_addNewlines p)).trans
      (quiet_resolve p).gentle

theorem gentle_sourceError (p : ℕ) : Gentle t (t.sourceError p) := by
  unfold sourceError
  split_ifs
  · exact .refl t
  · dsimp only
    split_ifs
    · exact ((quiet_updateSource _ _).gentle.trans gentle_failPendingIngress).trans
        (quiet_resolve p).gentle
    · exact ((quiet_updateSource _ _).trans (quiet_resolve p)).gentle

theorem gentle_sourceClose (p : ℕ) : Gentle t (t.sourceClose p) := by
  unfold sourceClose
  split_ifs
  · exact .refl t
  · dsimp only
    split_ifs
    · exact ((quiet_updateSource _ _).gentle.trans gentle_failPendingIngress).trans
        (quiet_resolve p).gentle
    · exact ((quiet_updateSource _ _).trans (quiet_resolve p)).gentle

theorem gentle_sourceAborted (p : ℕ) : Gentle t (t.sourceAborted p) := by
  unfold sourceAborted
  split_ifs
  · exact .refl t
  · exact gentle_failPendingIngress
  · exact .refl t

theorem gentle_read : Gentle t t.read := by
  unfold read
  split
  · exact .refl t
  next w hpending => exact ⟨fun hsound => hsound.read hpending, id, rfl, rfl, id⟩

theorem Account.Sound.flushPendingIngress (hsound : t.account.Sound) (room : Bool) :
    (t.flushPendingIngress room).account.Sound := by
  unfold Topic.flushPendingIngress
  split
  · exact hsound
  next pending hingress =>
    split_ifs
    · obtain ⟨ingress, hclear⟩ := t.clearPendingIngress_eq
      have hnone : t.pendingTransform = none := by
        apply hsound.single
        show t.pendingIngress ≠ none
        rw [hingress]
        exact Option.some_ne_none _
      rw [hclear]
      cases room with
      | true =>
        apply hsound.flush hingress
        case hcalled =>
          show t.called ++ [pending.chunk] ++ t.pendingTransform.toList = _
          rw [hnone, Option.toList_none, List.append_nil]
          rfl
        all_goals rfl
      | false =>
        apply hsound.flush hingress
        all_goals rfl
    · exact hsound

theorem pendingIngress_flushPendingIngress (h : t.hasConsumer = true) (room : Bool) :
    (t.flushPendingIngress room).pendingIngress = none := by
  unfold Topic.flushPendingIngress
  split
  next hingress => exact hingress
  · rw [if_pos h]
    obtain ⟨ingress, hclear⟩ := t.clearPendingIngress_eq
    rw [hclear]
    cases room with
    | true | false => rfl

theorem frame_flushPendingIngress (room : Bool) :
    (t.flushPendingIngress room).destroyed = t.destroyed ∧
      (t.flushPendingIngress room).dropped = t.dropped := by
  unfold Topic.flushPendingIngress
  split
  · exact ⟨rfl, rfl⟩
  · split_ifs
    · obtain ⟨ingress, hclear⟩ := t.clearPendingIngress_eq
      rw [hclear]
      cases room with
      | true | false => exact ⟨rfl, rfl⟩
    · exact ⟨rfl, rfl⟩

theorem hasConsumer_of_mem {d : ℕ} (h : d ∈ t.pipeTargets) : t.hasConsumer = true := by
  unfold hasConsumer
  cases htargets : t.pipeTargets with
  | nil =>
    rw [htargets] at h
    cases h
  | cons d' targets => rfl

/-! ## The account in every state -/

theorem Account.Sound.transformed {w : Written} {rest : List Written} {t' : Topic}
    (hsound : t.account.Sound) (hwritable : t.writable = w :: rest)
    (hdestroyed : t.destroyed = false) (houtstanding : t.outstanding = none)
    (h : Transformed t w rest t') : t'.account.Sound := by
  have hpending : t.pendingIngress = none ∧ t.pendingTransform = none := by
    unfold Topic.outstanding at houtstanding
    rw [Option.or_eq_none_iff, Option.map_eq_none_iff] at houtstanding
    exact houtstanding
  have hheld : t.account.held = [] := by
    show (t.pendingIngress.map (·.chunk)).toList = []
    rw [hpending.1]
    rfl
  have hcalled : t.called ++ [w] ++ t.outstanding.toList = t.called ++ [w] := by
    rw [houtstanding, Option.toList_none, List.append_nil]
  have hpushed : t.pushed ++ [w] ++ t.account.held = t.pushed ++ [w] := by
    rw [hheld, List.append_nil]
  cases h with
  | pushed ingress =>
    apply hsound.transform hdestroyed houtstanding hwritable
    case hdestroyed' => exact hdestroyed
    case hcalled => exact hcalled
    case hsingle => exact fun hne => absurd hpending.1 hne
    case hpushed => exact .inl ⟨hpushed, rfl⟩
    all_goals rfl
  | full ingress =>
    apply hsound.transform hdestroyed houtstanding hwritable
    case hdestroyed' => exact hdestroyed
    case hcalled =>
      show t.called ++ ((t.pendingIngress.map (·.chunk)).or (some w)).toList = t.called ++ [w]
      rw [hpending.1]
      rfl
    case hsingle => exact fun hne => absurd hpending.1 hne
    case hpushed => exact .inl ⟨hpushed, rfl⟩
    all_goals rfl
  | held =>
    apply hsound.transform hdestroyed houtstanding hwritable
    case hdestroyed' => exact hdestroyed
    case hsingle => exact fun _ => hpending.2
    case hpushed => exact .inl ⟨rfl, rfl⟩
    all_goals rfl
  | dropped ingress =>
    apply hsound.transform hdestroyed houtstanding hwritable
    case hdestroyed' => exact hdestroyed
    case hcalled => exact hcalled
    case hsingle => exact fun hne => absurd hpending.1 hne
    case hpushed =>
      apply Or.inr
      refine ⟨?_, rfl⟩
      show t.pushed ++ t.account.held = t.pushed
      rw [hheld, List.append_nil]
    all_goals rfl

/-- `_transform` and what changes the consumers. -/
def Event.isConsumption : Event → Bool
  | .transform _ => true
  | .pipe _ _ => true
  | .unpipe _ => true
  | .on _ => true
  | .removeListener _ => true
  | _ => false

theorem gentle_next {e : Event} (h : e.isConsumption = false) : Gentle t (t.next e) := by
  cases e with
  | acceptPipe p => exact (quiet_acceptPipe p).gentle
  | resume => exact quiet_resume.gentle
  | sourceData p bytes => exact gentle_sourceData p bytes
  | sourceEnd p => exact gentle_sourceEnd p
  | sourceError p => exact gentle_sourceError p
  | sourceClose p => exact gentle_sourceClose p
  | sourceAborted p => exact gentle_sourceAborted p
  | sourceUnpipe p =>
    have hquiet : Quiet t (t.sourceUnpipe p) := quiet_updateSource p _
    exact hquiet.gentle
  | write bytes => exact gentle_write none false bytes
  | transform room => cases h
  | read => exact gentle_read
  | emitData => exact quiet_emitData.gentle
  | pipe d room | unpipe d | on listener | removeListener listener => cases h

theorem account_on (listener : Listener) : (t.on listener).account = t.account := by
  cases listener with
  | data | readable => rfl

theorem account_removeListener (listener : Listener) :
    (t.removeListener listener).account = t.account := by
  cases listener with
  | data | readable => rfl

theorem account_unpipe (d : Option ℕ) : (t.unpipe d).account = t.account := by
  cases d with
  | none | some d => rfl

theorem Account.Sound.next (hsound : t.account.Sound) (e : Event) : (t.next e).account.Sound := by
  cases e with
  | transform room =>
    rcases t.transformNext_cases room with ⟨hsame, -⟩ |
      ⟨w, rest, hwritable, hdestroyed, houtstanding, htransformed⟩
    · show (t.transformNext room).account.Sound
      rw [hsame]
      exact hsound
    · exact hsound.transformed hwritable hdestroyed houtstanding htransformed
  | pipe d room =>
    show (t.pipe d room).account.Sound
    unfold pipe
    split_ifs
    · exact hsound
    · apply Account.Sound.flushPendingIngress
      exact hsound
  | unpipe d =>
    show (t.unpipe d).account.Sound
    rw [account_unpipe]
    exact hsound
  | on listener =>
    show (t.on listener).account.Sound
    rw [account_on]
    exact hsound
  | removeListener listener =>
    show (t.removeListener listener).account.Sound
    rw [account_removeListener]
    exact hsound
  | _ => exact (gentle_next rfl).sound hsound

theorem sound_new (contentType : ContentType) : (new contentType).account.Sound where
  arrived := rfl
  numbers := rfl
  calledOnce := rfl
  single := fun _ => rfl
  inOrder := .refl _
  kept := fun _ _ hw => absurd hw List.not_mem_nil
  dropped := fun _ hd => absurd hd List.not_mem_nil
  undestroyed := fun htrue => absurd htrue Bool.false_ne_true

/-! ## Runs -/

structure Accounted (t : Topic) : Prop where
  arrived : t.transformed ++ t.writable = t.written
  distinct : (t.written.map (·.number)).Nodup
  calledOnce : t.called ++ t.outstanding.toList = t.transformed
  inOrder : t.pushed.Sublist t.transformed
  kept : ∀ w ∈ t.transformed, w ∈ t.pushed ∨ (∃ consumer, (w, consumer) ∈ t.dropped) ∨
    t.pendingIngress.map (·.chunk) = some w
  dropped : ∀ d ∈ t.dropped, d.2 = false ∧ d.1.first = false
  held : t.hasConsumer = true → t.pendingIngress = none
  /-- a reader has the callback called -/
  released : ∀ w, t.pendingTransform = some w → t.read.called = t.called ++ [w]

/-- A listener is only attached when nothing is held back, and a first chunk that is going to be
transformed without a consumer finds an active ingress of which no chunk has been seen. -/
def Careful (t : Topic) : Event → Prop
  | .on _ => t.pendingIngress = none
  | .transform _ =>
    t.destroyed = false → t.outstanding = none → t.hasConsumer = false →
      ∀ w, t.writable.head? = some w → w.first = true →
        ∃ source, t.activeIngress = some ⟨source, false⟩
  | _ => True

/-- What the steps have to see to. -/
structure Seen (t : Topic) : Prop where
  dropped : ∀ d ∈ t.dropped, d.1.first = false
  held : t.hasConsumer = true → t.pendingIngress = none

theorem accounted_iff (h : t.account.Sound) (hdestroyed : t.destroyed = false) :
    t.Accounted ↔ t.Seen := by
  refine ⟨fun h => ⟨fun d hd => (h.dropped d hd).2, h.held⟩, fun hseen => ?_⟩
  constructor
  · exact h.arrived
  · have hnumbers : t.written.map (·.number) = List.range t.written.length := h.numbers
    rw [hnumbers]
    exact List.nodup_range
  · exact h.calledOnce
  · exact (List.sublist_append_left _ _).trans h.inOrder
  · intro w hw
    rcases h.kept hdestroyed w hw with hw | hw | hw
    · exact .inl hw
    · exact .inr (.inl hw)
    · exact .inr (.inr (Option.mem_toList.mp hw))
  · exact fun d hd => ⟨h.dropped d hd, hseen.dropped d hd⟩
  · exact hseen.held
  · intro w hpending
    unfold read
    rw [hpending]
    rfl

theorem Seen.of_eq {t' : Topic} (h : t.Seen) (hdropped : t'.dropped = t.dropped)
    (hconsumer : t'.hasConsumer = true → t.hasConsumer = true)
    (hingress : t.pendingIngress = none → t'.pendingIngress = none) : t'.Seen where
  dropped := by
    rw [hdropped]
    exact h.dropped
  held htrue := hingress (h.held (hconsumer htrue))

theorem Gentle.seen {t' : Topic} (h : Gentle t t') (hseen : t.destroyed = false → t.Seen)
    (hdestroyed : t'.destroyed = false) : t'.Seen := by
  apply (hseen (h.destroyed hdestroyed)).of_eq h.dropped _ h.pendingIngress
  rw [h.hasConsumer]
  exact id

theorem hasConsumer_on (listener : Listener) : (t.on listener).hasConsumer = true := by
  unfold hasConsumer
  cases listener with
  | data | readable => simp [on]

theorem hasConsumer_of_removeListener {listener : Listener}
    (h : (t.removeListener listener).hasConsumer = true) : t.hasConsumer = true := by
  cases listener with
  | data =>
    change (!t.pipeTargets.isEmpty || decide (0 < t.dataListeners - 1) ||
      decide (0 < t.readableListeners)) = true at h
    unfold hasConsumer
    simp only [Bool.or_eq_true, decide_eq_true_eq] at h ⊢
    rcases h with (h | h) | h
    · exact .inl (.inl h)
    · exact .inl (.inr (by omega))
    · exact .inr h
  | readable =>
    change (!t.pipeTargets.isEmpty || decide (0 < t.dataListeners) ||
      decide (0 < t.readableListeners - 1)) = true at h
    unfold hasConsumer
    simp only [Bool.or_eq_true, decide_eq_true_eq] at h ⊢
    exact h.imp_right fun h => by omega

theorem hasConsumer_of_unpipe {d : Option ℕ} (h : (t.unpipe d).hasConsumer = true) :
    t.hasConsumer = true := by
  cases htargets : t.pipeTargets with
  | cons d' targets =>
    apply hasConsumer_of_mem
    rw [htargets]
    exact List.mem_cons_self
  | nil =>
    have hsame : (t.unpipe d).hasConsumer = t.hasConsumer := by
      unfold hasConsumer
      cases d with
      | none =>
        show (!([] : List ℕ).isEmpty || _ || _) = _
        rw [htargets]
        rfl
      | some d =>
        show (!(t.pipeTargets.erase d).isEmpty || _ || _) = _
        rw [htargets]
        rfl
    rwa [hsame] at h

theorem seen_next_iff (hsound : t.account.Sound) (hseen : t.destroyed = false → t.Seen)
    (e : Event) :
    ((t.next e).destroyed = false → (t.next e).Seen) ↔ Careful t e := by
  cases e with
  | transform room =>
    rcases t.transformNext_cases room with ⟨hsame, hnil⟩ |
      ⟨w, rest, hwritable, hdestroyed, houtstanding, htransformed⟩
    · constructor
      · intro _ hdestroyed houtstanding _ w hw
        rw [hnil hdestroyed houtstanding] at hw
        cases hw
      · intro _
        show (t.transformNext room).destroyed = false → (t.transformNext room).Seen
        rw [hsame]
        exact hseen
    · have hold : t.Seen := hseen hdestroyed
      show ((t.transformNext room).destroyed = false → (t.transformNext room).Seen) ↔ _
      generalize t.transformNext room = t' at htransformed ⊢
      cases htransformed with
      | pushed ingress hhas | full ingress hhas =>
        refine ⟨fun _ _ _ hnone => ?_, fun _ _ => hold.of_eq rfl id id⟩
        rw [hhas] at hnone
        cases hnone
      | held hhas hingress =>
        refine ⟨fun _ _ _ _ _ _ _ => ⟨_, hingress⟩, fun _ _ => ⟨hold.dropped, ?_⟩⟩
        intro htrue
        have hhas' : t.hasConsumer = true := htrue
        rw [hhas] at hhas'
        cases hhas'
      | dropped ingress hhas hunseen =>
        constructor
        · intro h _ _ _ w' hw' hfirst
          rw [hwritable] at hw'
          cases hw'
          have hnot : w.first = false := (h hdestroyed).dropped (w, false)
            (List.mem_append_right _ List.mem_cons_self)
          rw [hfirst] at hnot
          cases hnot
        · intro hcareful _
          refine ⟨fun d hd => ?_, hold.held⟩
          rcases List.mem_append.mp hd with hd | hd
          · exact hold.dropped d hd
          · rw [List.mem_singleton] at hd
            subst hd
            by_contra hfirst
            rw [Bool.not_eq_false] at hfirst
            obtain ⟨source, hsource⟩ :=
              hcareful hdestroyed houtstanding hhas w (by rw [hwritable]; rfl) hfirst
            exact hunseen source hsource
  | on listener =>
    have haccount := account_on (t := t) listener
    have hingress : (t.on listener).pendingIngress = t.pendingIngress :=
      congrArg Account.pendingIngress haccount
    have hdestroyed' : (t.on listener).destroyed = t.destroyed :=
      congrArg Account.destroyed haccount
    constructor
    · intro h
      show t.pendingIngress = none
      by_cases hdestroyed : t.destroyed = true
      · exact hsound.undestroyed hdestroyed
      · rw [Bool.not_eq_true] at hdestroyed
        rw [← hingress]
        exact (h (hdestroyed'.trans hdestroyed)).held (hasConsumer_on listener)
    · intro hnone hdestroyed
      have hnone' : t.pendingIngress = none := hnone
      refine ⟨?_, fun _ => hingress.trans hnone'⟩
      show ∀ d ∈ (t.on listener).dropped, d.1.first = false
      rw [show (t.on listener).dropped = t.dropped from congrArg Account.dropped haccount]
      exact (hseen (hdestroyed'.symm.trans hdestroyed)).dropped
  | pipe d room =>
    refine ⟨fun _ => trivial, fun _ => ?_⟩
    show (t.pipe d room).destroyed = false → (t.pipe d room).Seen
    unfold pipe
    split_ifs with hmem
    · exact hseen
    · intro hdestroyed
      obtain ⟨hdestroyed', hdropped⟩ := frame_flushPendingIngress
        (t := { t with pipeTargets := t.pipeTargets ++ [d] }) room
      have hold : t.Seen := hseen (hdestroyed'.symm.trans hdestroyed)
      refine ⟨?_, fun _ => ?_⟩
      · rw [hdropped]
        exact hold.dropped
      · apply pendingIngress_flushPendingIngress
        exact hasConsumer_of_mem (List.mem_append_right _ List.mem_cons_self)
  | unpipe d =>
    have haccount := account_unpipe (t := t) d
    refine ⟨fun _ => trivial, fun _ hdestroyed => ?_⟩
    have hold : t.Seen :=
      hseen ((congrArg Account.destroyed haccount).symm.trans hdestroyed)
    apply hold.of_eq (congrArg Account.dropped haccount) hasConsumer_of_unpipe
    intro hnone
    exact (congrArg Account.pendingIngress haccount).trans hnone
  | removeListener listener =>
    have haccount := account_removeListener (t := t) listener
    refine ⟨fun _ => trivial, fun _ hdestroyed => ?_⟩
    have hold : t.Seen :=
      hseen ((congrArg Account.destroyed haccount).symm.trans hdestroyed)
    apply hold.of_eq (congrArg Account.dropped haccount) hasConsumer_of_removeListener
    intro hnone
    exact (congrArg Account.pendingIngress haccount).trans hnone
  | _ =>
    refine ⟨fun _ => trivial, fun _ => ?_⟩
    apply Gentle.seen _ hseen
    exact gentle_next rfl

theorem forall_accounted_iff (hsound : t.account.Sound) :
    (t.destroyed = false → t.Accounted) ↔ (t.destroyed = false → t.Seen) :=
  forall_congr' fun hdestroyed => accounted_iff hsound hdestroyed

/-- In a run the chunks are accounted for in every state, as long as the topic is not destroyed,
exactly if every step is careful. -/
theorem accounted_iff_careful (contentType : ContentType) (events : List Event) :
    System.Always next (fun t => t.destroyed = false → t.Accounted) (new contentType) events ↔
      System.Meets next Careful (new contentType) events := by
  apply System.always_iff_meets (A := fun _ => True) (I := fun t => t.account.Sound)
  · intro t e _ hsound haccounted
    rw [forall_accounted_iff (hsound.next e)]
    exact seen_next_iff hsound ((forall_accounted_iff hsound).mp haccounted) e
  · exact fun t e _ hsound _ _ => hsound.next e
  · exact sound_new contentType
  · rw [forall_accounted_iff (sound_new contentType)]
    exact fun _ => ⟨fun _ hd => absurd hd List.not_mem_nil, fun _ => rfl⟩
  · exact fun _ _ => trivial

/-- A producer writes two chunks and ends; the next one is served while the second waits for a
consumer. -/
def leftoverRun : List Event :=
  [.acceptPipe 0, .acceptPipe 1, .sourceData 0 [97], .transform true, .sourceData 0 [98],
    .sourceEnd 0, .resume, .pipe 0 true, .transform true, .unpipe (some 0), .sourceData 1 [99],
    .transform true]

/-- A listener leaves the chunk of a producer held back. -/
def listenerRun : List Event :=
  [.acceptPipe 0, .sourceData 0 [97], .transform true, .on .data]

/-- A chunk stays held back with a consumer, and the first chunk of the active ingress is
dropped. -/
theorem firstChunk_dropped :
    ¬ System.Always next (fun t => t.destroyed = false → t.Accounted) (new .textPlain) listenerRun ∧
    ¬ System.Always next (fun t => t.destroyed = false → t.Accounted) (new .textPlain)
      leftoverRun := by
  refine ⟨fun h => ?_, fun h => ?_⟩
  · have hlast := System.always_last h (by decide)
    have hnone := hlast.held (by decide)
    exact absurd hnone (by decide)
  · have hlast := System.always_last h (by decide)
    have hfirst := (hlast.dropped (⟨2, some 1, 2, true, false, [99]⟩, false) (by decide)).2
    exact absurd hfirst (by decide)

end TransformHub.Host.Topic
