import TransformHub.HubState.CheckpointFidelity

/-!
# A record is taken whole or not at all

`consume` checks only part of a record's shape, and copies the rest later.
-/

namespace TransformHub.HubState

open Js

namespace HubStateStore

structure SameContent (a b : HubStateStore) : Prop where
  available : a.available = b.available
  sequences : a.sequences = b.sequences
  instances : a.instances = b.instances
  topics : a.topics = b.topics
  manifests : a.manifests = b.manifests
  health : a.health = b.health

/-- Nothing is left of the store, and all its subscribers were given an error. -/
structure Failed (s : HubStateStore) (o : Outcome) : Prop where
  available : o.store.available = false
  sequences : o.store.sequences = .empty
  instances : o.store.instances = .empty
  topics : o.store.topics = .empty
  manifests : o.store.manifests = .empty
  health : o.store.health = none
  subscribers : o.store.subscribers = []
  notices : ∃ error, o.notices = s.failures error

/-- The change of the record took effect: on the maps, the cursor and the matching subscribers. -/
structure TookChange (s : HubStateStore) (record : JsValue) (mutation : HubStateMutation JsValue)
    (o : Outcome) : Prop where
  accepted : s.AcceptedChange record mutation
  content : ∃ copied, mutation.traverse copy = some copied ∧
    o.store.SameContent (s.applyCopied copied)
  cursor : ∃ cursor, copyCursor ((record.get "hubState").get "cursor") = some cursor ∧
    o.store.cursor = some cursor
  notified : ∀ sub ∈ s.subscribers, sub.kind = mutation.kind →
    ∃ change, (sub.id, .change change) ∈ o.notices ∧ o.store.cursor = some change.cursor ∧
      copy ((record.get "hubState").get "mutation") = some change.mutation

/-- The checkpoint of the record took effect; the subscribers stay at its cursor or have failed. -/
structure TookCheckpoint (s : HubStateStore) (record : JsValue) (inventory : Json)
    (cursor : StoredCursor) (o : Outcome) : Prop where
  accepted : AcceptedCheckpoint record inventory cursor
  content : o.store.SameContent (s.load inventory cursor)
  cursor : o.store.cursor = some cursor
  subscribers : (o.store.subscribers = s.subscribers ∧ o.notices = []) ∨
    (o.store.subscribers = [] ∧ ∃ error, o.notices = s.failures error)

/-- The record did not throw, and it took effect whole, failed the store, or was ignored. -/
structure Atomic (s : HubStateStore) (record : JsValue) (o : Outcome) : Prop where
  returned : o.thrown = false
  whole : (∃ mutation, s.TookChange record mutation o) ∨
    (∃ inventory cursor, s.TookCheckpoint record inventory cursor o) ∨
      s.Failed o ∨ (o.store = s ∧ o.notices = [])

/-- A change that is accepted has a cursor, a mutation and a previous cursor that are JSON data all
through, and the sequences of a checkpoint have no absent element where the check finds no other
fault. -/
structure WhollyData (s : HubStateStore) (record : JsValue) : Prop where
  change : ∀ mutation, s.AcceptedChange record mutation →
    (copy ((record.get "hubState").get "cursor")).isSome ∧
      (copy ((record.get "hubState").get "mutation")).isSome ∧
        (copy ((record.get "hubState").get "previousCursor")).isSome
  checkpoint : ∀ cursor inventory, ((record.get "hubState").get "type").str? = some "checkpoint" →
    validCursor ((record.get "hubState").get "cursor") = some cursor →
      readInventory ((record.get "hubState").get "inventory") = some inventory →
        validSequenceInventory [] inventory.sequences = true →
          inventory.sequences.any JsValue.isHole = false

variable {s : HubStateStore} {record : JsValue} {throws : ℕ → Bool}

theorem invalidate_failed (s : HubStateStore) (error : HubStateSourceError) :
    s.Failed (s.invalidate error) where
  available := rfl
  sequences := rfl
  instances := rfl
  topics := rfl
  manifests := rfl
  health := rfl
  subscribers := rfl
  notices := ⟨error, rfl⟩

theorem atomic_invalidate (error : HubStateSourceError) : s.Atomic record (s.invalidate error) :=
  ⟨rfl, .inr (.inr (.inl (s.invalidate_failed error)))⟩

theorem atomic_ignored : s.Atomic record ⟨s, [], false⟩ := ⟨rfl, .inr (.inr (.inr ⟨rfl, rfl⟩))⟩

/-! ## Checkpoints -/

theorem AcceptedCheckpoint.of_copied {stored : StoredCursor} {cursor : HubCursor}
    {inventory : Json} (htype : ((record.get "hubState").get "type").str? = some "checkpoint")
    (hcursor : validCursor ((record.get "hubState").get "cursor") = some cursor)
    (hinv : ∃ inv, readInventory ((record.get "hubState").get "inventory") = some inv ∧
      validInventoryAssociations inv = some true)
    (hinventory : copy ((record.get "hubState").get "inventory") = some inventory)
    (hstored : copyCursor ((record.get "hubState").get "cursor") = some stored) :
    AcceptedCheckpoint record inventory stored := by
  have heq : stored.cursor = cursor := by
    rcases copyCursor_spec hcursor with ⟨-, hn⟩ | ⟨s', -, hs', heq⟩
    · rw [hn] at hstored
      cases hstored
    · rw [hs'] at hstored
      cases hstored
      exact heq
  subst heq
  exact ⟨htype, hcursor, hinv, hinventory, hstored⟩

/-- Loading a checkpoint that passed its checks takes it whole or fails the store, also after the
subscribers have failed. -/
theorem atomic_load {cursor : HubCursor}
    (htype : ((record.get "hubState").get "type").str? = some "checkpoint")
    (hcursor : validCursor ((record.get "hubState").get "cursor") = some cursor)
    (hinv : ∃ inv, readInventory ((record.get "hubState").get "inventory") = some inv ∧
      validInventoryAssociations inv = some true) :
    s.Atomic record (s.loadCheckpoint (record.get "hubState")) ∧
      ∀ error, s.Atomic record (s.failThenLoad error (record.get "hubState")) := by
  have hload : ∀ base : HubStateStore,
      (base.loadCheckpoint (record.get "hubState") =
          base.invalidate ⟨.gap, "Invalid Hub state checkpoint"⟩) ∨
        ∃ inventory stored, AcceptedCheckpoint record inventory stored ∧
          base.loadCheckpoint (record.get "hubState") = ⟨base.load inventory stored, [], false⟩ := by
    intro base
    unfold loadCheckpoint
    split
    next inventory stored hi hs => exact .inr ⟨inventory, stored, .of_copied htype hcursor hinv hi hs, rfl⟩
    next => exact .inl rfl
  constructor
  · rcases hload s with hfailed | ⟨inventory, stored, haccepted, hloaded⟩
    · rw [hfailed]
      exact atomic_invalidate _
    · rw [hloaded]
      exact ⟨rfl, .inr (.inl ⟨inventory, stored, haccepted, ⟨rfl, rfl, rfl, rfl, rfl, rfl⟩, rfl,
        .inl ⟨rfl, rfl⟩⟩)⟩
  · intro error
    unfold failThenLoad
    simp only [invalidate]
    rcases hload s.cleared with hfailed | ⟨inventory, stored, haccepted, hloaded⟩
    · rw [hfailed]
      refine ⟨rfl, .inr (.inr (.inl ⟨rfl, rfl, rfl, rfl, rfl, rfl, rfl, error, ?_⟩))⟩
      exact List.append_nil _
    · rw [hloaded]
      refine ⟨rfl, .inr (.inl ⟨inventory, stored, haccepted, ⟨rfl, rfl, rfl, rfl, rfl, rfl⟩, rfl,
        .inr ⟨rfl, error, ?_⟩⟩)⟩
      exact List.append_nil _

theorem validInventoryAssociations_eq_none {inventory : HubInventory} :
    validInventoryAssociations inventory = none ↔
      validSequenceInventory [] inventory.sequences = true ∧
        inventory.sequences.any JsValue.isHole = true := by
  unfold validInventoryAssociations
  cases validSequenceInventory [] inventory.sequences with
  | false => simp
  | true =>
    cases inventory.sequences.any JsValue.isHole with
    | false | true => simp

theorem atomic_consumeCheckpoint (hdata : s.WhollyData record)
    (htype : ((record.get "hubState").get "type").str? = some "checkpoint") :
    s.Atomic record (s.consumeCheckpoint (record.get "hubState")) := by
  unfold consumeCheckpoint
  split
  next cursor inventory hcursor hread =>
    cases hassoc : validInventoryAssociations inventory with
    | none =>
      obtain ⟨hvalid, hhole⟩ := validInventoryAssociations_eq_none.mp hassoc
      have hnone := hdata.checkpoint cursor inventory htype hcursor hread hvalid
      exact absurd (hhole.symm.trans hnone) (by decide)
    | some valid =>
      cases valid with
      | false => exact atomic_invalidate _
      | true =>
        obtain ⟨hat, hafter⟩ := atomic_load (s := s) htype hcursor ⟨inventory, hread, hassoc⟩
        show s.Atomic record (s.checkpoint (record.get "hubState") cursor)
        unfold checkpoint
        split
        · exact hat
        · split_ifs
          · exact hafter _
          · exact atomic_ignored
          · exact hafter _
          · exact hat
  next => exact atomic_invalidate _

/-! ## Changes -/

theorem mem_notices_notify {kind : HubWatchKind} {change : HubWatchChange} {sub : Subscriber}
    (hsub : sub ∈ s.subscribers) (hkind : sub.kind = kind) :
    (sub.id, .change (sub.select change)) ∈ (s.notify kind change throws).notices :=
  List.mem_filterMap.mpr ⟨sub, hsub, if_pos hkind⟩

theorem publish_eq (base : HubStateStore) (audit : JsValue) (kind : HubWatchKind)
    {cursor previousCursor : StoredCursor} {mutation : Json}
    (hcursor : copyCursor (audit.get "cursor") = some cursor)
    (hmutation : copy (audit.get "mutation") = some mutation)
    (hprevious : copyCursor (audit.get "previousCursor") = some previousCursor) :
    base.publish audit kind throws =
      { base with cursor := some cursor }.notify kind ⟨mutation, cursor, previousCursor⟩ throws := by
  unfold publish
  rw [hcursor, hmutation, hprevious]

theorem copied_of_publish {base : HubStateStore} {audit : JsValue} {kind : HubWatchKind}
    (h : (base.publish audit kind throws).thrown = false) :
    (copy (audit.get "cursor")).isSome ∧ (copy (audit.get "mutation")).isSome ∧
      (copy (audit.get "previousCursor")).isSome := by
  have hcopy : ∀ {v : JsValue} {stored : StoredCursor}, copyCursor v = some stored →
      (copy v).isSome := by
    intro v stored hv
    obtain ⟨j, hj, -⟩ := Option.bind_eq_some_iff.mp hv
    exact Option.isSome_iff_exists.mpr ⟨j, hj⟩
  unfold publish at h
  split at h
  next => cases h
  next cursor hcursor =>
    simp only at h
    split at h
    next mutation previous hmutation hprevious =>
      exact ⟨hcopy hcursor, Option.isSome_iff_exists.mpr ⟨_, hmutation⟩, hcopy hprevious⟩
    next => cases h

theorem AcceptedChange.tookChange {mutation : HubStateMutation JsValue}
    {copied : HubStateMutation Json} (h : s.AcceptedChange record mutation)
    (hcopied : mutation.traverse copy = some copied) (hdata : s.WhollyData record) :
    s.Atomic record
      ((s.applyCopied copied).publish (record.get "hubState") mutation.kind throws) := by
  obtain ⟨previous, cursor, hprevious, hcursor, -⟩ := h.continues
  obtain ⟨hc, hm, hp⟩ := hdata.change mutation h
  obtain ⟨m, hm⟩ := Option.isSome_iff_exists.mp hm
  rcases copyCursor_spec hcursor with ⟨hn, -⟩ | ⟨stored, -, hstored, -⟩
  · simp [hn] at hc
  rcases copyCursor_spec hprevious with ⟨hn, -⟩ | ⟨storedPrevious, -, hstoredPrevious, -⟩
  · simp [hn] at hp
  rw [publish_eq _ _ _ hstored hm hstoredPrevious]
  refine ⟨rfl, .inl ⟨mutation, h, ⟨copied, hcopied, ⟨rfl, rfl, rfl, rfl, rfl, rfl⟩⟩,
    ⟨stored, hstored, rfl⟩, fun sub hsub hkind => ?_⟩⟩
  have hsubs : (s.applyCopied copied).subscribers = s.subscribers := by
    cases copied <;> simp only [applyCopied]
    split <;> rfl
  refine ⟨sub.select ⟨m, stored, storedPrevious⟩, mem_notices_notify ?_ hkind, rfl, hm⟩
  exact hsubs ▸ hsub

theorem atomic_consumeChange (hdata : s.WhollyData record) :
    s.Atomic record (s.consumeChange (record.get "hubState") throws) := by
  unfold consumeChange
  split
  next cursor previous mutation htype hcursor hprevious hmutation =>
    split_ifs with hassoc hcontinues
    · exact atomic_invalidate _
    · exact atomic_invalidate _
    · unfold apply
      cases hcopied : mutation.traverse copy with
      | none => exact atomic_invalidate _
      | some copied =>
        have haccepted : s.AcceptedChange record mutation :=
          ⟨htype, hmutation, by simpa using hassoc,
            ⟨previous, cursor, hprevious, hcursor, by simpa using hcontinues⟩, by simp [hcopied]⟩
        exact haccepted.tookChange hcopied hdata
  next => exact atomic_invalidate _

/-! ## Every record -/

theorem atomic_consume (hdata : s.closed = false → s.WhollyData record) :
    s.Atomic record (s.consume record throws) := by
  unfold consume
  simp only
  split_ifs with hclosed hobject htype
  · exact atomic_ignored
  · exact atomic_invalidate _
  · have hopen : s.closed = false := Bool.eq_false_iff.mpr fun h => hclosed (.inl h)
    exact atomic_consumeCheckpoint (hdata hopen) htype
  · have hopen : s.closed = false := Bool.eq_false_iff.mpr fun h => hclosed (.inl h)
    exact atomic_consumeChange (hdata hopen)

theorem consume_acceptedChange (throws : ℕ → Bool) {mutation : HubStateMutation JsValue}
    (hopen : s.closed = false) (h : s.AcceptedChange record mutation) :
    ∃ copied, mutation.traverse copy = some copied ∧ s.consume record throws =
      (s.applyCopied copied).publish (record.get "hubState") mutation.kind throws := by
  obtain ⟨copied, hcopied⟩ := Option.isSome_iff_exists.mp h.copied
  obtain ⟨previous, cursor, hprevious, hcursor, hcontinues⟩ := h.continues
  obtain ⟨hobject, hdefined⟩ := isObject_of_get h.type
  refine ⟨copied, hcopied, ?_⟩
  unfold consume
  simp only [hopen, hdefined, hobject, h.type]
  unfold consumeChange apply
  simp [h.type, hcursor, hprevious, h.valid, h.associations, hcontinues, hcopied]

theorem consume_absentSequence {cursor : HubCursor} {inventory : HubInventory}
    (hopen : s.closed = false)
    (htype : ((record.get "hubState").get "type").str? = some "checkpoint")
    (hcursor : validCursor ((record.get "hubState").get "cursor") = some cursor)
    (hread : readInventory ((record.get "hubState").get "inventory") = some inventory)
    (hvalid : validSequenceInventory [] inventory.sequences = true)
    (hhole : inventory.sequences.any JsValue.isHole = true) :
    s.consume record throws = ⟨s, [], true⟩ := by
  obtain ⟨hobject, hdefined⟩ := isObject_of_get htype
  have hnone := validInventoryAssociations_eq_none.mpr ⟨hvalid, hhole⟩
  unfold consume
  simp only [hopen, hdefined, hobject, htype]
  unfold consumeCheckpoint
  rw [hcursor, hread]
  simp [hnone]

/-- `consume` takes a record whole or not at all exactly when the store is closed or the record is
data where its copies are made too late to fail it. -/
theorem atomic_iff (s : HubStateStore) (record : JsValue) (throws : ℕ → Bool) :
    s.Atomic record (s.consume record throws) ↔ (s.closed = false → s.WhollyData record) := by
  refine ⟨fun hatomic hopen => ⟨fun mutation haccepted => ?_, ?_⟩, atomic_consume⟩
  · obtain ⟨copied, -, hconsume⟩ := consume_acceptedChange throws hopen haccepted
    exact copied_of_publish (hconsume ▸ hatomic.returned)
  · intro cursor inventory htype hcursor hread hvalid
    refine Bool.eq_false_iff.mpr fun hhole => ?_
    have hthrown := hatomic.returned
    rw [consume_absentSequence hopen htype hcursor hread hvalid hhole] at hthrown
    cases hthrown

/-- A change that brings the sequence `s`, with a function among the members of its mutation. -/
def upsertWithFunction : JsValue :=
  .obj true [("hubState", .obj true [("type", .str "change"),
    ("cursor", cursorValue 1), ("previousCursor", cursorValue 0),
    ("mutation", .obj true [("kind", .str "sequence"), ("action", .str "upsert"),
      ("sequenceId", .str "s"), ("value", .obj true [("id", .str "s")]), ("note", .nonData)])])]

/-- The change throws after the store has taken its sequence and its cursor, and nobody is
notified. -/
theorem upsertWithFunction_torn :
    let before := (new.consume (checkpointRecord 0 []) fun _ => false).store
    let o := before.consume upsertWithFunction fun _ => false
    before.available = true ∧ before.sequences.has "s" = false ∧ o.thrown = true ∧
      o.store.sequences.has "s" = true ∧ ¬ before.Atomic upsertWithFunction o := by
  refine ⟨rfl, rfl, rfl, rfl, fun hatomic => ?_⟩
  have hreturned := hatomic.returned
  exact absurd hreturned (by decide)

end HubStateStore

end TransformHub.HubState
