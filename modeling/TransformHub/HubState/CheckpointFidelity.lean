import TransformHub.HubState.Subscribers

/-!
# What the snapshots show right after a checkpoint

A checkpoint that `consume` takes replaces the content of the store, whatever the store held.
-/

namespace TransformHub.HubState

open Js

theorem isObject_of_get {v : JsValue} {k t : String} (h : (v.get k).str? = some t) :
    v.isObject = true ∧ v.isUndefined = false := by
  cases v with
  | arr plain elems extra | obj plain props => exact ⟨rfl, rfl⟩
  | _ => cases h

namespace HubStateStore

/-- The store takes the checkpoint of the record: it passes every check and is copied, and it is
not behind the cursor of its own history. -/
structure TakesCheckpoint (s : HubStateStore) (record : JsValue) (inventory : Json)
    (cursor : StoredCursor) : Prop where
  isOpen : s.closed = false
  accepted : AcceptedCheckpoint record inventory cursor
  notBehind : ∀ held, s.cursor = some held → held.cursor.hubId = cursor.cursor.hubId →
    held.cursor.epoch = cursor.cursor.epoch → held.cursor.position ≤ cursor.cursor.position

variable {s : HubStateStore} {record : JsValue} {inventory : Json} {cursor : StoredCursor}

theorem AcceptedCheckpoint.loadCheckpoint (h : AcceptedCheckpoint record inventory cursor)
    (s : HubStateStore) :
    s.loadCheckpoint (record.get "hubState") = ⟨s.load inventory cursor, [], false⟩ := by
  unfold HubStateStore.loadCheckpoint
  rw [h.inventory, h.cursor]

/-- A checkpoint that is taken is loaded, into the store or into what is left of it after its
subscribers have failed. -/
theorem TakesCheckpoint.loaded (h : TakesCheckpoint s record inventory cursor)
    (throws : ℕ → Bool) :
    (s.consume record throws).store = s.load inventory cursor ∨
      (s.consume record throws).store = s.cleared.load inventory cursor := by
  obtain ⟨inv, hread, hassoc⟩ := h.accepted.associations
  obtain ⟨hobject, hdefined⟩ := isObject_of_get h.accepted.type
  have hfail : ∀ error,
      (s.failThenLoad error (record.get "hubState")).store = s.cleared.load inventory cursor := by
    intro error
    show (s.cleared.loadCheckpoint (record.get "hubState")).store = _
    rw [h.accepted.loadCheckpoint]
  have hconsume : s.consume record throws = s.checkpoint (record.get "hubState") cursor.cursor := by
    unfold consume
    simp only [h.isOpen, hdefined, hobject, h.accepted.type]
    unfold consumeCheckpoint
    rw [h.accepted.valid, hread]
    simp only [hassoc]
    rfl
  rw [hconsume]
  unfold checkpoint
  cases hheld : s.cursor with
  | none =>
    apply Or.inl
    simp only [h.accepted.loadCheckpoint]
  | some held =>
    simp only
    split_ifs with hid hlt hahead
    · exact .inr (hfail _)
    · rw [not_or, not_not, not_not] at hid
      exact absurd (h.notBehind held hheld hid.1.symm hid.2.symm) (Nat.not_le.mpr hlt)
    · exact .inr (hfail _)
    · apply Or.inl
      simp only [h.accepted.loadCheckpoint]

/-- The snapshots of the four kinds show what an inventory lists: the same items in the same order,
each sequence with its own manifests. -/
def ShowsInventory (s : HubStateStore) (inventory : Json) : Prop :=
  ∀ kind, ∃ snapshot, s.snapshot kind = some snapshot ∧
    (Replica.ofItems kind snapshot.items).Same (.ofItems kind (inventoryItems inventory kind))

theorem snapshot_load (base : HubStateStore) (hopen : base.closed = false) (kind : HubWatchKind) :
    (base.load inventory cursor).snapshot kind =
      some ⟨kind, cursor, (base.load inventory cursor).items kind⟩ := by
  have hload : (base.load inventory cursor).closed = false := hopen
  unfold snapshot
  rw [if_pos ⟨rfl, by simp [hload]⟩]
  rfl

/-- The instance ids that the manifests of an inventory name, over all its sequences. -/
def manifestInstances (inventory : Json) : List (Option String) :=
  instanceNames (.ofItems .sequence (inventoryItems inventory .sequence))

theorem load_shows_iff (hnamed : WellNamed inventory) (base : HubStateStore)
    (hopen : base.closed = false) :
    (base.load inventory cursor).ShowsInventory inventory ↔ (manifestInstances inventory).Nodup := by
  constructor
  · intro hshows
    obtain ⟨snapshot, hsnapshot, hsame⟩ := hshows .sequence
    rw [snapshot_load base hopen, Option.some.injEq] at hsnapshot
    subst hsnapshot
    exact nodup_instanceNames_of_same wellKeyed_load hsame
  · intro hnodup kind
    refine ⟨_, snapshot_load base hopen kind, ?_⟩
    exact .of_eq (replica_load base hnamed fun _ => hnodup)

/-- Right after a checkpoint is taken the snapshots show its inventory exactly when no instance has
manifests under two of its sequences. -/
theorem inventory_shown_iff (h : TakesCheckpoint s record inventory cursor)
    (throws : ℕ → Bool) :
    (s.consume record throws).store.ShowsInventory inventory ↔
      (manifestInstances inventory).Nodup := by
  rcases h.loaded throws with hloaded | hloaded
  · rw [hloaded]
    exact load_shows_iff h.accepted.wellNamed s h.isOpen
  · rw [hloaded]
    exact load_shows_iff h.accepted.wellNamed s.cleared h.isOpen

def sequenceValue (id instanceId : String) : JsValue :=
  .obj true [("id", .str id), ("manifests", .arr true
    [.obj true [("instanceId", .str instanceId), ("sequenceId", .str id)]] [])]

def sequenceJson (id instanceId : String) : Json :=
  .obj [("id", .str id), ("manifests", .arr
    [.obj [("instanceId", .str instanceId), ("sequenceId", .str id)]])]

/-- What is copied of `checkpointRecord`. -/
def checkpointInventory (sequences : List Json) : Json :=
  .obj [("sequences", .arr sequences), ("instances", .arr []), ("topics", .arr []),
    ("health", .obj [])]

def firstCursor : StoredCursor where
  json := .obj [("hubId", .str "hub"), ("epoch", .str "e"), ("position", .num (.ofNat 0))]
  cursor := ⟨"hub", "e", 0⟩
  reads := by decide

theorem takes_twoSequences (first second : String) :
    TakesCheckpoint new
      (checkpointRecord 0 [sequenceValue "s" first, sequenceValue "t" second])
      (checkpointInventory [sequenceJson "s" first, sequenceJson "t" second]) firstCursor where
  isOpen := rfl
  accepted :=
    { type := rfl
      valid := rfl
      associations := ⟨_, rfl, rfl⟩
      inventory := rfl
      cursor := rfl }
  notBehind := nofun

theorem inventory_shown_twoSequences :
    (new.consume (checkpointRecord 0 [sequenceValue "s" "i", sequenceValue "t" "j"])
      fun _ => false).store.ShowsInventory
        (checkpointInventory [sequenceJson "s" "i", sequenceJson "t" "j"]) :=
  (inventory_shown_iff (takes_twoSequences "i" "j") fun _ => false).mpr (by decide)

/-- Two sequences with a manifest of the same instance: the first is shown without its manifest. -/
theorem sharedInstance_not_shown :
    ∃ inventory cursor, TakesCheckpoint new
      (checkpointRecord 0 [sequenceValue "s" "i", sequenceValue "t" "i"]) inventory cursor ∧
      ¬ (new.consume (checkpointRecord 0 [sequenceValue "s" "i", sequenceValue "t" "i"])
        fun _ => false).store.ShowsInventory inventory := by
  have htakes := takes_twoSequences "i" "i"
  refine ⟨_, _, htakes, fun hshows => ?_⟩
  rcases htakes.loaded fun _ => false with hloaded | hloaded
  all_goals
    rw [hloaded, load_shows_iff htakes.accepted.wellNamed _ rfl] at hshows
    exact absurd hshows (by decide)

end HubStateStore

end TransformHub.HubState
