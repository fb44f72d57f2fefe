import TransformHub.HubState.Data

/-!
# The Hub state store

`HubStateStore` of `hub-state-store.ts`: the replica of a Hub's inventory that is fed with audit
records and watched by subscribers.
-/

namespace TransformHub.HubState

open Js

inductive HubStateSourceErrorCode where
  | sourceUnavailable
  | gap
  | restarted

structure HubStateSourceError where
  code : HubStateSourceErrorCode
  message : String

structure ManifestEntry where
  sequenceId : String
  value : Json

/-- A change event: the copied mutation, and the cursors it leads from and to. -/
structure HubWatchChange where
  mutation : Json
  cursor : StoredCursor
  previousCursor : StoredCursor

structure HubWatchSnapshot where
  kind : HubWatchKind
  cursor : StoredCursor
  items : List Json

/-- What a subscriber's callbacks are called with. -/
inductive Notice where
  | change (change : HubWatchChange)
  | error (error : HubStateSourceError)

structure Subscriber where
  id : ℕ
  kind : HubWatchKind
  previousCursor : StoredCursor

/-- The change as a subscriber is given it: linked to what it was given last. -/
def Subscriber.select (sub : Subscriber) (change : HubWatchChange) : HubWatchChange :=
  { change with previousCursor := sub.previousCursor }

structure HubStateStore where
  available : Bool
  cursor : Option StoredCursor
  sequences : OrderedMap String Json
  instances : OrderedMap String Json
  topics : OrderedMap String Json
  manifests : OrderedMap String ManifestEntry
  health : Option Json
  subscribers : List Subscriber
  closed : Bool

structure Outcome where
  store : HubStateStore
  notices : List (ℕ × Notice)
  thrown : Bool

namespace HubStateStore

def new : HubStateStore where
  available := false
  cursor := none
  sequences := .empty
  instances := .empty
  topics := .empty
  manifests := .empty
  health := none
  subscribers := []
  closed := false

/-! ## Failing and notifying the subscribers -/

/-- The store without content and without subscribers; the cursor stays. -/
def cleared (s : HubStateStore) : HubStateStore :=
  { s with
    available := false
    sequences := .empty
    instances := .empty
    topics := .empty
    manifests := .empty
    health := none
    subscribers := [] }

/-- The error callbacks of all subscribers. -/
def failures (s : HubStateStore) (error : HubStateSourceError) : List (ℕ × Notice) :=
  s.subscribers.map fun sub => (sub.id, .error error)

/-- `invalidate`: every subscriber is removed and given the error. -/
def invalidate (s : HubStateStore) (error : HubStateSourceError) : Outcome :=
  ⟨s.cleared, s.failures error, false⟩

/-- The loop of `consume` over the subscribers of a change's kind. -/
def notify (s : HubStateStore) (kind : HubWatchKind) (change : HubWatchChange)
    (throws : ℕ → Bool) : Outcome where
  store :=
    { s with
      subscribers := s.subscribers.filterMap fun sub =>
        if sub.kind = kind then
          if throws sub.id then none else some { sub with previousCursor := change.cursor }
        else some sub }
  notices := s.subscribers.filterMap fun sub =>
    if sub.kind = kind then some (sub.id, .change (sub.select change)) else none
  thrown := false

/-! ## Content -/

/-- The manifest record kept of a published or updated manifest. -/
def manifestRecord (change : Json) : Json :=
  .record [("instanceId", change.get? "instanceId"), ("sequenceId", change.get? "sequenceId"),
    ("revision", change.get? "revision"), ("manifest", change.get? "manifest"),
    ("sequence", change.get? "sequence")]

/-- What `apply` does with a mutation whose record is copied. -/
def applyCopied (s : HubStateStore) : HubStateMutation Json → HubStateStore
  | .sequenceUpsert sequenceId value => { s with sequences := s.sequences.set sequenceId value }
  | .sequenceRemove sequenceId => { s with sequences := s.sequences.delete sequenceId }
  | .sequenceManifest sequenceId instanceId change =>
    if change.getStr? "action" = some "removed" then
      { s with manifests := s.manifests.delete instanceId }
    else
      { s with manifests := s.manifests.set instanceId ⟨sequenceId, manifestRecord change⟩ }
  | .instanceUpsert instanceId _ value => { s with instances := s.instances.set instanceId value }
  | .instanceRemove instanceId _ => { s with instances := s.instances.delete instanceId }
  | .topicUpsert topic value => { s with topics := s.topics.set topic value }
  | .topicRemove topic => { s with topics := s.topics.delete topic }
  | .healthUpsert value => { s with health := some value }

/-- `apply`; `none` when the copying of the record throws, which is before anything changes. -/
def apply (s : HubStateStore) (mutation : HubStateMutation JsValue) : Option HubStateStore :=
  (mutation.traverse copy).map s.applyCopied

/-- The entries of a map built from records that name their key under `key`. -/
def keyedEntries (key : String) (records : List Json) : List (String × Json) :=
  records.filterMap fun r => (r.getStr? key).map fun k => (k, r)

def inventoryManifests (sequences : List Json) : List (String × ManifestEntry) :=
  (keyedEntries "id" sequences).flatMap fun s =>
    (keyedEntries "instanceId" (s.2.getElems "manifests")).map fun m => (m.1, ⟨s.1, m.2⟩)

/-- The maps of a copied inventory replace those of the store. -/
def load (s : HubStateStore) (inventory : Json) (cursor : StoredCursor) : HubStateStore :=
  { s with
    sequences := .ofEntries
      ((keyedEntries "id" (inventory.getElems "sequences")).map
        fun e => (e.1, e.2.without "manifests"))
    instances := .ofEntries (keyedEntries "id" (inventory.getElems "instances"))
    topics := .ofEntries (keyedEntries "name" (inventory.getElems "topics"))
    manifests := .ofEntries (inventoryManifests (inventory.getElems "sequences"))
    health := inventory.get? "health"
    cursor := some cursor
    available := true }

/-- The last part of `checkpoint`: load the copied inventory, or fail when copying throws. -/
def loadCheckpoint (s : HubStateStore) (audit : JsValue) : Outcome :=
  match copy (audit.get "inventory"), copyCursor (audit.get "cursor") with
  | some inventory, some cursor => ⟨s.load inventory cursor, [], false⟩
  | _, _ => s.invalidate ⟨.gap, "Invalid Hub state checkpoint"⟩

/-- Fail the subscribers and load: they must not cross to the new content. -/
def failThenLoad (s : HubStateStore) (error : HubStateSourceError) (audit : JsValue) : Outcome :=
  let failed := s.invalidate error
  let loaded := failed.store.loadCheckpoint audit
  { loaded with notices := failed.notices ++ loaded.notices }

/-- `checkpoint`. A checkpoint of another identity, or one ahead of the cursor, first fails the
subscribers; one behind the cursor is ignored; one at the cursor is loaded at once. -/
def checkpoint (s : HubStateStore) (audit : JsValue) (cursor : HubCursor) : Outcome :=
  match s.cursor with
  | none => s.loadCheckpoint audit
  | some held =>
    if cursor.hubId ≠ held.cursor.hubId ∨ cursor.epoch ≠ held.cursor.epoch then
      s.failThenLoad ⟨.restarted, "Hub state identity restarted"⟩ audit
    else if cursor.position < held.cursor.position then ⟨s, [], false⟩
    else if s.available ∧ held.cursor.position < cursor.position then
      s.failThenLoad ⟨.gap, "Hub state checkpoint advanced beyond the current cursor"⟩ audit
    else s.loadCheckpoint audit

/-! ## `consume` -/

/-- The checkpoint branch of `consume`. -/
def consumeCheckpoint (s : HubStateStore) (audit : JsValue) : Outcome :=
  match validCursor (audit.get "cursor"), readInventory (audit.get "inventory") with
  | some cursor, some inventory =>
    match validInventoryAssociations inventory with
    | none => ⟨s, [], true⟩
    | some false => s.invalidate ⟨.gap, "Invalid Hub state checkpoint associations"⟩
    | some true => s.checkpoint audit cursor
  | _, _ => s.invalidate ⟨.gap, "Invalid Hub state checkpoint"⟩

/-- A change continues the history when the store is available, and the change leads from its
cursor to the next position of the same epoch. -/
def continues (s : HubStateStore) (previousCursor cursor : HubCursor) : Bool :=
  match s.cursor with
  | none => false
  | some held =>
    s.available && previousCursor = held.cursor && cursor.hubId = held.cursor.hubId &&
      cursor.epoch = held.cursor.epoch && cursor.position = held.cursor.position + 1

/-- The part of `consume` after `apply`: advance the cursor and notify. The copies made here may
throw, which leaves the content changed and nobody notified. -/
def publish (s : HubStateStore) (audit : JsValue) (kind : HubWatchKind) (throws : ℕ → Bool) :
    Outcome :=
  match copyCursor (audit.get "cursor") with
  | none => ⟨s, [], true⟩
  | some cursor =>
    let advanced := { s with cursor := some cursor }
    match copy (audit.get "mutation"), copyCursor (audit.get "previousCursor") with
    | some mutation, some previousCursor =>
      advanced.notify kind ⟨mutation, cursor, previousCursor⟩ throws
    | _, _ => ⟨advanced, [], true⟩

/-- The change branch of `consume`. -/
def consumeChange (s : HubStateStore) (audit : JsValue) (throws : ℕ → Bool) : Outcome :=
  match (audit.get "type").str?, validCursor (audit.get "cursor"),
    validCursor (audit.get "previousCursor"), validMutation (audit.get "mutation") with
  | some "change", some cursor, some previousCursor, some mutation =>
    if !validMutationAssociations mutation then
      s.invalidate ⟨.gap, "Invalid Hub state audit associations"⟩
    else if !s.continues previousCursor cursor then
      s.invalidate ⟨.gap, "Hub state audit continuity was lost"⟩
    else
      match s.apply mutation with
      | none => s.invalidate ⟨.gap, "Invalid Hub state audit mutation"⟩
      | some applied => applied.publish audit mutation.kind throws
  | _, _, _, _ => s.invalidate ⟨.gap, "Invalid Hub state audit mutation"⟩

def consume (s : HubStateStore) (record : JsValue) (throws : ℕ → Bool) : Outcome :=
  let audit := record.get "hubState"
  if s.closed ∨ audit.isUndefined then ⟨s, [], false⟩
  else if !audit.isObject then s.invalidate ⟨.gap, "Invalid Hub state audit record"⟩
  else if (audit.get "type").str? = some "checkpoint" then s.consumeCheckpoint audit
  else s.consumeChange audit throws

/-! ## Snapshots and subscriptions -/

def manifestsOf (s : HubStateStore) (sequenceId : Option String) : List Json :=
  s.manifests.values.filterMap fun e =>
    if some e.sequenceId = sequenceId then some e.value else none

/-- The items of `makeSnapshot`. The copies it makes are of JSON data, hence equal to it. -/
def items (s : HubStateStore) : HubWatchKind → List Json
  | .sequence =>
    s.sequences.values.map fun j =>
      j.set "manifests" (.arr (s.manifestsOf (j.getStr? "id")))
  | .inst => s.instances.values
  | .topic => s.topics.values
  | .health => s.health.toList

/-- `snapshot`; `none` is the error that the source is unavailable. -/
def snapshot (s : HubStateStore) (kind : HubWatchKind) : Option HubWatchSnapshot :=
  if s.available ∧ ¬ s.closed then s.cursor.map fun cursor => ⟨kind, cursor, s.items kind⟩
  else none

/-- `subscribe`, under the name `id`. -/
def subscribe (s : HubStateStore) (kind : HubWatchKind) (id : ℕ) :
    Option (HubStateStore × HubWatchSnapshot) :=
  (s.snapshot kind).map fun snapshot =>
    ({ s with subscribers := s.subscribers ++ [⟨id, kind, snapshot.cursor⟩] }, snapshot)

/-- `close` of a subscription. -/
def unsubscribe (s : HubStateStore) (id : ℕ) : HubStateStore :=
  { s with subscribers := s.subscribers.filter fun sub => sub.id ≠ id }

def close (s : HubStateStore) : Outcome :=
  { s with closed := true }.invalidate ⟨.sourceUnavailable, "Hub state source is closed"⟩

end HubStateStore

end TransformHub.HubState
