import TransformHub.HubState.Store

/-!
# What a subscriber makes of its events

A subscriber starts from the items of its snapshot and folds the change events it is given: records
are replaced and removed by id, manifests by instance id.
-/

namespace TransformHub.HubState

open Js OrderedMap

structure ReplicaItem where
  key : String
  record : Json
  manifests : List Json

abbrev Replica := List ReplicaItem

namespace ReplicaItem

/-- Agreement up to the order of the manifests. -/
structure Same (a b : ReplicaItem) : Prop where
  key : a.key = b.key
  record : a.record = b.record
  manifests : a.manifests.Perm b.manifests

theorem Same.refl (a : ReplicaItem) : a.Same a := ⟨rfl, rfl, .refl _⟩

theorem Same.trans {a b c : ReplicaItem} (h : a.Same b) (h' : b.Same c) : a.Same c :=
  ⟨h.key.trans h'.key, h.record.trans h'.record, h.manifests.trans h'.manifests⟩

def ofItem (kind : HubWatchKind) (item : Json) : ReplicaItem :=
  match kind with
  | .sequence => ⟨(item.getStr? "id").getD "", item.without "manifests", item.getElems "manifests"⟩
  | .inst => ⟨(item.getStr? "id").getD "", item, []⟩
  | .topic => ⟨(item.getStr? "name").getD "", item, []⟩
  | .health => ⟨"", item, []⟩

/-- Replace the manifest of instance `instanceId` by `manifest`, if it belongs to this item. -/
def putManifest (sequenceId instanceId : String) (manifest : Option Json) (i : ReplicaItem) :
    ReplicaItem :=
  { i with
    manifests := i.manifests.filter (fun m => m.getStr? "instanceId" ≠ some instanceId) ++
      if i.key = sequenceId then manifest.toList else [] }

end ReplicaItem

namespace Replica

/-! ## Folding -/

def ofItems (kind : HubWatchKind) (items : List Json) : Replica := items.map (.ofItem kind)

/-- Replace the record of the item with this key and keep its manifests, or append an item. -/
def upsert (key : String) (record : Json) : Replica → Replica
  | [] => [⟨key, record, []⟩]
  | i :: is => if i.key = key then ⟨key, record, i.manifests⟩ :: is else i :: upsert key record is

def remove (key : String) (r : Replica) : Replica := r.filter fun i => i.key ≠ key

def fold (r : Replica) : HubStateMutation Json → Replica
  | .sequenceUpsert sequenceId value => r.upsert sequenceId (value.without "manifests")
  | .sequenceRemove sequenceId => r.remove sequenceId
  | .sequenceManifest sequenceId instanceId change =>
    r.map (ReplicaItem.putManifest sequenceId instanceId
      (if change.getStr? "action" = some "removed" then none
        else some (HubStateStore.manifestRecord change)))
  | .instanceUpsert instanceId _ value => r.upsert instanceId value
  | .instanceRemove instanceId _ => r.remove instanceId
  | .topicUpsert topic value => r.upsert topic value
  | .topicRemove topic => r.remove topic
  | .healthUpsert value => r.upsert "" value

def foldChange (r : Replica) (change : HubWatchChange) : Replica :=
  match readMutation change.mutation with
  | some mutation => r.fold mutation
  | none => r

/-- Fold the change events received since the snapshot. -/
def foldChanges (r : Replica) (changes : List HubWatchChange) : Replica :=
  changes.foldl foldChange r

/-! ## Agreement -/

/-- The same items, up to the order of the manifests of each. -/
def Same (r r' : Replica) : Prop := List.Forall₂ ReplicaItem.Same r r'

theorem Same.refl (r : Replica) : Same r r := List.forall₂_same.mpr fun i _ => .refl i

variable {r r' : Replica}

theorem Same.of_eq (h : r = r') : Same r r' := h ▸ Same.refl r

theorem Same.trans {r r' r'' : Replica} (h : Same r r') (h' : Same r' r'') : Same r r'' := by
  induction h generalizing r'' with
  | nil => exact h'
  | cons hi _ ih =>
    cases h' with
    | cons hi' h' => exact .cons (hi.trans hi') (ih h')

theorem Same.upsert (h : Same r r') (key : String) (record : Json) :
    Same (r.upsert key record) (r'.upsert key record) := by
  induction h with
  | nil => exact .cons (.refl _) .nil
  | @cons i i' is is' hi his ih =>
    simp only [Replica.upsert]
    by_cases hk : i.key = key
    · rw [if_pos hk, if_pos (hi.key ▸ hk)]
      exact .cons ⟨rfl, rfl, hi.manifests⟩ his
    · rw [if_neg hk, if_neg (hi.key ▸ hk)]
      exact .cons hi ih

theorem Same.remove (h : Same r r') (key : String) : Same (r.remove key) (r'.remove key) := by
  exact List.rel_filter (fun i i' hi => by simp [hi.key]) h

theorem Same.putManifest (h : Same r r') (sequenceId instanceId : String) (manifest : Option Json) :
    Same (r.map (ReplicaItem.putManifest sequenceId instanceId manifest))
      (r'.map (ReplicaItem.putManifest sequenceId instanceId manifest)) := by
  induction h with
  | nil => exact .nil
  | cons hi _ ih =>
    refine .cons ⟨hi.key, hi.record, ?_⟩ ih
    simp only [ReplicaItem.putManifest, hi.key]
    exact (hi.manifests.filter _).append_right _

theorem Same.fold (h : Same r r') (mutation : HubStateMutation Json) :
    Same (r.fold mutation) (r'.fold mutation) := by
  cases mutation with
  | sequenceUpsert sequenceId value => exact h.upsert _ _
  | sequenceRemove sequenceId => exact h.remove _
  | sequenceManifest sequenceId instanceId change => exact h.putManifest _ _ _
  | instanceUpsert instanceId sequenceId value => exact h.upsert _ _
  | instanceRemove instanceId sequenceId => exact h.remove _
  | topicUpsert topic value => exact h.upsert _ _
  | topicRemove topic => exact h.remove _
  | healthUpsert value => exact h.upsert _ _

theorem foldChanges_concat (r : Replica) (changes : List HubWatchChange) (c : HubWatchChange) :
    r.foldChanges (changes ++ [c]) = (r.foldChanges changes).foldChange c := by
  simp [foldChanges]

end Replica

namespace HubStateStore

/-- The items a snapshot of this kind would show. -/
def replica (s : HubStateStore) (kind : HubWatchKind) : Replica := .ofItems kind (s.items kind)

/-! ## Stored records name their keys -/

def Names (key k : String) (record : Json) : Prop := record.getStr? key = some k

/-- Every map files each of its records under the key that the record names. -/
structure WellKeyed (s : HubStateStore) : Prop where
  sequences : s.sequences.All (Names "id")
  instances : s.instances.All (Names "id")
  topics : s.topics.All (Names "name")
  manifests : s.manifests.All fun k e => Names "instanceId" k e.value

/-- The record of a copied mutation names the mutation's key. -/
def Associated : HubStateMutation Json → Prop
  | .sequenceUpsert sequenceId value => Names "id" sequenceId value
  | .sequenceManifest _ instanceId change => Names "instanceId" instanceId change
  | .instanceUpsert instanceId _ value => Names "id" instanceId value
  | .topicUpsert topic value => Names "name" topic value
  | _ => True

theorem getStr?_copy {v : JsValue} {j : Json} (h : copy v = some j) (k : String) :
    j.getStr? k = (v.get k).str? := by
  rw [← copyInvariant_str?.get_eq h, JsValue.str?_get_toValue]

variable {ν : HubStateMutation Json}

theorem associated_of_valid {μ : HubStateMutation JsValue} (h : validMutationAssociations μ = true)
    (hν : μ.traverse copy = some ν) : Associated ν := by
  cases μ <;> simp only [HubStateMutation.traverse, Option.map_eq_some_iff,
    Option.some.injEq] at hν
  case sequenceRemove | instanceRemove | topicRemove => subst hν; trivial
  case healthUpsert => obtain ⟨j, -, rfl⟩ := hν; trivial
  all_goals
    obtain ⟨j, hj, rfl⟩ := hν
    simp only [validMutationAssociations, decide_eq_true_eq] at h
    simp only [Associated, Names, getStr?_copy hj, h]

theorem wellKeyed_new : new.WellKeyed := ⟨.empty, .empty, .empty, .empty⟩

theorem wellKeyed_cleared {s : HubStateStore} : s.cleared.WellKeyed :=
  ⟨.empty, .empty, .empty, .empty⟩

theorem names_manifestRecord {k : String} {change : Json} (h : Names "instanceId" k change) :
    Names "instanceId" k (manifestRecord change) := by
  unfold Names Json.getStr? at *
  obtain ⟨x, hx, hs⟩ := Option.bind_eq_some_iff.mp h
  rw [manifestRecord, hx, Json.get?_record_head]
  exact hs

theorem wellKeyed_applyCopied {s : HubStateStore} (h : s.WellKeyed) (hν : Associated ν) :
    (s.applyCopied ν).WellKeyed := by
  cases ν with
  | sequenceUpsert i v => exact { h with sequences := h.sequences.set hν }
  | sequenceRemove i => exact { h with sequences := h.sequences.delete i }
  | sequenceManifest q i c =>
    by_cases hc : c.getStr? "action" = some "removed"
    · simp only [applyCopied, hc, if_true]
      exact { h with manifests := h.manifests.delete i }
    · simp only [applyCopied, hc, if_false]
      exact { h with manifests := h.manifests.set (names_manifestRecord hν) }
  | instanceUpsert i q v => exact { h with instances := h.instances.set hν }
  | instanceRemove i q => exact { h with instances := h.instances.delete i }
  | topicUpsert t v => exact { h with topics := h.topics.set hν }
  | topicRemove t => exact { h with topics := h.topics.delete t }
  | healthUpsert v => exact { h with }

theorem names_of_mem_keyedEntries {key : String} {records : List Json} {e : String × Json}
    (h : e ∈ keyedEntries key records) : Names key e.1 e.2 := by
  obtain ⟨r, -, hr⟩ := List.mem_filterMap.mp h
  obtain ⟨k, hk, rfl⟩ := Option.map_eq_some_iff.mp hr
  exact hk

theorem names_without {key k member : String} {record : Json} (hne : member ≠ key)
    (h : Names key k record) : Names key k (record.without member) := by
  unfold Names Json.getStr? at *
  rw [Json.get?_without record hne, h]

theorem wellKeyed_load {s : HubStateStore} {inventory : Json} {cursor : StoredCursor} :
    (s.load inventory cursor).WellKeyed := by
  refine ⟨.ofEntries fun e he => ?_, .ofEntries fun e he => names_of_mem_keyedEntries he,
    .ofEntries fun e he => names_of_mem_keyedEntries he, .ofEntries fun e he => ?_⟩
  · obtain ⟨e', he', rfl⟩ := List.mem_map.mp he
    exact names_without (by decide) (names_of_mem_keyedEntries he')
  · obtain ⟨q, -, he⟩ := List.mem_flatMap.mp he
    obtain ⟨m, hm, rfl⟩ := List.mem_map.mp he
    exact names_of_mem_keyedEntries hm

/-! ## The items of a store -/

/-- The items made of the entries of a map: `f` of each record, with the manifests `ms` of its
key. -/
def itemsOf (f : Json → Json) (ms : String → List Json) (es : List (String × Json)) : Replica :=
  es.map fun e => ⟨e.1, f e.2, ms e.1⟩

theorem ofItems_entries {kind : HubWatchKind} {f g : Json → Json} {ms : String → List Json}
    {m : OrderedMap String Json} {key : String} (h : m.All (Names key))
    (hitem : ∀ k record, Names key k record →
      ReplicaItem.ofItem kind (g record) = ⟨k, f record, ms k⟩) :
    Replica.ofItems kind (m.values.map g) = itemsOf f ms m.entries := by
  simp only [Replica.ofItems, values, List.map_map, itemsOf]
  exact List.map_congr_left fun e he => hitem e.1 e.2 (h e he)

theorem ofItem_sequence {k : String} {record : Json} (h : Names "id" k record) (ms : List Json) :
    ReplicaItem.ofItem .sequence (record.set "manifests" (.arr ms)) =
      ⟨k, record.without "manifests", ms⟩ := by
  cases record with
  | obj es =>
    have hid : ((Json.obj es).set "manifests" (.arr ms)).getStr? "id" = some k := by
      rw [Json.getStr?, Json.get?_set, if_neg (by decide)]
      exact h
    have hms : ((Json.obj es).set "manifests" (.arr ms)).getElems "manifests" = ms := by
      rw [Json.getElems, Json.get?_set, if_pos rfl]
      rfl
    simp only [ReplicaItem.ofItem, hid, hms, Json.without_set, Option.getD_some]
  | _ => cases h

variable {s : HubStateStore}

theorem replica_sequence (h : s.WellKeyed) :
    s.replica .sequence =
      itemsOf (·.without "manifests") (fun k => s.manifestsOf (some k)) s.sequences.entries := by
  refine ofItems_entries h.sequences fun k record hk => ?_
  have hk' : record.getStr? "id" = some k := hk
  rw [hk']
  exact ofItem_sequence hk _

theorem replica_instance (h : s.WellKeyed) :
    s.replica .inst = itemsOf id (fun _ => []) s.instances.entries := by
  have hmap : s.items .inst = s.instances.values.map id := (List.map_id _).symm
  rw [replica, hmap]
  refine ofItems_entries h.instances fun k record hk => ?_
  have hk' : record.getStr? "id" = some k := hk
  simp [ReplicaItem.ofItem, hk']

theorem replica_topic (h : s.WellKeyed) :
    s.replica .topic = itemsOf id (fun _ => []) s.topics.entries := by
  have hmap : s.items .topic = s.topics.values.map id := (List.map_id _).symm
  rw [replica, hmap]
  refine ofItems_entries h.topics fun k record hk => ?_
  have hk' : record.getStr? "name" = some k := hk
  simp [ReplicaItem.ofItem, hk']

/-! ## Folding over the items of a store -/

section Items

variable {f : Json → Json} {ms ms' : String → List Json} {es : List (String × Json)}

theorem upsert_itemsOf (f : Json → Json) (ms : String → List Json) {k : String} {v : Json}
    (h : k ∈ es.map Prod.fst ∨ ms k = []) :
    (itemsOf f ms es).upsert k (f v) = itemsOf f ms (setEntry k v es) := by
  induction es with
  | nil =>
    have hms : ms k = [] := by simpa using h
    simp [itemsOf, Replica.upsert, setEntry, hms]
  | cons e es ih =>
    obtain ⟨k', w⟩ := e
    by_cases hk : k' = k
    · subst hk
      simp [itemsOf, Replica.upsert, setEntry]
    · have h' : k ∈ es.map Prod.fst ∨ ms k = [] := by
        rcases h with h | h
        · exact .inl ((List.mem_cons.mp h).resolve_left fun e => hk e.symm)
        · exact .inr h
      simpa [itemsOf, Replica.upsert, setEntry, hk] using ih h'

theorem remove_itemsOf (k : String) :
    (itemsOf f ms es).remove k = itemsOf f ms (es.filter fun e => e.1 ≠ k) := by
  simp only [itemsOf, Replica.remove, List.filter_map]
  rfl

theorem putManifest_itemsOf {sequenceId instanceId : String} {manifest : Option Json}
    (h : ∀ k, ((ms k).filter (fun m => m.getStr? "instanceId" ≠ some instanceId) ++
      if k = sequenceId then manifest.toList else []).Perm (ms' k)) :
    Replica.Same ((itemsOf f ms es).map (.putManifest sequenceId instanceId manifest))
      (itemsOf f ms' es) := by
  induction es with
  | nil => exact .nil
  | cons e es ih => exact .cons ⟨rfl, rfl, h e.1⟩ ih

end Items

/-! ## The manifests of a sequence -/

/-- The manifests of sequence `k` among the entries of a manifest map. -/
def belonging (k : String) (es : List (String × ManifestEntry)) : List Json :=
  es.filterMap fun e => if e.2.sequenceId = k then some e.2.value else none

theorem manifestsOf_some (s : HubStateStore) (k : String) :
    s.manifestsOf (some k) = belonging k s.manifests.entries := by
  simp [manifestsOf, belonging, values, List.filterMap_map]

theorem belonging_filter {k i : String} {es : List (String × ManifestEntry)}
    (h : ∀ e ∈ es, Names "instanceId" e.1 e.2.value) :
    belonging k (es.filter fun e => e.1 ≠ i) =
      (belonging k es).filter fun m => m.getStr? "instanceId" ≠ some i := by
  induction es with
  | nil => rfl
  | cons e es ih =>
    have he : e.2.value.getStr? "instanceId" = some e.1 := h e List.mem_cons_self
    have ih := ih fun e' he' => h e' (List.mem_cons_of_mem _ he')
    unfold belonging at ih ⊢
    by_cases hi : e.1 = i <;> by_cases hk : e.2.sequenceId = k <;>
      simp [hi, hk, he] at ih ⊢ <;> exact ih

section

variable {m : OrderedMap String ManifestEntry} (h : m.All fun k e => Names "instanceId" k e.value)
  (k i : String)
include h k i

theorem belonging_delete :
    belonging k (m.delete i).entries =
      (belonging k m.entries).filter fun x => x.getStr? "instanceId" ≠ some i :=
  belonging_filter h

theorem belonging_set (a : ManifestEntry) :
    ((belonging k m.entries).filter (fun x => x.getStr? "instanceId" ≠ some i) ++
      if k = a.sequenceId then [a.value] else []).Perm (belonging k (m.set i a).entries) := by
  have hperm : (belonging k (m.set i a).entries).Perm
      (belonging k (m.entries.filter (fun e => e.1 ≠ i) ++ [(i, a)])) :=
    (setEntry_perm m.nodup).filterMap _
  refine (hperm.trans ?_).symm
  rw [belonging, List.filterMap_append]
  show (belonging k _ ++ _).Perm _
  rw [belonging_filter h]
  by_cases hk : a.sequenceId = k
  · simp [hk]
  · simp [hk, Ne.symm hk]

end

/-! ## One mutation on both sides -/

/-- The mutation does not bring a sequence that the store does not hold while it still keeps
manifests of it. -/
def NoLeftover (s : HubStateStore) : HubStateMutation Json → Prop
  | .sequenceUpsert sequenceId _ =>
    s.sequences.has sequenceId = true ∨ s.manifestsOf (some sequenceId) = []
  | _ => True

theorem applyCopied_replica (h : s.WellKeyed) (hν : Associated ν) (hleft : s.NoLeftover ν) :
    Replica.Same ((s.replica ν.kind).fold ν) ((s.applyCopied ν).replica ν.kind) := by
  have h' := wellKeyed_applyCopied h hν
  cases ν with
  | sequenceUpsert i v =>
    rw [HubStateMutation.kind, replica_sequence h, replica_sequence h']
    refine .of_eq (upsert_itemsOf (·.without "manifests")
      (fun k => s.manifestsOf (some k)) ?_)
    rcases hleft with hleft | hleft
    · exact .inl (mem_keys_iff.mpr hleft)
    · exact .inr hleft
  | sequenceRemove i =>
    rw [HubStateMutation.kind, replica_sequence h, replica_sequence h']
    exact .of_eq (remove_itemsOf i)
  | sequenceManifest q i c =>
    rw [HubStateMutation.kind, replica_sequence h, replica_sequence h']
    have hseq : (s.applyCopied (.sequenceManifest q i c)).sequences = s.sequences := by
      by_cases hc : c.getStr? "action" = some "removed" <;> simp [applyCopied, hc]
    rw [hseq]
    refine putManifest_itemsOf fun k => ?_
    simp only [manifestsOf_some, applyCopied]
    by_cases hc : c.getStr? "action" = some "removed"
    · simp only [hc, if_true, belonging_delete h.manifests k i]
      simp
    · simp only [hc, if_false, Option.toList_some]
      exact belonging_set h.manifests k i ⟨q, manifestRecord c⟩
  | instanceUpsert i q v =>
    rw [HubStateMutation.kind, replica_instance h, replica_instance h']
    exact .of_eq (upsert_itemsOf id (fun _ => []) (.inr rfl))
  | instanceRemove i q =>
    rw [HubStateMutation.kind, replica_instance h, replica_instance h']
    exact .of_eq (remove_itemsOf i)
  | topicUpsert t v =>
    rw [HubStateMutation.kind, replica_topic h, replica_topic h']
    exact .of_eq (upsert_itemsOf id (fun _ => []) (.inr rfl))
  | topicRemove t =>
    rw [HubStateMutation.kind, replica_topic h, replica_topic h']
    exact .of_eq (remove_itemsOf t)
  | healthUpsert v =>
    refine .of_eq ?_
    show (Replica.ofItems .health s.health.toList).upsert "" v = _
    cases s.health with
    | none | some w => rfl

theorem applyCopied_items_of_ne {kind : HubWatchKind} (h : kind ≠ ν.kind) :
    (s.applyCopied ν).items kind = s.items kind := by
  cases ν with
  | sequenceManifest q i c =>
    by_cases hc : c.getStr? "action" = some "removed" <;> cases kind <;>
      first | exact absurd rfl h | simp [applyCopied, hc, items]
  | _ => cases kind <;> first | exact absurd rfl h | rfl

end HubStateStore

end TransformHub.HubState
