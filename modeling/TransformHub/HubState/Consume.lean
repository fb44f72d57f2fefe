import TransformHub.HubState.Replica

/-!
# What a call of `consume` can do

`consume_consumed` says once what one audit record does to a store, and each invariant is derived
from that.
-/

namespace TransformHub.HubState

open Js OrderedMap

namespace HubStateStore

/-! ## Accepted records -/

/-- The record is a checkpoint that passes every check and is copied whole. -/
structure AcceptedCheckpoint (record : JsValue) (inventory : Json) (cursor : StoredCursor) :
    Prop where
  type : ((record.get "hubState").get "type").str? = some "checkpoint"
  valid : validCursor ((record.get "hubState").get "cursor") = some cursor.cursor
  associations : ∃ inv, readInventory ((record.get "hubState").get "inventory") = some inv ∧
    validInventoryAssociations inv = some true
  inventory : copy ((record.get "hubState").get "inventory") = some inventory
  cursor : copyCursor ((record.get "hubState").get "cursor") = some cursor

/-- The record is a change that passes every check, continues the history of the store, and whose
mutation's record can be copied. -/
structure AcceptedChange (s : HubStateStore) (record : JsValue)
    (mutation : HubStateMutation JsValue) : Prop where
  type : ((record.get "hubState").get "type").str? = some "change"
  valid : validMutation ((record.get "hubState").get "mutation") = some mutation
  associations : validMutationAssociations mutation = true
  continues : ∃ previousCursor cursor,
    validCursor ((record.get "hubState").get "previousCursor") = some previousCursor ∧
      validCursor ((record.get "hubState").get "cursor") = some cursor ∧
        s.continues previousCursor cursor = true
  copied : (mutation.traverse copy).isSome

inductive Consumed (s : HubStateStore) (record : JsValue) (throws : ℕ → Bool) : Outcome → Prop
  /-- nothing changes -/
  | ignored (thrown : Bool) : Consumed s record throws ⟨s, [], thrown⟩
  /-- every subscriber fails -/
  | failed (error : HubStateSourceError) : Consumed s record throws (s.invalidate error)
  /-- every subscriber fails, then a checkpoint is loaded -/
  | replaced (error : HubStateSourceError) (inventory : Json) (cursor : StoredCursor) :
      Consumed s record throws ⟨s.cleared.load inventory cursor, s.failures error, false⟩
  /-- a checkpoint is loaded; the store was unavailable, or stood at that cursor -/
  | loaded {inventory : Json} {cursor : StoredCursor}
      (accepted : AcceptedCheckpoint record inventory cursor)
      (here : ∀ held, s.cursor = some held → s.available = true → held.cursor = cursor.cursor) :
      Consumed s record throws ⟨s.load inventory cursor, [], false⟩
  | changed {mutation : HubStateMutation JsValue} {copied : HubStateMutation Json}
      (accepted : s.AcceptedChange record mutation) (hcopied : mutation.traverse copy = some copied) :
      Consumed s record throws
        ((s.applyCopied copied).publish (record.get "hubState") mutation.kind throws)

section Cases

variable {s : HubStateStore} {record : JsValue} {throws : ℕ → Bool}

theorem failThenLoad_consumed (error : HubStateSourceError) (audit : JsValue) :
    Consumed s record throws (s.failThenLoad error audit) := by
  unfold failThenLoad loadCheckpoint
  split
  · simpa [invalidate] using Consumed.replaced error _ _
  · simpa [invalidate, cleared, failures] using Consumed.failed error

theorem loadCheckpoint_consumed {cursor : HubCursor}
    (htype : ((record.get "hubState").get "type").str? = some "checkpoint")
    (hcursor : validCursor ((record.get "hubState").get "cursor") = some cursor)
    (hinv : ∃ inv, readInventory ((record.get "hubState").get "inventory") = some inv ∧
      validInventoryAssociations inv = some true)
    (here : ∀ held, s.cursor = some held → s.available = true → held.cursor = cursor) :
    Consumed s record throws (s.loadCheckpoint (record.get "hubState")) := by
  unfold loadCheckpoint
  split
  next inventory stored hi hc =>
    have hstored : stored.cursor = cursor := by
      rcases copyCursor_spec hcursor with ⟨-, hn⟩ | ⟨s', -, hs', heq⟩
      · rw [hn] at hc
        cases hc
      · rw [hs'] at hc
        cases hc
        exact heq
    subst hstored
    exact .loaded ⟨htype, hcursor, hinv, hi, hc⟩ here
  next => exact .failed _

theorem consume_consumed : Consumed s record throws (s.consume record throws) := by
  unfold consume
  simp only
  split_ifs with hclosed hobj htype
  · exact .ignored false
  · exact .failed _
  · unfold consumeCheckpoint
    split
    next cursor inv hcursor hinv =>
      split
      · exact .ignored true
      · exact .failed _
      next hassoc =>
        unfold checkpoint
        split
        next hnone =>
          exact loadCheckpoint_consumed htype hcursor ⟨inv, hinv, hassoc⟩
            fun held hheld => by simp [hnone] at hheld
        next held hheld =>
          split_ifs with hid hlt hahead
          · exact failThenLoad_consumed _ _
          · exact .ignored false
          · exact failThenLoad_consumed _ _
          · refine loadCheckpoint_consumed htype hcursor ⟨inv, hinv, hassoc⟩
              fun held' hheld' havail => ?_
            rw [hheld, Option.some.injEq] at hheld'
            subst hheld'
            have hpos : held.cursor.position = cursor.position := by
              have hle : ¬ held.cursor.position < cursor.position :=
                fun h => hahead ⟨havail, h⟩
              omega
            rw [not_or, not_not, not_not] at hid
            have hcur : held.cursor = ⟨cursor.hubId, cursor.epoch, cursor.position⟩ := by
              rw [hid.1, hid.2, ← hpos]
            exact hcur
    next => exact .failed _
  · unfold consumeChange
    split
    next cursor previous μ hchange hcursor hprevious hμ =>
      split_ifs with hassoc hcont
      · exact .failed _
      · exact .failed _
      · unfold apply
        cases hν : μ.traverse copy with
        | none => exact .failed _
        | some ν =>
          refine .changed ⟨hchange, hμ, by simpa using hassoc,
            ⟨previous, cursor, hprevious, hcursor, by simpa using hcont⟩, by simp [hν]⟩ hν
    next => exact .failed _

end Cases

/-! ## Loading a checkpoint -/

/-- The items of one kind that a checkpoint's inventory lists. -/
def inventoryItems (inventory : Json) : HubWatchKind → List Json
  | .sequence => inventory.getElems "sequences"
  | .inst => inventory.getElems "instances"
  | .topic => inventory.getElems "topics"
  | .health => (inventory.get? "health").toList

/-- Every record names a key, and no two name the same. -/
structure DistinctlyNamed (key : String) (records : List Json) : Prop where
  named : ∀ r ∈ records, ∃ k, Names key k r
  nodup : (records.map fun r => r.getStr? key).Nodup

variable {key : String}

theorem DistinctlyNamed.of_cons {r : Json} {rs : List Json} (h : DistinctlyNamed key (r :: rs)) :
    DistinctlyNamed key rs :=
  ⟨fun r' hr' => h.named r' (List.mem_cons_of_mem _ hr'), (List.nodup_cons.mp h.nodup).2⟩

theorem keyedEntries_eq {records : List Json} (h : ∀ r ∈ records, ∃ k, Names key k r) :
    keyedEntries key records = records.map fun r => ((r.getStr? key).getD "", r) := by
  induction records with
  | nil => rfl
  | cons r rs ih =>
    obtain ⟨k, hk⟩ := h r List.mem_cons_self
    have hk' : r.getStr? key = some k := hk
    have ih := ih fun r' hr' => h r' (List.mem_cons_of_mem _ hr')
    unfold keyedEntries at ih ⊢
    simp [hk', ih]

theorem nodup_keyedEntries {records : List Json} (h : DistinctlyNamed key records) :
    ((keyedEntries key records).map Prod.fst).Nodup := by
  have hmap : ((keyedEntries key records).map Prod.fst).map some =
      records.map fun r => r.getStr? key := by
    rw [keyedEntries_eq h.named, List.map_map, List.map_map]
    refine List.map_congr_left fun r hr => ?_
    obtain ⟨k, hk⟩ := h.named r hr
    have hk' : r.getStr? key = some k := hk
    simp [hk']
  exact List.Nodup.of_map some (hmap ▸ h.nodup)

theorem copyElems_get {v : JsValue} {j : Json} (h : copy v = some j) {k : String}
    {es : List JsValue} (hes : (v.get k).elems? = some es) :
    copyElems es = some (j.getElems k) := by
  rcases get_copy h k with ⟨hv, -⟩ | ⟨x, hv, hj⟩
  · rw [hv] at hes
    cases hes
  · cases hg : v.get k with
    | arr plain elems extra =>
      rw [hg] at hes hv
      cases hes
      simp only [copy, Option.ite_none_right_eq_some, Option.map_eq_some_iff] at hv
      obtain ⟨-, js, hjs, rfl⟩ := hv
      simp [hjs, Json.getElems, hj, Json.elems]
    | _ => simp [hg, JsValue.elems?] at hes

variable {vs : List JsValue}

theorem copyElems_cons_eq_some {v : JsValue} {js : List Json} (h : copyElems (v :: vs) = some js) :
    ∃ j js', copy v = some j ∧ copyElems vs = some js' ∧ js = j :: js' := by
  rw [copyElems_cons] at h
  obtain ⟨j, hj, h⟩ := Option.bind_eq_some_iff.mp h
  obtain ⟨js', hjs, rfl⟩ := Option.map_eq_some_iff.mp h
  exact ⟨j, js', hj, hjs, rfl⟩

variable {seen : List String}

theorem distinctlyNamed_cons {key k : String} {r : Json} {rs : List Json} (hr : Names key k r)
    (hseen : k ∉ seen)
    (h : DistinctlyNamed key rs ∧ ∀ r' ∈ rs, ∀ k', Names key k' r' → k' ∉ k :: seen) :
    DistinctlyNamed key (r :: rs) ∧ ∀ r' ∈ r :: rs, ∀ k', Names key k' r' → k' ∉ seen := by
  have hr' : r.getStr? key = some k := hr
  refine ⟨⟨?_, List.nodup_cons.mpr ⟨?_, h.1.nodup⟩⟩, ?_⟩
  · rintro r' (_ | ⟨_, hmem⟩)
    · exact ⟨k, hr⟩
    · exact h.1.named r' hmem
  · intro hmem
    obtain ⟨r', hmem, hname⟩ := List.mem_map.mp hmem
    exact h.2 r' hmem k (hname.trans hr') List.mem_cons_self
  · rintro r' (_ | ⟨_, hmem⟩) k' hk'
    · have hk' : r.getStr? key = some k' := hk'
      rw [hr', Option.some.injEq] at hk'
      exact hk' ▸ hseen
    · exact fun hin => h.2 r' hmem k' hk' (List.mem_cons_of_mem _ hin)

theorem distinctlyNamed_nil (key : String) (seen : List String) :
    DistinctlyNamed key [] ∧ ∀ r ∈ ([] : List Json), ∀ k, Names key k r → k ∉ seen :=
  ⟨⟨nofun, List.nodup_nil⟩, nofun⟩

theorem distinctlyNamed_of_validKeyed {p : JsValue → Bool} {js : List Json}
    (h : validKeyed key p seen vs = true) (hjs : copyElems vs = some js) :
    DistinctlyNamed key js ∧ ∀ r ∈ js, ∀ k, Names key k r → k ∉ seen := by
  induction vs generalizing seen js with
  | nil =>
    cases hjs
    exact distinctlyNamed_nil key seen
  | cons v vs ih =>
    obtain ⟨j, js', hj, hjs', rfl⟩ := copyElems_cons_eq_some hjs
    rw [validKeyed] at h
    split at h
    next k hk =>
      simp only [Bool.and_eq_true, Bool.not_eq_true', List.contains_eq_mem,
        decide_eq_false_iff_not] at h
      exact distinctlyNamed_cons ((getStr?_copy hj key).trans hk) h.1.1.2 (ih h.2 hjs')
    next => cases h

theorem distinctlyNamed_of_validManifests {sequenceId : String} {js : List Json}
    (h : validManifests sequenceId seen vs = true) (hjs : copyElems vs = some js) :
    DistinctlyNamed "instanceId" js ∧ ∀ r ∈ js, ∀ k, Names "instanceId" k r → k ∉ seen := by
  induction vs generalizing seen js with
  | nil =>
    cases hjs
    exact distinctlyNamed_nil _ seen
  | cons v vs ih =>
    obtain ⟨j, js', hj, hjs', rfl⟩ := copyElems_cons_eq_some hjs
    have hv : v ≠ .hole := by
      rintro rfl
      cases hj
    rw [validManifests.eq_3 _ _ _ _ (fun h => hv h)] at h
    split at h
    next k hk =>
      simp only [Bool.and_eq_true, Bool.not_eq_true', List.contains_eq_mem,
        decide_eq_false_iff_not] at h
      exact distinctlyNamed_cons ((getStr?_copy hj _).trans hk) h.1.2 (ih h.2 hjs')
    next => cases h

theorem distinctlyNamed_of_validSequenceInventory {js : List Json}
    (h : validSequenceInventory seen vs = true) (hjs : copyElems vs = some js) :
    (DistinctlyNamed "id" js ∧ ∀ r ∈ js, ∀ k, Names "id" k r → k ∉ seen) ∧
      ∀ r ∈ js, DistinctlyNamed "instanceId" (r.getElems "manifests") := by
  induction vs generalizing seen js with
  | nil =>
    cases hjs
    exact ⟨distinctlyNamed_nil _ seen, nofun⟩
  | cons v vs ih =>
    obtain ⟨j, js', hj, hjs', rfl⟩ := copyElems_cons_eq_some hjs
    have hv : v ≠ .hole := by
      rintro rfl
      cases hj
    rw [validSequenceInventory.eq_3 _ _ _ (fun h => hv h)] at h
    split at h
    next k ms hk hms =>
      simp only [Bool.and_eq_true, Bool.not_eq_true', List.contains_eq_mem,
        decide_eq_false_iff_not] at h
      obtain ⟨hrest, hmanifests⟩ := ih h.2 hjs'
      refine ⟨distinctlyNamed_cons ((getStr?_copy hj _).trans hk) h.1.1.2 hrest, ?_⟩
      rintro r (_ | ⟨_, hmem⟩)
      · exact (distinctlyNamed_of_validManifests h.1.2 (copyElems_get hj hms)).1
      · exact hmanifests r hmem
    next => cases h

/-- The names that an accepted and copied inventory gives. -/
structure WellNamed (inventory : Json) : Prop where
  sequences : DistinctlyNamed "id" (inventory.getElems "sequences")
  manifests : ∀ r ∈ inventory.getElems "sequences",
    DistinctlyNamed "instanceId" (r.getElems "manifests")
  instances : DistinctlyNamed "id" (inventory.getElems "instances")
  topics : DistinctlyNamed "name" (inventory.getElems "topics")

theorem AcceptedCheckpoint.wellNamed {record : JsValue} {inventory : Json}
    {cursor : StoredCursor} (h : AcceptedCheckpoint record inventory cursor) :
    WellNamed inventory := by
  obtain ⟨inv, hread, hvalid⟩ := h.associations
  have hcopy := h.inventory
  unfold readInventory at hread
  split at hread
  next sequences instances topics hs hi ht =>
    split_ifs at hread
    cases hread
    unfold validInventoryAssociations at hvalid
    split_ifs at hvalid with hseq hhole
    · cases hvalid
    · simp only [Bool.not_eq_true', Bool.not_eq_false] at hseq
      simp only [Option.some.injEq, Bool.and_eq_true] at hvalid
      obtain ⟨hseqs, hmanifests⟩ :=
        distinctlyNamed_of_validSequenceInventory hseq (copyElems_get hcopy hs)
      exact ⟨hseqs.1, hmanifests,
        (distinctlyNamed_of_validKeyed hvalid.1.1 (copyElems_get hcopy hi)).1,
        (distinctlyNamed_of_validKeyed hvalid.1.2 (copyElems_get hcopy ht)).1⟩
  next => cases hread

/-- The instance ids of the manifests among a replica's items. -/
def instanceNames (r : Replica) : List (Option String) :=
  r.flatMap fun i => i.manifests.map fun m => m.getStr? "instanceId"

theorem instanceNames_perm {r r' : Replica} (h : r.Same r') :
    (instanceNames r).Perm (instanceNames r') := by
  induction h with
  | nil => exact .refl _
  | cons hi _ ih => exact (hi.manifests.map _).append ih

theorem map_belonging {es : List (String × ManifestEntry)}
    (h : ∀ e ∈ es, Names "instanceId" e.1 e.2.value) (k : String) :
    (belonging k es).map (fun m => m.getStr? "instanceId") =
      (es.filter fun e => e.2.sequenceId = k).map fun e => some e.1 := by
  induction es with
  | nil => rfl
  | cons e es ih =>
    have he : e.2.value.getStr? "instanceId" = some e.1 := h e List.mem_cons_self
    have ih := ih fun e' he' => h e' (List.mem_cons_of_mem _ he')
    unfold belonging at ih ⊢
    by_cases hk : e.2.sequenceId = k
    · simpa [hk, he] using ih
    · simpa [hk] using ih

theorem nodup_instanceNames {s : HubStateStore} (h : s.WellKeyed) :
    (instanceNames (s.replica .sequence)).Nodup := by
  have hkeys : (s.manifests.entries.map fun e => some e.1).Nodup := by
    have := s.manifests.nodup.map (f := some) fun _ _ h => Option.some.inj h
    rwa [List.map_map] at this
  rw [replica_sequence h, instanceNames, itemsOf, List.flatMap_map, List.nodup_flatMap]
  constructor
  · intro e _
    rw [manifestsOf_some, map_belonging h.manifests]
    exact hkeys.sublist (List.filter_sublist.map _)
  · have hne : s.sequences.entries.Pairwise fun a b => a.1 ≠ b.1 :=
      List.pairwise_map.mp s.sequences.nodup
    refine hne.imp fun {a b} hab => ?_
    simp only [Function.onFun, manifestsOf_some, map_belonging h.manifests]
    intro x hx hy
    obtain ⟨e, he, rfl⟩ := List.mem_map.mp hx
    obtain ⟨e', he', heq⟩ := List.mem_map.mp hy
    rw [List.mem_filter, decide_eq_true_eq] at he he'
    have hsame : e' = e := List.inj_on_of_nodup_map hkeys he'.1 he.1 heq
    subst hsame
    exact hab (he.2.symm.trans he'.2)

theorem belonging_append (k : String) (es es' : List (String × ManifestEntry)) :
    belonging k (es ++ es') = belonging k es ++ belonging k es' := List.filterMap_append

theorem belonging_manifests {ms : List Json} (h : ∀ m ∈ ms, ∃ i, Names "instanceId" i m)
    (k q : String) :
    belonging k ((keyedEntries "instanceId" ms).map fun m => (m.1, ⟨q, m.2⟩)) =
      if q = k then ms else [] := by
  rw [keyedEntries_eq h, List.map_map]
  by_cases hq : q = k <;> simp [belonging, hq, List.filterMap_map]

theorem belonging_inventoryManifests_of_absent {k : String} {seqs : List Json}
    (hnamed : ∀ r ∈ seqs, ∀ m ∈ r.getElems "manifests", ∃ i, Names "instanceId" i m)
    (h : ∀ r ∈ seqs, ¬ Names "id" k r) : belonging k (inventoryManifests seqs) = [] := by
  induction seqs with
  | nil => rfl
  | cons r rs ih =>
    have ih := ih (fun r' hr' => hnamed r' (List.mem_cons_of_mem _ hr'))
      fun r' hr' => h r' (List.mem_cons_of_mem _ hr')
    unfold inventoryManifests keyedEntries at ih ⊢
    cases hr : r.getStr? "id" with
    | none => simpa [hr] using ih
    | some q =>
      have hq : q ≠ k := fun hqk => h r List.mem_cons_self (hqk ▸ hr)
      have hpart := belonging_manifests (hnamed r List.mem_cons_self) k q
      rw [if_neg hq, keyedEntries] at hpart
      simp only [List.filterMap_cons, hr, Option.map_some, List.flatMap_cons,
        belonging_append, hpart, List.nil_append]
      exact ih

theorem belonging_inventoryManifests {k : String} {seqs : List Json} {r : Json}
    (hseqs : DistinctlyNamed "id" seqs)
    (hnamed : ∀ r ∈ seqs, ∀ m ∈ r.getElems "manifests", ∃ i, Names "instanceId" i m)
    (hr : r ∈ seqs) (hk : Names "id" k r) :
    belonging k (inventoryManifests seqs) = r.getElems "manifests" := by
  induction seqs with
  | nil => cases hr
  | cons q qs ih =>
    have hnamed' : ∀ r ∈ qs, ∀ m ∈ r.getElems "manifests", ∃ i, Names "instanceId" i m :=
      fun r' hr' => hnamed r' (List.mem_cons_of_mem _ hr')
    obtain ⟨kq, hkq⟩ := hseqs.named q List.mem_cons_self
    have hkq' : q.getStr? "id" = some kq := hkq
    have hk' : r.getStr? "id" = some k := hk
    have hpart := belonging_manifests (hnamed q List.mem_cons_self) k kq
    have hcons : belonging k (inventoryManifests (q :: qs)) =
        (if kq = k then q.getElems "manifests" else []) ++ belonging k (inventoryManifests qs) := by
      rw [← hpart, ← belonging_append]
      simp [inventoryManifests, keyedEntries, hkq']
    have hnodup := List.nodup_cons.mp hseqs.nodup
    rw [hcons]
    rcases List.mem_cons.mp hr with rfl | hmem
    · have heq : kq = k := Option.some.inj (hkq'.symm.trans hk')
      have habsent : belonging k (inventoryManifests qs) = [] := by
        refine belonging_inventoryManifests_of_absent hnamed' fun r' hr' hname => ?_
        have hname' : r'.getStr? "id" = some k := hname
        exact hnodup.1 (List.mem_map.mpr ⟨r', hr', hname'.trans hk'.symm⟩)
      rw [if_pos heq, habsent, List.append_nil]
    · have hne : kq ≠ k := by
        rintro rfl
        exact hnodup.1 (List.mem_map.mpr ⟨r, hmem, hk'.trans hkq'.symm⟩)
      rw [if_neg hne, List.nil_append]
      exact ih hseqs.of_cons hnamed' hmem

theorem map_inventoryManifests {seqs : List Json} (hseqs : ∀ r ∈ seqs, ∃ k, Names "id" k r)
    (hnamed : ∀ r ∈ seqs, ∀ m ∈ r.getElems "manifests", ∃ i, Names "instanceId" i m) :
    (inventoryManifests seqs).map (fun e => some e.1) =
      instanceNames (.ofItems .sequence seqs) := by
  rw [inventoryManifests, keyedEntries_eq hseqs, instanceNames, Replica.ofItems, List.flatMap_map,
    List.flatMap_map, List.map_flatMap]
  refine List.flatMap_congr fun r hr => ?_
  rw [keyedEntries_eq (hnamed r hr), List.map_map, List.map_map]
  refine List.map_congr_left fun m hm => ?_
  obtain ⟨i, hi⟩ := hnamed r hr m hm
  have hi' : m.getStr? "instanceId" = some i := hi
  simp [hi']

theorem values_ofEntries_keyed {records : List Json} (h : DistinctlyNamed key records) :
    (ofEntries (keyedEntries key records)).values = records := by
  rw [values, entries_ofEntries (nodup_keyedEntries h),
    keyedEntries_eq h.named, List.map_map]
  exact List.map_id _

/-- After a checkpoint is loaded the store shows the checkpoint's items, unless an instance has
manifests under two of its sequences. -/
theorem replica_load (s : HubStateStore) {inventory : Json} {cursor : StoredCursor}
    (h : WellNamed inventory) {kind : HubWatchKind}
    (hnames : kind = .sequence →
      (instanceNames (.ofItems .sequence (inventoryItems inventory .sequence))).Nodup) :
    (s.load inventory cursor).replica kind = .ofItems kind (inventoryItems inventory kind) := by
  cases kind with
  | sequence =>
    have hnamed : ∀ r ∈ inventory.getElems "sequences", ∀ m ∈ r.getElems "manifests",
        ∃ i, Names "instanceId" i m := fun r hr => (h.manifests r hr).named
    have hkeys : ((inventoryManifests (inventory.getElems "sequences")).map Prod.fst).Nodup := by
      refine List.Nodup.of_map some ?_
      rw [List.map_map]
      exact (map_inventoryManifests h.sequences.named hnamed) ▸ hnames rfl
    have hvalues : (s.load inventory cursor).sequences.values =
        (inventory.getElems "sequences").map fun j => j.without "manifests" := by
      have hnodup : (((keyedEntries "id" (inventory.getElems "sequences")).map
          fun e => (e.1, e.2.without "manifests")).map Prod.fst).Nodup := by
        rw [List.map_map]
        exact nodup_keyedEntries h.sequences
      rw [values, load, entries_ofEntries hnodup, List.map_map,
        keyedEntries_eq h.sequences.named, List.map_map]
      rfl
    simp only [replica, items, Replica.ofItems, hvalues, List.map_map, inventoryItems]
    refine List.map_congr_left fun r hr => ?_
    obtain ⟨k, hk⟩ := h.sequences.named r hr
    have hk' : r.getStr? "id" = some k := hk
    have hw : Names "id" k (r.without "manifests") := names_without (by decide) hk
    have hw' : (r.without "manifests").getStr? "id" = some k := hw
    have hms : (s.load inventory cursor).manifestsOf (some k) = r.getElems "manifests" := by
      rw [manifestsOf_some, load, entries_ofEntries hkeys]
      exact belonging_inventoryManifests h.sequences hnamed hr hk
    simp only [Function.comp_apply, hw', hms, ofItem_sequence hw, Json.without_without]
    simp [ReplicaItem.ofItem, hk']
  | inst => exact congrArg (Replica.ofItems .inst) (values_ofEntries_keyed h.instances)
  | topic => exact congrArg (Replica.ofItems .topic) (values_ofEntries_keyed h.topics)
  | health => rfl

theorem nodup_instanceNames_of_same {s : HubStateStore} (h : s.WellKeyed) {r : Replica}
    (hsame : Replica.Same (s.replica .sequence) r) : (instanceNames r).Nodup :=
  (instanceNames_perm hsame).nodup_iff.mp (nodup_instanceNames h)

end HubStateStore

end TransformHub.HubState
