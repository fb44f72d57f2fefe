import TransformHub.Manager.SthInfoInventory
import TransformHub.Lib.Transition

/-!
# Consistency of the register

The flat store of instances keeps to the inventory (`Indexed`) as long as the operations are tidy.
-/

namespace TransformHub.Manager.SthInfo

open OrderedMap

/-! ## The store of instances -/

namespace Inventory

/-- The instance is listed under the sequence of the hub. -/
def Lists (v : Inventory) (h : HostId) (s : SequenceId) (i : InstanceId) : Prop :=
  ∃ seqs e, v h = some seqs ∧ seqs s = some e ∧ i ∈ e.2

variable {v : Inventory} {h h' : HostId} {s s' : SequenceId} {i i' : InstanceId}

theorem lists_addHub : (v.apply (.addHub h)).Lists h' s' i' ↔ v.Lists h' s' i' := by
  by_cases hne : h = h'
  · subst hne
    cases hv : v h <;> simp [Lists, apply, hv]
  · simp [Lists, apply, hne]

theorem lists_removeHub : (v.apply (.removeHub h)).Lists h' s' i' ↔ h ≠ h' ∧ v.Lists h' s' i' := by
  by_cases hne : h = h' <;> simp [Lists, apply, hne]

theorem lists_clearHostEntities :
    (v.apply (.clearHostEntities h)).Lists h' s' i' ↔ h ≠ h' ∧ v.Lists h' s' i' := by
  by_cases hne : h = h' <;> simp [Lists, apply, update, hne]

theorem lists_addSequence {config : Option SequenceConfig} :
    (v.apply (.addSequence h s config)).Lists h' s' i' ↔ v.Lists h' s' i' := by
  by_cases hne : h = h'
  · subst hne
    by_cases hs : s = s'
    · subst hs
      cases hv : v h with
      | none => simp [Lists, apply, update, hv]
      | some seqs => cases hseq : seqs s <;> simp [Lists, apply, update, hv, hseq]
    · simp [Lists, apply, update, hs]
  · simp [Lists, apply, update, hne]

theorem lists_deleteSequence : (v.apply (.deleteSequence h s)).Lists h' s' i' ↔
    (h = h' → s ≠ s') ∧ v.Lists h' s' i' := by
  by_cases hne : h = h'
  · subst hne
    by_cases hs : s = s' <;> simp [Lists, apply, update, hs]
  · simp [Lists, apply, update, hne]

theorem lists_addInstance {inst : Instance} : (v.apply (.addInstance h inst)).Lists h' s' i' ↔
    v.Lists h' s' i' ∨ h = h' ∧ inst.sequence.id = s' ∧ inst.id = i' ∧
      ∃ seqs e, v h = some seqs ∧ seqs inst.sequence.id = some e := by
  by_cases hne : h = h'
  · subst hne
    by_cases hs : inst.sequence.id = s'
    · subst hs
      cases hv : v h with
      | none => simp [Lists, apply, update, hv]
      | some seqs =>
        cases hseq : seqs inst.sequence.id with
        | none => simp [Lists, apply, update, hv, hseq]
        | some e =>
          obtain ⟨config, is⟩ := e
          simp [Lists, apply, update, hv, hseq, eq_comm, or_comm]
    · simp [Lists, apply, update, hs]
  · simp [Lists, apply, update, hne]

theorem lists_deleteInstance : (v.apply (.deleteInstance h s i)).Lists h' s' i' ↔
    v.Lists h' s' i' ∧ ¬ (h = h' ∧ s = s' ∧ i = i') := by
  by_cases hne : h = h'
  · subst hne
    by_cases hs : s = s'
    · subst hs
      cases hv : v h with
      | none => simp [Lists, apply, update, hv]
      | some seqs =>
        cases hseq : seqs s with
        | none => simp [Lists, apply, update, hv, hseq]
        | some e =>
          obtain ⟨config, is⟩ := e
          simp only [Lists, apply, update, hv, hseq, if_true, Option.map_some, Option.some.injEq,
            exists_and_left, exists_eq_left', Set.mem_sdiff, Set.mem_singleton_iff, true_and]
          exact and_congr_right fun _ => not_congr eq_comm
    · simp [Lists, apply, update, hs]
  · simp [Lists, apply, update, hne]

end Inventory

namespace STHInfoRegister

def Listed (r : STHInfoRegister) (h : HostId) (i : InstanceId) : Prop := ∃ s, r.view.Lists h s i

/-- The store of instances holds the pairs of a hub and an instance that are listed, and no two
pairs share an entry. -/
structure Indexed (r : STHInfoRegister) : Prop where
  stored : ∀ h i, r.Listed h i →
    ∃ record, r.instancesStore.get? (getInstanceStoreKey h i) = some record ∧ record.id = i
  listed : ∀ key record, r.instancesStore.get? key = some record →
    ∃ h i, r.Listed h i ∧ getInstanceStoreKey h i = key
  injective : ∀ h i h' i', r.Listed h i → r.Listed h' i' →
    getInstanceStoreKey h i = getInstanceStoreKey h' i' → h = h' ∧ i = i'

/-- A sequence is deleted only when none of its instances would be left without a sequence, an
instance is deleted only under the one sequence that lists it, and a new one does not get the key of
an instance of another hub. -/
def Tidy (r : STHInfoRegister) : Op → Prop
  | .deleteSequence h s => ∀ i, r.view.Lists h s i → ∃ s', s' ≠ s ∧ r.view.Lists h s' i
  | .deleteInstance h s i => r.view.Lists h s i → ∀ s', r.view.Lists h s' i → s' = s
  | .addInstance h inst => ∀ seqs e, r.view h = some seqs → seqs inst.sequence.id = some e →
      inst.id ∉ e.2 → ∀ h' i', r.Listed h' i' →
        getInstanceStoreKey h' i' = getInstanceStoreKey h inst.id → h' = h
  | _ => True

/-- What an operation leaves of the other hubs. -/
structure Spares (r r' : STHInfoRegister) (h : HostId) : Prop where
  hosts : ∀ h', h ≠ h' → r'.hostsMap.get? h' = r.hostsMap.get? h'
  sequences : ∀ h', h ≠ h' → r'.sequencesStore.get? h' = r.sequencesStore.get? h'
  instances : ∀ h' i, h ≠ h' → r.Listed h' i →
    r'.instancesStore.get? (getInstanceStoreKey h' i) =
      r.instancesStore.get? (getInstanceStoreKey h' i)

variable {r : STHInfoRegister}

theorem lists_iff {h : HostId} {s : SequenceId} {i : InstanceId} : r.view.Lists h s i ↔
    ∃ seqs is, r.hostsMap.get? h = some seqs ∧ seqs.get? s = some is ∧ is.has i = true := by
  constructor
  · rintro ⟨_, _, hseqs, he, hi⟩
    obtain ⟨seqs, hget, rfl⟩ := Option.map_eq_some_iff.mp hseqs
    obtain ⟨is, his, rfl⟩ := Option.map_eq_some_iff.mp he
    exact ⟨seqs, is, hget, his, hi⟩
  · rintro ⟨seqs, is, hget, his, hi⟩
    exact ⟨_, _, Option.map_eq_some_iff.mpr ⟨seqs, hget, rfl⟩,
      Option.map_eq_some_iff.mpr ⟨is, his, rfl⟩, hi⟩

theorem listed_iff {h : HostId} {i : InstanceId} : r.Listed h i ↔
    ∃ seqs s is, r.hostsMap.get? h = some seqs ∧ seqs.get? s = some is ∧ is.has i = true := by
  simp only [Listed, lists_iff]
  exact exists_comm

theorem get?_clearHostEntities (r : STHInfoRegister) (h : HostId) (key : String) :
    (∃ i, r.Listed h i ∧ getInstanceStoreKey h i = key) ∧
        (r.clearHostEntities h).instancesStore.get? key = none ∨
      (∀ i, r.Listed h i → getInstanceStoreKey h i ≠ key) ∧
        (r.clearHostEntities h).instancesStore.get? key = r.instancesStore.get? key := by
  unfold clearHostEntities
  cases hget : r.hostsMap.get? h with
  | none =>
    refine .inr ⟨fun i hi => ?_, rfl⟩
    obtain ⟨seqs, -, -, hseqs, -⟩ := listed_iff.mp hi
    rw [hget] at hseqs
    cases hseqs
  | some seqs =>
    have hmem : (key ∈ seqs.values.flatMap fun is => is.keys.map (getInstanceStoreKey h)) ↔
        ∃ i, r.Listed h i ∧ getInstanceStoreKey h i = key := by
      simp only [List.mem_flatMap, List.mem_map, mem_values_iff,
        mem_keys_iff, listed_iff, hget, Option.some.injEq, exists_and_left,
        exists_eq_left', has]
      constructor
      · rintro ⟨is, ⟨s, his⟩, i, hi, hkey⟩
        exact ⟨i, ⟨s, is, his, hi⟩, hkey⟩
      · rintro ⟨i, ⟨s, is, his, hi⟩, hkey⟩
        exact ⟨is, ⟨s, his⟩, i, hi, hkey⟩
    dsimp only
    rw [get?_deleteAll]
    split_ifs with hkey
    · exact .inl ⟨hmem.mp hkey, rfl⟩
    · exact .inr ⟨fun i hi heq => hkey (hmem.mpr ⟨i, hi, heq⟩), rfl⟩

/-! ### What an operation does to the store -/

section

variable {r' : STHInfoRegister} (hi : r.Indexed)
include hi

theorem Indexed.congr (hlisted : ∀ h i, r'.Listed h i ↔ r.Listed h i)
    (hstore : r'.instancesStore = r.instancesStore) : r'.Indexed where
  stored := fun h i hl => by
    rw [hstore]
    exact hi.stored h i ((hlisted h i).mp hl)
  listed := fun key record hget => by
    rw [hstore] at hget
    obtain ⟨h, i, hl, hkey⟩ := hi.listed key record hget
    exact ⟨h, i, (hlisted h i).mpr hl, hkey⟩
  injective := fun h i h' i' hl hl' =>
    hi.injective h i h' i' ((hlisted h i).mp hl) ((hlisted h' i').mp hl')

theorem Indexed.clear (h : HostId)
    (hlisted : ∀ h' i, r'.Listed h' i ↔ h ≠ h' ∧ r.Listed h' i)
    (hstore : r'.instancesStore = (r.clearHostEntities h).instancesStore) : r'.Indexed where
  stored := fun h' i hl => by
    obtain ⟨hne, hl⟩ := (hlisted h' i).mp hl
    rw [hstore]
    rcases r.get?_clearHostEntities h (getInstanceStoreKey h' i) with ⟨⟨j, hj, hkey⟩, -⟩ | ⟨-, heq⟩
    · exact absurd (hi.injective h j h' i hj hl hkey).1 hne
    · rw [heq]
      exact hi.stored h' i hl
  listed := fun key record hget => by
    rw [hstore] at hget
    rcases r.get?_clearHostEntities h key with ⟨-, hnone⟩ | ⟨hnot, heq⟩
    · rw [hnone] at hget
      cases hget
    · rw [heq] at hget
      obtain ⟨h', i, hl, hkey⟩ := hi.listed key record hget
      refine ⟨h', i, (hlisted h' i).mpr ⟨?_, hl⟩, hkey⟩
      rintro rfl
      exact hnot i hl hkey
  injective := fun h' i h'' i' hl hl' =>
    hi.injective h' i h'' i' ((hlisted h' i).mp hl).2 ((hlisted h'' i').mp hl').2

theorem Indexed.add {h : HostId} (record : Instance)
    (hfree : ∀ h' i', r.Listed h' i' →
      getInstanceStoreKey h' i' = getInstanceStoreKey h record.id → h' = h)
    (hlisted : ∀ h' i', r'.Listed h' i' ↔ r.Listed h' i' ∨ h = h' ∧ record.id = i')
    (hstore : r'.instancesStore = r.instancesStore.set (getInstanceStoreKey h record.id) record) :
    r'.Indexed where
  stored := fun h' i' hl => by
    rw [hstore, get?_set]
    rcases (hlisted h' i').mp hl with hl | ⟨rfl, rfl⟩
    · split_ifs with hkey
      · obtain rfl := hfree h' i' hl hkey.symm
        exact ⟨record, rfl, getInstanceStoreKey_injective hkey⟩
      · exact hi.stored h' i' hl
    · rw [if_pos rfl]
      exact ⟨record, rfl, rfl⟩
  listed := fun key record' hget => by
    rw [hstore, get?_set] at hget
    split_ifs at hget with hkey
    · exact ⟨h, record.id, (hlisted h record.id).mpr (.inr ⟨rfl, rfl⟩), hkey⟩
    · obtain ⟨h', i', hl, hkey'⟩ := hi.listed key record' hget
      exact ⟨h', i', (hlisted h' i').mpr (.inl hl), hkey'⟩
  injective := fun h' i' h'' i'' hl hl' hkey => by
    rcases (hlisted h' i').mp hl with hl | ⟨rfl, rfl⟩
    · rcases (hlisted h'' i'').mp hl' with hl' | ⟨rfl, rfl⟩
      · exact hi.injective h' i' h'' i'' hl hl' hkey
      · obtain rfl := hfree h' i' hl hkey
        exact ⟨rfl, getInstanceStoreKey_injective hkey⟩
    · rcases (hlisted h'' i'').mp hl' with hl' | ⟨rfl, rfl⟩
      · obtain rfl := hfree h'' i'' hl' hkey.symm
        exact ⟨rfl, getInstanceStoreKey_injective hkey⟩
      · exact ⟨rfl, rfl⟩

theorem Indexed.remove {h : HostId} {i : InstanceId}
    (hl : r.Listed h i) (hlisted : ∀ h' i', r'.Listed h' i' ↔ r.Listed h' i' ∧ ¬ (h = h' ∧ i = i'))
    (hstore : r'.instancesStore = r.instancesStore.delete (getInstanceStoreKey h i)) :
    r'.Indexed where
  stored := fun h' i' hl' => by
    obtain ⟨hl', hne⟩ := (hlisted h' i').mp hl'
    rw [hstore, get?_delete_of_ne]
    · exact hi.stored h' i' hl'
    · exact fun hkey => hne (hi.injective h i h' i' hl hl' hkey)
  listed := fun key record hget => by
    rw [hstore, get?_delete] at hget
    split_ifs at hget with hkey
    obtain ⟨h', i', hl', hkey'⟩ := hi.listed key record hget
    refine ⟨h', i', (hlisted h' i').mpr ⟨hl', ?_⟩, hkey'⟩
    rintro ⟨rfl, rfl⟩
    exact hkey hkey'
  injective := fun h' i' h'' i'' hl hl' =>
    hi.injective h' i' h'' i'' ((hlisted h' i').mp hl).1 ((hlisted h'' i'').mp hl').1

end

theorem listed_apply (hr : r.Records) (a : Op) {h : HostId} {i : InstanceId} :
    (r.apply a).Listed h i ↔ ∃ s, (r.view.apply a).Lists h s i := by
  rw [Listed, view_apply hr]

theorem addInstance_store (r : STHInfoRegister) (h : HostId) (inst : Instance) :
    (∃ seqs e, r.view h = some seqs ∧ seqs inst.sequence.id = some e ∧ inst.id ∉ e.2 ∧
        (r.apply (.addInstance h inst)).instancesStore =
          r.instancesStore.set (getInstanceStoreKey h inst.id) (r.withAggregationMetadata h inst)) ∨
      r.apply (.addInstance h inst) = r ∧
        ∀ seqs e, r.view h = some seqs → seqs inst.sequence.id = some e → inst.id ∈ e.2 := by
  simp only [apply, addInstance]
  cases hget : r.hostsMap.get? h with
  | none => exact .inr ⟨rfl, fun seqs e hseqs => by simp [view, hget] at hseqs⟩
  | some seqs =>
    dsimp only
    cases his : seqs.get? inst.sequence.id with
    | none =>
      refine .inr ⟨rfl, fun seqs' e hseqs he => ?_⟩
      simp only [view, hget, Option.map_some, Option.some.injEq] at hseqs
      subst hseqs
      obtain ⟨is, his', -⟩ := Option.map_eq_some_iff.mp he
      rw [his] at his'
      cases his'
    | some is =>
      dsimp only
      split_ifs with hhas
      · refine .inr ⟨rfl, fun seqs' e hseqs he => ?_⟩
        simp only [view, hget, Option.map_some, Option.some.injEq] at hseqs
        subst hseqs
        obtain ⟨is', his', rfl⟩ := Option.map_eq_some_iff.mp he
        rw [his, Option.some.injEq] at his'
        exact his' ▸ hhas
      · refine .inl ⟨_, ((r.record? h inst.sequence.id).map (·.config), {i | is.has i = true}),
          by rw [view, hget, Option.map_some], ?_, hhas, rfl⟩
        exact Option.map_eq_some_iff.mpr ⟨is, his, rfl⟩

theorem deleteInstance_store (r : STHInfoRegister) (h : HostId) (s : SequenceId)
    (i : InstanceId) :
    r.view.Lists h s i ∧ (r.apply (.deleteInstance h s i)).instancesStore =
        r.instancesStore.delete (getInstanceStoreKey h i) ∨
      r.apply (.deleteInstance h s i) = r := by
  simp only [apply, deleteInstance]
  cases hget : r.hostsMap.get? h with
  | none => exact .inr rfl
  | some seqs =>
    dsimp only
    cases his : seqs.get? s with
    | none => exact .inr rfl
    | some is =>
      dsimp only
      split_ifs with hhas
      · refine .inl ⟨⟨_, ((r.record? h s).map (·.config), {i | is.has i = true}),
          by rw [view, hget, Option.map_some], ?_, hhas⟩, rfl⟩
        exact Option.map_eq_some_iff.mpr ⟨is, his, rfl⟩
      · exact .inr rfl

theorem Indexed.apply (hi : r.Indexed) (hr : r.Records) {a : Op} (ha : r.Tidy a) :
    (r.apply a).Indexed := by
  cases a with
  | addHub h =>
    refine hi.congr (fun h' i => ?_) ?_
    · rw [listed_apply hr]
      simp only [Inventory.lists_addHub, Listed]
    · simp only [STHInfoRegister.apply, addHub]
      split_ifs <;> rfl
  | removeHub h =>
    refine hi.clear h (fun h' i => ?_) rfl
    rw [listed_apply hr]
    simp only [Inventory.lists_removeHub, Listed, exists_and_left]
  | clearHostEntities h =>
    refine hi.clear h (fun h' i => ?_) rfl
    rw [listed_apply hr]
    simp only [Inventory.lists_clearHostEntities, Listed, exists_and_left]
  | addSequence h s config =>
    refine hi.congr (fun h' i => ?_) ?_
    · rw [listed_apply hr]
      simp only [Inventory.lists_addSequence, Listed]
    · simp only [STHInfoRegister.apply, addSequence]
      repeat' split
      all_goals rfl
  | deleteSequence h s =>
    refine hi.congr (fun h' i => ?_) rfl
    rw [listed_apply hr]
    simp only [Inventory.lists_deleteSequence, Listed]
    refine ⟨Exists.imp fun _ => And.right, ?_⟩
    rintro ⟨s', hl⟩
    -- an instance of the sequence is listed under another one
    by_cases hs : h = h' ∧ s = s'
    · obtain ⟨rfl, rfl⟩ := hs
      obtain ⟨s'', hne, hl'⟩ := ha i hl
      exact ⟨s'', fun _ => hne.symm, hl'⟩
    · exact ⟨s', fun hh hs' => hs ⟨hh, hs'⟩, hl⟩
  | addInstance h inst =>
    rcases r.addInstance_store h inst with ⟨seqs, e, hseqs, he, hnew, hstore⟩ | ⟨hsame, -⟩
    · refine hi.add (r.withAggregationMetadata h inst) (ha seqs e hseqs he hnew)
        (fun h' i' => ?_) hstore
      rw [listed_apply hr]
      simp only [Inventory.lists_addInstance, Listed, exists_or]
      refine or_congr_right ⟨?_, ?_⟩
      · rintro ⟨s', rfl, -, hid, -⟩
        exact ⟨rfl, hid⟩
      · rintro ⟨rfl, hid⟩
        exact ⟨_, rfl, rfl, hid, seqs, e, hseqs, he⟩
    · rw [hsame]
      exact hi
  | deleteInstance h s i =>
    rcases r.deleteInstance_store h s i with ⟨hl, hstore⟩ | hsame
    · refine hi.remove ⟨s, hl⟩ (fun h' i' => ?_) hstore
      rw [listed_apply hr]
      simp only [Inventory.lists_deleteInstance, Listed]
      constructor
      · rintro ⟨s', hl', hne⟩
        refine ⟨⟨s', hl'⟩, ?_⟩
        rintro ⟨rfl, rfl⟩
        exact hne ⟨rfl, (ha hl s' hl').symm, rfl⟩
      · rintro ⟨⟨s', hl'⟩, hne⟩
        exact ⟨s', hl', fun hall => hne ⟨hall.1, hall.2.2⟩⟩
    · rw [hsame]
      exact hi

theorem spares_apply (hi : r.Indexed) {a : Op} (ha : r.Tidy a) : r.Spares (r.apply a) a.host := by
  refine ⟨fun h' hne => (r.apply_of_ne a hne).1, fun h' hne => (r.apply_of_ne a hne).2,
    fun h' j hne hl => ?_⟩
  have hclear : (r.clearHostEntities a.host).instancesStore.get? (getInstanceStoreKey h' j) =
      r.instancesStore.get? (getInstanceStoreKey h' j) := by
    rcases r.get?_clearHostEntities a.host (getInstanceStoreKey h' j) with
      ⟨⟨i, hli, hkey⟩, -⟩ | ⟨-, heq⟩
    · exact absurd (hi.injective _ i h' j hli hl hkey).1 hne
    · exact heq
  cases a with
  | addHub h =>
    simp only [STHInfoRegister.apply, addHub]
    split_ifs <;> rfl
  | removeHub h | clearHostEntities h => exact hclear
  | addSequence h s config =>
    simp only [STHInfoRegister.apply, addSequence]
    repeat' split
    all_goals rfl
  | deleteSequence h s => rfl
  | addInstance h inst =>
    rcases r.addInstance_store h inst with ⟨seqs, e, hseqs, he, hnew, hstore⟩ | ⟨hsame, -⟩
    · rw [hstore, get?_set_of_ne]
      exact fun hkey => hne (ha seqs e hseqs he hnew h' j hl hkey.symm).symm
    · rw [hsame]
  | deleteInstance h s i =>
    rcases r.deleteInstance_store h s i with ⟨hli, hstore⟩ | hsame
    · rw [hstore, get?_delete_of_ne]
      exact fun hkey => hne (hi.injective h i h' j ⟨s, hli⟩ hl hkey).1
    · rw [hsame]

end STHInfoRegister

/-! ## Runs -/

/-- The register and its inventory, under the same operation. -/
def next (s : STHInfoRegister × Inventory) (a : Op) : STHInfoRegister × Inventory :=
  (s.1.apply a, s.2.apply a)

def system : System (STHInfoRegister × Inventory) Op := .ofFun (.empty, fun _ => none) next

structure Consistent (s : STHInfoRegister × Inventory) : Prop where
  view : s.1.view = s.2
  records : s.1.Records
  indexed : s.1.Indexed

theorem consistent_start : Consistent (.empty, fun _ => none) where
  view := rfl
  records := ⟨nofun, nofun⟩
  indexed :=
    { stored := by
        rintro h i ⟨s, seqs, e, hf, -⟩
        cases hf
      listed := nofun
      injective := by
        rintro h i h' i' ⟨s, seqs, e, hf, -⟩
        cases hf }

variable {s : STHInfoRegister × Inventory}

theorem records_reachable {ok : STHInfoRegister × Inventory → Op → Prop}
    (h : system.Reachable ok s) : s.1.view = s.2 ∧ s.1.Records := by
  refine h.invariant_ofFun (I := fun s => s.1.view = s.2 ∧ s.1.Records)
    ⟨rfl, consistent_start.records⟩ fun s a hs _ => ?_
  exact ⟨(STHInfoRegister.view_apply hs.2 a).trans (congrArg (Inventory.apply · a) hs.1),
    hs.2.apply a⟩

/-- As long as the operations are tidy, the register agrees with its inventory, and an operation on
a hub leaves the other hubs. -/
theorem consistent_of_tidy (h : system.Reachable (fun s a => s.1.Tidy a) s) :
    Consistent s ∧ ∀ a, s.1.Tidy a → s.1.Spares (s.1.apply a) a.host := by
  obtain ⟨hview, hrecords⟩ := records_reachable h
  have hindexed : s.1.Indexed := by
    refine h.invariant (I := fun s => s.1.Indexed) ?_ fun s a s' hr hi ha hs => ?_
    · rintro s rfl
      exact consistent_start.indexed
    · subst hs
      exact hi.apply (records_reachable hr).2 ha
  exact ⟨⟨hview, hrecords, hindexed⟩, fun a ha => STHInfoRegister.spares_apply hindexed ha⟩

/-- After any operations, the queries about a hub answer by the inventory of the same operations. -/
theorem queries_by_inventory (ops : List Op) (h : HostId) :
    let s := ops.foldl next (.empty, fun _ => none)
    (s.2 h = none →
      ∃ e, s.1.getSequencesByHub h = .error e ∧ s.1.getInstancesByHub h = .error e) ∧
    ∀ seqs, s.2 h = some seqs → ∃ ids is, s.1.getSequencesByHub h = .ok ids ∧
      s.1.getInstancesByHub h = .ok is ∧ (∀ id, id ∈ ids ↔ (seqs id).isSome) ∧
        ∀ i, i ∈ is ↔ ∃ id e, seqs id = some e ∧ i ∈ e.2 := by
  intro s
  have hview : s.1.view = s.2 := (records_reachable (System.reachable_foldl ops)).1
  rw [← hview]
  unfold STHInfoRegister.view STHInfoRegister.getSequencesByHub STHInfoRegister.getInstancesByHub
  cases s.1.hostsMap.get? h with
  | none => exact ⟨fun _ => ⟨_, rfl, rfl⟩, fun seqs hseqs => by cases hseqs⟩
  | some sequencesMap =>
    refine ⟨fun hnone => (by cases hnone), fun seqs hseqs => ?_⟩
    cases hseqs
    refine ⟨_, _, rfl, rfl, fun id => ?_, fun i => ?_⟩
    · rw [mem_keys_iff, Option.isSome_map]
    · simp only [List.mem_flatMap, mem_values_iff, mem_keys_iff]
      constructor
      · rintro ⟨instancesSet, ⟨id, hget⟩, hi⟩
        exact ⟨id, (_, {i | instancesSet.has i = true}), by rw [hget]; rfl, hi⟩
      · rintro ⟨id, e, he, hi⟩
        obtain ⟨instancesSet, hget, rfl⟩ := Option.map_eq_some_iff.mp he
        exact ⟨instancesSet, ⟨id, hget⟩, hi⟩

/-! ## Two runs -/

section Sample

/-- A test for `Tidy`, when the store keeps to what is listed. -/
def tidyTest (s : STHInfoRegister × Inventory) : Op → Bool
  | .addInstance h inst => (s.1.instancesStore.get? (getInstanceStoreKey h inst.id)).isNone
  | .deleteSequence h seqId => (s.1.instances? h seqId).all fun is => is.keys = []
  | .deleteInstance h seqId _ => (s.1.hostsMap.get? h).all fun seqs => seqs.keys = [seqId]
  | _ => true

theorem tidyTest_sound {s : STHInfoRegister × Inventory} {a : Op} (hi : s.1.Indexed)
    (h : tidyTest s a = true) : s.1.Tidy a := by
  cases a with
  | addInstance host inst =>
    intro _ _ _ _ _ h' i' hl hkey
    obtain ⟨record, hget, -⟩ := hi.stored h' i' hl
    rw [hkey] at hget
    simp [tidyTest, hget] at h
  | deleteSequence host seqId =>
    intro i hl
    obtain ⟨seqs, is, hget, his, hhas⟩ := STHInfoRegister.lists_iff.mp hl
    simp only [tidyTest, STHInfoRegister.instances?, hget, his, Option.bind_some, Option.all_some,
      decide_eq_true_eq] at h
    have hmem : i ∈ is.keys := mem_keys_iff.mpr hhas
    rw [h] at hmem
    cases hmem
  | deleteInstance host seqId i =>
    intro _ s' hl
    obtain ⟨seqs, is, hget, his, -⟩ := STHInfoRegister.lists_iff.mp hl
    simp only [tidyTest, hget, Option.all_some, decide_eq_true_eq] at h
    have hmem : s' ∈ seqs.keys := mem_keys_iff.mpr (Option.isSome_iff_exists.mpr ⟨is, his⟩)
    rw [h] at hmem
    exact List.mem_singleton.mp hmem
  | _ => trivial

def sampleInstance (i : InstanceId) (s : SequenceId) : Instance where
  id := i
  sequence := ⟨s, none, none⟩
  hubId := none
  location := none
  sequenceId := none

/-- Two hubs use the same ids; one of them lets go of its instance and its sequence. -/
def tidyOps : List Op :=
  [.addHub "a", .addHub "b", .addSequence "a" "s" (some ⟨none, none⟩), .addSequence "b" "s" none,
    .addInstance "a" (sampleInstance "i" "s"), .addInstance "b" (sampleInstance "i" "s"),
    .deleteInstance "a" "s" "i", .deleteSequence "a" "s"]

/-- A sequence is deleted while it has an instance. -/
def orphanOps : List Op :=
  [.addHub "a", .addSequence "a" "s" none, .addInstance "a" (sampleInstance "i" "s"),
    .deleteSequence "a" "s"]

theorem tidyOps_consistent : Consistent (tidyOps.foldl next (.empty, fun _ => none)) := by
  refine (consistent_of_tidy ?_).1
  refine System.Reachable.of_checks_while (I := fun s => s.1.Indexed ∧ s.1.Records)
    (fun s a hs ha => ⟨hs.1.apply hs.2 (tidyTest_sound hs.1 ha), hs.2.apply a⟩)
    (fun s a hs ha => tidyTest_sound hs.1 ha) (.init rfl)
    ⟨consistent_start.indexed, consistent_start.records⟩ tidyOps ?_
  decide +kernel

/-- The instance of a sequence that is deleted stays in the store. -/
theorem orphanOps_not_consistent : ¬ ∀ s, system.Reachable System.anyStep s → Consistent s := by
  intro hall
  have hindexed := (hall _ (System.reachable_foldl orphanOps)).indexed
  have hget : (orphanOps.foldl next (.empty, fun _ => none)).1.instancesStore.get? "a:i" =
      some { sampleInstance "i" "s" with
        hubId := some "a", location := some "a", sequenceId := some "s"
        sequence := ⟨"s", some "s", some "a"⟩ } := by
    decide +kernel
  obtain ⟨h, i, hl, -⟩ := hindexed.listed _ _ hget
  obtain ⟨seqs, s, is, hseqs, his, -⟩ := STHInfoRegister.listed_iff.mp hl
  have hentries : (orphanOps.foldl next (.empty, fun _ => none)).1.hostsMap.entries =
      [("a", .empty)] := by
    rfl
  have hmem := mem_entries_iff.mpr hseqs
  rw [hentries, List.mem_singleton, Prod.mk.injEq] at hmem
  obtain ⟨-, rfl⟩ := hmem
  cases his

end Sample

end TransformHub.Manager.SthInfo
