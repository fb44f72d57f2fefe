import Mathlib.Order.BooleanAlgebra.Set
import TransformHub.Manager.SthInfoRegister

/-!
# The inventory of the register

What the register is about is an `Inventory`: for each known hub its sequences, and their instances.
-/

namespace TransformHub.Manager.SthInfo

open OrderedMap

/-! ## The inventory -/

/-- For each known hub its sequences, with the configuration that they were added with and their
instances. -/
abbrev Inventory := HostId → Option (SequenceId → Option (Option SequenceConfig × Set InstanceId))

namespace Inventory

/-- The sequences of a known hub are replaced. -/
def update (v : Inventory) (h : HostId)
    (f : (SequenceId → Option (Option SequenceConfig × Set InstanceId)) →
      SequenceId → Option (Option SequenceConfig × Set InstanceId)) : Inventory :=
  fun h' => if h = h' then (v h').map f else v h'

def apply (v : Inventory) : Op → Inventory
  | .addHub h => fun h' => if h = h' then some ((v h').getD fun _ => none) else v h'
  | .removeHub h => fun h' => if h = h' then none else v h'
  | .addSequence h s config => v.update h fun seqs s' =>
    if s = s' then some ((seqs s').getD (config, ∅)) else seqs s'
  | .deleteSequence h s => v.update h fun seqs s' => if s = s' then none else seqs s'
  | .addInstance h inst => v.update h fun seqs s' =>
    if inst.sequence.id = s' then (seqs s').map fun e => (e.1, insert inst.id e.2) else seqs s'
  | .deleteInstance h s i => v.update h fun seqs s' =>
    if s = s' then (seqs s').map fun e => (e.1, e.2 \ {i}) else seqs s'
  | .clearHostEntities h => v.update h fun _ _ => none

end Inventory

variable {h : HostId}

theorem Inventory.apply_of_ne (v : Inventory) (a : Op) (hne : a.host ≠ h) : v.apply a h = v h := by
  cases a <;> simp only [Op.host] at hne <;> simp [Inventory.apply, Inventory.update, hne]

namespace STHInfoRegister

def instances? (r : STHInfoRegister) (h : HostId) (s : SequenceId) : Option InstancesSet :=
  (r.hostsMap.get? h).bind (·.get? s)

def view (r : STHInfoRegister) : Inventory := fun h =>
  (r.hostsMap.get? h).map fun sequencesMap s =>
    (sequencesMap.get? s).map fun instancesSet =>
      ((r.record? h s).map (·.config), {i | instancesSet.has i = true})

/-- The records of a hub's sequences: each belongs to a sequence that is listed, with the instances
that are listed for it, once. -/
structure Records (r : STHInfoRegister) : Prop where
  nodup : ∀ h infos, r.sequencesStore.get? h = some infos → (infos.map (·.id)).Nodup
  listed : ∀ h infos info, r.sequencesStore.get? h = some infos → info ∈ infos →
    info.location = h ∧ info.instances.Nodup ∧ ∃ instancesSet,
      r.instances? h info.id = some instancesSet ∧
        ∀ i, i ∈ info.instances ↔ instancesSet.has i = true

end STHInfoRegister

/-! ## Lists of records -/

section Records

variable {infos : List SequenceInfo} {s : SequenceId} {f : List InstanceId → List InstanceId}

@[simp] theorem map_id_updateSequence : (updateSequence s f infos).map (·.id) = infos.map (·.id) := by
  induction infos with
  | nil => rfl
  | cons info infos ih =>
    rw [updateSequence]
    split_ifs
    · rfl
    · rw [List.map_cons, ih, List.map_cons]

theorem find?_config_updateSequence (s' : SequenceId) :
    ((updateSequence s f infos).find? fun info => info.id = s').map (·.config) =
      (infos.find? fun info => info.id = s').map (·.config) := by
  induction infos with
  | nil => rfl
  | cons info infos ih =>
    rw [updateSequence]
    split_ifs with hs
    · by_cases hs' : info.id = s' <;> simp [hs']
    · by_cases hs' : info.id = s' <;> simp [hs', ih]

theorem mem_updateSequence (hnodup : (infos.map (·.id)).Nodup) {info : SequenceInfo}
    (h : info ∈ updateSequence s f infos) :
    info ∈ infos ∧ info.id ≠ s ∨
      ∃ old ∈ infos, old.id = s ∧ info = { old with instances := f old.instances } := by
  induction infos with
  | nil => cases h
  | cons head infos ih =>
    rw [List.map_cons, List.nodup_cons] at hnodup
    rw [updateSequence] at h
    split_ifs at h with hs
    · rcases List.mem_cons.mp h with rfl | hmem
      · exact .inr ⟨head, List.mem_cons_self, hs, rfl⟩
      -- the other records are of other sequences
      · refine .inl ⟨List.mem_cons_of_mem _ hmem, fun hid => hnodup.1 ?_⟩
        rw [hs, ← hid]
        exact List.mem_map_of_mem hmem
    · rcases List.mem_cons.mp h with rfl | hmem
      · exact .inl ⟨List.mem_cons_self, hs⟩
      · rcases ih hnodup.2 hmem with ⟨hold, hid⟩ | ⟨old, hold, hid, heq⟩
        · exact .inl ⟨List.mem_cons_of_mem _ hold, hid⟩
        · exact .inr ⟨old, List.mem_cons_of_mem _ hold, hid, heq⟩

end Records

namespace STHInfoRegister

variable {r : STHInfoRegister}

theorem instances?_eq_some {s : SequenceId} {is : InstancesSet} :
    r.instances? h s = some is ↔
      ∃ seqs, r.hostsMap.get? h = some seqs ∧ seqs.get? s = some is :=
  Option.bind_eq_some_iff

theorem Records.record?_eq_none (hr : r.Records) {s : SequenceId} (hnone : r.instances? h s = none) :
    r.record? h s = none := by
  rw [record?, List.find?_eq_none]
  intro info hmem hid
  cases hget : r.sequencesStore.get? h with
  | none =>
    rw [hget] at hmem
    cases hmem
  | some infos =>
    rw [hget] at hmem
    obtain ⟨-, -, is, his, -⟩ := hr.listed h infos info hget hmem
    rw [of_decide_eq_true hid, hnone] at his
    cases his

variable {r' : STHInfoRegister}

theorem record?_of_get? (hget : r'.sequencesStore.get? h = r.sequencesStore.get? h) (s : SequenceId) :
    r'.record? h s = r.record? h s := by
  rw [record?, hget, ← record?]

theorem view_of_get? (hhost : r'.hostsMap.get? h = r.hostsMap.get? h)
    (hget : r'.sequencesStore.get? h = r.sequencesStore.get? h) : r'.view h = r.view h := by
  simp only [view, hhost, record?_of_get? hget]

/-! ### Other hubs -/

theorem clearHostEntities_of_ne (r : STHInfoRegister) {h h' : HostId} (hne : h ≠ h') :
    (r.clearHostEntities h).hostsMap.get? h' = r.hostsMap.get? h' ∧
      (r.clearHostEntities h).sequencesStore.get? h' = r.sequencesStore.get? h' := by
  unfold clearHostEntities
  split
  · exact ⟨rfl, rfl⟩
  · exact ⟨get?_set_of_ne _ hne _, get?_delete_of_ne _ hne⟩

theorem updateRecord_of_ne (r : STHInfoRegister) {h h' : HostId} (hne : h ≠ h') (s : SequenceId)
    (f : List InstanceId → List InstanceId) :
    (r.updateRecord h s f).get? h' = r.sequencesStore.get? h' := by
  unfold updateRecord
  split
  · rfl
  · exact get?_set_of_ne _ hne _

theorem apply_of_ne (r : STHInfoRegister) (a : Op) (hne : a.host ≠ h) :
    (r.apply a).hostsMap.get? h = r.hostsMap.get? h ∧
      (r.apply a).sequencesStore.get? h = r.sequencesStore.get? h := by
  cases a with
  | addHub h' =>
    simp only [apply, addHub]
    split_ifs
    · exact ⟨rfl, rfl⟩
    · exact ⟨get?_set_of_ne _ hne _, rfl⟩
  | removeHub h' =>
    obtain ⟨hhost, hget⟩ := r.clearHostEntities_of_ne hne
    exact ⟨(get?_delete_of_ne _ hne).trans hhost, hget⟩
  | addSequence h' s config =>
    simp only [apply, addSequence]
    split
    · exact ⟨rfl, rfl⟩
    · split_ifs
      · exact ⟨rfl, rfl⟩
      · refine ⟨get?_set_of_ne _ hne _, ?_⟩
        cases config with
        | none => rfl
        | some config => exact get?_set_of_ne _ hne _
  | deleteSequence h' s =>
    constructor
    · simp only [apply, deleteSequence]
      split
      · rfl
      · exact get?_set_of_ne _ hne _
    · simp only [apply, deleteSequence]
      split
      · rfl
      · split_ifs
        · exact get?_delete_of_ne _ hne
        · exact get?_set_of_ne _ hne _
  | addInstance h' inst =>
    simp only [apply, addInstance]
    split
    · exact ⟨rfl, rfl⟩
    · split
      · exact ⟨rfl, rfl⟩
      · split_ifs
        · exact ⟨rfl, rfl⟩
        · exact ⟨get?_set_of_ne _ hne _, r.updateRecord_of_ne hne _ _⟩
  | deleteInstance h' s i =>
    simp only [apply, deleteInstance]
    split
    · exact ⟨rfl, rfl⟩
    · split
      · exact ⟨rfl, rfl⟩
      · split_ifs
        · exact ⟨get?_set_of_ne _ hne _, r.updateRecord_of_ne hne _ _⟩
        · exact ⟨rfl, rfl⟩
  | clearHostEntities h' => exact r.clearHostEntities_of_ne hne

/-! ### The hub of the operation -/

theorem view_addHub (r : STHInfoRegister) (h : HostId) :
    (r.addHub h).view h = some ((r.view h).getD fun _ => none) := by
  unfold addHub
  cases hget : r.hostsMap.get? h with
  | none =>
    have hnot : r.hostsMap.has h = false := by simp [has, hget]
    simp [hnot, view, hget]
  | some seqs =>
    have hhas : r.hostsMap.has h = true := by simp [has, hget]
    simp [hhas, view, hget]

theorem view_clearHostEntities (r : STHInfoRegister) (h : HostId) :
    (r.clearHostEntities h).view h = (r.view h).map fun _ _ => none := by
  unfold clearHostEntities
  cases hget : r.hostsMap.get? h with
  | none | some seqs => simp [view, hget]

theorem view_removeHub (r : STHInfoRegister) (h : HostId) : (r.removeHub h).view h = none := by
  simp [view, removeHub]

theorem record?_push (r : STHInfoRegister) (hosts : OrderedMap HostId SequencesMap) (h : HostId)
    (s s' : SequenceId) (config : SequenceConfig) :
    STHInfoRegister.record? ⟨hosts, r.sequencesStore.set h
      ((r.sequencesStore.get? h).getD [] ++ [⟨s, config, h, []⟩]), r.instancesStore⟩ h s' =
        (r.record? h s').or (if s = s' then some ⟨s, config, h, []⟩ else none) := by
  simp only [record?, get?_set_self, Option.getD_some, List.find?_append,
    List.find?_singleton, decide_eq_true_eq]

theorem view_addSequence (hr : r.Records) (h : HostId) (s : SequenceId)
    (config : Option SequenceConfig) :
    (r.addSequence h s config).view h = (r.view h).map fun seqs s' =>
      if s = s' then some ((seqs s').getD (config, ∅)) else seqs s' := by
  unfold addSequence
  cases hget : r.hostsMap.get? h with
  | none => simp [view, hget]
  | some seqs =>
    dsimp only
    split_ifs with hhas
    · obtain ⟨is, his⟩ := has_iff.mp hhas
      simp only [view, hget, Option.map_some, Option.some.injEq]
      funext s'
      split_ifs with hs
      · subst hs
        simp [his]
      · rfl
    · have hnone : seqs.get? s = none := by simpa [has] using hhas
      have hrecord : r.record? h s = none := hr.record?_eq_none (by simp [instances?, hget, hnone])
      simp only [view, hget, get?_set_self, Option.map_some, Option.some.injEq]
      funext s'
      rw [get?_set]
      by_cases hs : s = s'
      · subst hs
        rw [if_pos rfl, if_pos rfl, hnone]
        cases config with
        | none =>
          have hsame : STHInfoRegister.record? ⟨r.hostsMap.set h (seqs.set s .empty),
              r.sequencesStore, r.instancesStore⟩ h s = none := hrecord
          simp [hsame, has]
        | some config => simp [record?_push, hrecord, has]
      · rw [if_neg hs, if_neg hs]
        cases config with
        | none => rfl
        | some config => simp [record?_push, hs]

theorem view_deleteSequence (r : STHInfoRegister) (h : HostId) (s : SequenceId) :
    (r.deleteSequence h s).view h = (r.view h).map fun seqs s' =>
      if s = s' then none else seqs s' := by
  have hrecord : ∀ s', s ≠ s' → (r.deleteSequence h s).record? h s' = r.record? h s' := by
    intro s' hs
    unfold deleteSequence record?
    cases hget : r.sequencesStore.get? h with
    | none => simp [hget]
    | some infos =>
      have hfind : (infos.filter fun info => info.id ≠ s).find? (fun info => info.id = s') =
          infos.find? fun info => info.id = s' := by
        rw [List.find?_filter]
        congr 1
        funext info
        by_cases hid : info.id = s' <;> simp [hid, Ne.symm hs]
      dsimp only
      split_ifs with hnil
      · rw [get?_delete_self, Option.getD_some, ← hfind, hnil]
        rfl
      · rw [get?_set_self, Option.getD_some, Option.getD_some, hfind]
  cases hget : r.hostsMap.get? h with
  | none => simp [view, deleteSequence, hget]
  | some seqs =>
    have hset : (r.deleteSequence h s).hostsMap.get? h = some (seqs.delete s) := by
      simp [deleteSequence, hget]
    simp only [view, hset, hget, Option.map_some, Option.some.injEq]
    funext s'
    rw [get?_delete]
    split_ifs with hs
    · rfl
    · rw [hrecord s' hs]

theorem record?_updateRecord {s : SequenceId} {f : List InstanceId → List InstanceId}
    (hstore : r'.sequencesStore = r.updateRecord h s f) (s' : SequenceId) :
    (r'.record? h s').map (·.config) = (r.record? h s').map (·.config) := by
  unfold record?
  rw [hstore]
  unfold updateRecord
  cases hget : r.sequencesStore.get? h with
  | none => simp [hget]
  | some infos =>
    dsimp only
    rw [get?_set_self]
    exact find?_config_updateSequence s'

theorem view_addInstance (r : STHInfoRegister) (h : HostId) (inst : Instance) :
    ((r.addInstance h inst).toOption.getD r).view h = (r.view h).map fun seqs s' =>
      if inst.sequence.id = s' then (seqs s').map fun e => (e.1, insert inst.id e.2)
      else seqs s' := by
  unfold addInstance
  cases hget : r.hostsMap.get? h with
  | none => simp [view, hget, Except.toOption]
  | some seqs =>
    dsimp only
    cases his : seqs.get? inst.sequence.id with
    | none =>
      simp only [view, hget, Except.toOption, Option.getD_none, Option.map_some,
        Option.some.injEq]
      funext s'
      split_ifs with hs
      · subst hs
        simp [his]
      · rfl
    | some is =>
      dsimp only
      split_ifs with hhas
      · simp only [view, hget, Except.toOption, Option.getD_some, Option.map_some,
          Option.some.injEq]
        funext s'
        split_ifs with hs
        · subst hs
          simp [his, hhas]
        · rfl
      · simp only [view, hget, Except.toOption, Option.getD_some, get?_set_self,
          Option.map_some, Option.some.injEq]
        funext s'
        rw [get?_set, record?_updateRecord rfl]
        split_ifs with hs
        · subst hs
          simp only [Option.map_some, his, Option.some.injEq, Prod.mk.injEq, true_and]
          ext i
          simp only [has, get?_set, Set.mem_ofPred_eq, Set.mem_insert_iff]
          by_cases hi : inst.id = i
          · simp [hi]
          · simp [hi, Ne.symm hi]
        · rfl

theorem view_deleteInstance (r : STHInfoRegister) (h : HostId) (s : SequenceId)
    (i : InstanceId) :
    (r.deleteInstance h s i).view h = (r.view h).map fun seqs s' =>
      if s = s' then (seqs s').map fun e => (e.1, e.2 \ {i}) else seqs s' := by
  unfold deleteInstance
  cases hget : r.hostsMap.get? h with
  | none => simp [view, hget]
  | some seqs =>
    dsimp only
    cases his : seqs.get? s with
    | none =>
      simp only [view, hget, Option.map_some, Option.some.injEq]
      funext s'
      split_ifs with hs
      · subst hs
        simp [his]
      · rfl
    | some is =>
      dsimp only
      split_ifs with hhas
      · simp only [view, hget, get?_set_self, Option.map_some, Option.some.injEq]
        funext s'
        rw [get?_set, record?_updateRecord rfl]
        split_ifs with hs
        · subst hs
          simp only [Option.map_some, his, Option.some.injEq, Prod.mk.injEq, true_and]
          ext j
          simp only [has, get?_delete, Set.mem_ofPred_eq, Set.mem_sdiff,
            Set.mem_singleton_iff]
          by_cases hj : i = j
          · simp [hj]
          · simp [hj, Ne.symm hj]
        · rfl
      · simp only [view, hget, Option.map_some, Option.some.injEq]
        funext s'
        split_ifs with hs
        · subst hs
          have hdiff : {j | is.has j = true} \ {i} = {j | is.has j = true} :=
            Set.sdiff_singleton_eq_self hhas
          simp [his, hdiff]
        · rfl

theorem view_apply (hr : r.Records) (a : Op) : (r.apply a).view = r.view.apply a := by
  funext h
  by_cases hne : a.host = h
  · subst hne
    cases a with
    | addHub h => exact (r.view_addHub h).trans (if_pos rfl).symm
    | removeHub h => exact (r.view_removeHub h).trans (if_pos rfl).symm
    | addSequence h s config => exact (view_addSequence hr h s config).trans (if_pos rfl).symm
    | deleteSequence h s => exact (r.view_deleteSequence h s).trans (if_pos rfl).symm
    | addInstance h inst => exact (r.view_addInstance h inst).trans (if_pos rfl).symm
    | deleteInstance h s i => exact (r.view_deleteInstance h s i).trans (if_pos rfl).symm
    | clearHostEntities h => exact (r.view_clearHostEntities h).trans (if_pos rfl).symm
  · obtain ⟨hhost, hget⟩ := r.apply_of_ne a hne
    rw [view_of_get? hhost hget, Inventory.apply_of_ne _ _ hne]

/-! ### Records -/

theorem instances?_of_get? (hhost : r'.hostsMap.get? h = r.hostsMap.get? h) (s : SequenceId) :
    r'.instances? h s = r.instances? h s := by
  rw [instances?, hhost, ← instances?]

section

variable (hr : r.Records)
include hr

theorem Records.of_host (a : Op)
    (hhost : ∀ infos, (r.apply a).sequencesStore.get? a.host = some infos →
      (infos.map (·.id)).Nodup ∧ ∀ info ∈ infos, info.location = a.host ∧ info.instances.Nodup ∧
        ∃ is, (r.apply a).instances? a.host info.id = some is ∧
          ∀ i, i ∈ info.instances ↔ is.has i = true) : (r.apply a).Records := by
  constructor
  · intro h infos hget
    by_cases hne : a.host = h
    · subst hne
      exact (hhost infos hget).1
    · rw [(r.apply_of_ne a hne).2] at hget
      exact hr.nodup h infos hget
  · intro h infos info hget hmem
    by_cases hne : a.host = h
    · subst hne
      exact (hhost infos hget).2 info hmem
    · rw [(r.apply_of_ne a hne).2] at hget
      rw [instances?_of_get? (r.apply_of_ne a hne).1]
      exact hr.listed h infos info hget hmem

theorem Records.of_get? {seqs : SequencesMap}
    (hget : r.hostsMap.get? h = some seqs) {infos : List SequenceInfo}
    (hinfos : r.sequencesStore.get? h = some infos) {info : SequenceInfo} (hmem : info ∈ infos) :
    info.location = h ∧ info.instances.Nodup ∧ ∃ is, seqs.get? info.id = some is ∧
      ∀ i, i ∈ info.instances ↔ is.has i = true := by
  obtain ⟨hlocation, hnodup, is, his, hiff⟩ := hr.listed h infos info hinfos hmem
  rw [instances?, hget, Option.bind_some] at his
  exact ⟨hlocation, hnodup, is, his, hiff⟩

theorem Records.addHub (h : HostId) : (r.addHub h).Records := by
  unfold STHInfoRegister.addHub
  split_ifs with hhas
  · exact hr
  · refine ⟨hr.nodup, fun h' infos info hinfos hmem => ?_⟩
    obtain ⟨hlocation, hnodup, is, his, hiff⟩ := hr.listed h' infos info hinfos hmem
    refine ⟨hlocation, hnodup, is, ?_, hiff⟩
    obtain ⟨seqs, hget, hseq⟩ := instances?_eq_some.mp his
    refine instances?_eq_some.mpr ⟨seqs, ?_, hseq⟩
    rw [get?_set_of_ne]
    · exact hget
    · rintro rfl
      exact hhas (has_iff.mpr ⟨seqs, hget⟩)

theorem Records.clearHostEntities (h : HostId) : (r.clearHostEntities h).Records := by
  cases hget : r.hostsMap.get? h with
  | none =>
    simp only [STHInfoRegister.clearHostEntities, hget]
    exact hr
  | some seqs =>
    refine hr.of_host (.clearHostEntities h) fun infos hinfos => ?_
    simp only [apply, Op.host, STHInfoRegister.clearHostEntities, hget,
      get?_delete_self] at hinfos
    cases hinfos

theorem Records.removeHub (h : HostId) : (r.removeHub h).Records := by
  refine hr.of_host (.removeHub h) fun infos hinfos => ?_
  have hinfos : (r.clearHostEntities h).sequencesStore.get? h = some infos := hinfos
  cases hget : r.hostsMap.get? h with
  | none =>
    simp only [STHInfoRegister.clearHostEntities, hget] at hinfos
    refine ⟨hr.nodup h infos hinfos, fun info hmem => ?_⟩
    obtain ⟨-, -, is, his, -⟩ := hr.listed h infos info hinfos hmem
    rw [instances?, hget] at his
    cases his
  | some seqs =>
    simp only [STHInfoRegister.clearHostEntities, hget, get?_delete_self] at hinfos
    cases hinfos

theorem Records.addSequence (h : HostId) (s : SequenceId)
    (config : Option SequenceConfig) : (r.addSequence h s config).Records := by
  cases hget : r.hostsMap.get? h with
  | none =>
    simp only [STHInfoRegister.addSequence, hget]
    exact hr
  | some seqs =>
    by_cases hhas : seqs.has s = true
    · simp only [STHInfoRegister.addSequence, hget, hhas, if_true]
      exact hr
    · have hnone : seqs.get? s = none := by simpa [has] using hhas
      have hold : ∀ infos, r.sequencesStore.get? h = some infos →
          (infos.map (·.id)).Nodup ∧ ∀ info ∈ infos, info.location = h ∧ info.instances.Nodup ∧
            ∃ is, (seqs.set s .empty).get? info.id = some is ∧
              ∀ i, i ∈ info.instances ↔ is.has i = true := by
        intro infos hinfos
        refine ⟨hr.nodup h infos hinfos, fun info hmem => ?_⟩
        obtain ⟨hlocation, hnodup, is, his, hiff⟩ := hr.of_get? hget hinfos hmem
        refine ⟨hlocation, hnodup, is, ?_, hiff⟩
        rw [get?_set_of_ne]
        · exact his
        · rintro rfl
          rw [hnone] at his
          cases his
      refine hr.of_host (.addSequence h s config) fun infos hinfos => ?_
      have hinstances : ∀ s', (r.addSequence h s config).instances? h s' =
          (seqs.set s .empty).get? s' := by
        intro s'
        simp only [instances?, STHInfoRegister.addSequence, hget, if_neg hhas,
          get?_set_self, Option.bind_some]
      simp only [apply, Op.host, hinstances]
      simp only [apply, Op.host, STHInfoRegister.addSequence, hget, if_neg hhas] at hinfos
      cases config with
      | none => exact hold infos hinfos
      | some config =>
        dsimp only at hinfos
        rw [get?_set_self, Option.some.injEq] at hinfos
        subst hinfos
        cases hinfos : r.sequencesStore.get? h with
        | none => simp [has]
        | some infos =>
          obtain ⟨hnodup, hinfo⟩ := hold infos hinfos
          rw [Option.getD_some]
          constructor
          · rw [List.map_append, List.nodup_append]
            refine ⟨hnodup, List.nodup_singleton _, fun a ha b hb => ?_⟩
            -- the sequence is new
            rintro rfl
            obtain ⟨info, hmem, rfl⟩ := List.mem_map.mp ha
            obtain ⟨-, -, is, his, -⟩ := hr.of_get? hget hinfos hmem
            rw [List.mem_singleton.mp hb, hnone] at his
            cases his
          · intro info hmem
            rcases List.mem_append.mp hmem with hmem | hmem
            · exact hinfo info hmem
            · rw [List.mem_singleton.mp hmem]
              simp [has]

theorem Records.deleteSequence (h : HostId) (s : SequenceId) : (r.deleteSequence h s).Records := by
  refine hr.of_host (.deleteSequence h s) fun infos hinfos => ?_
  simp only [apply, Op.host, STHInfoRegister.deleteSequence] at hinfos
  cases hold : r.sequencesStore.get? h with
  | none =>
    rw [hold] at hinfos
    dsimp only at hinfos
    rw [hold] at hinfos
    cases hinfos
  | some old =>
    rw [hold] at hinfos
    dsimp only at hinfos
    split_ifs at hinfos with hnil
    · rw [get?_delete_self] at hinfos
      cases hinfos
    · rw [get?_set_self, Option.some.injEq] at hinfos
      subst hinfos
      refine ⟨(List.filter_sublist.map _).nodup (hr.nodup h old hold), fun info hmem => ?_⟩
      obtain ⟨hmem, hne⟩ := List.mem_filter.mp hmem
      obtain ⟨hlocation, hnodup, is, his, hiff⟩ := hr.listed h old info hold hmem
      refine ⟨hlocation, hnodup, is, ?_, hiff⟩
      obtain ⟨seqs, hget, hseq⟩ := instances?_eq_some.mp his
      simp only [instances?, apply, Op.host, STHInfoRegister.deleteSequence, hget,
        get?_set_self, Option.bind_some]
      rw [get?_delete_of_ne]
      · exact hseq
      · exact (Ne.symm (of_decide_eq_true hne))

theorem Records.update {s : SequenceId} {seqs : SequencesMap}
    {is is' : InstancesSet} {f : List InstanceId → List InstanceId}
    (hget : r.hostsMap.get? h = some seqs) (his : seqs.get? s = some is)
    (hnodup : ∀ xs : List InstanceId, xs.Nodup → (∀ i, i ∈ xs ↔ is.has i = true) → (f xs).Nodup)
    (hiff : ∀ xs : List InstanceId, (∀ i, i ∈ xs ↔ is.has i = true) → ∀ i, i ∈ f xs ↔ is'.has i = true)
    {infos : List SequenceInfo} (hinfos : (r.updateRecord h s f).get? h = some infos) :
    (infos.map (·.id)).Nodup ∧ ∀ info ∈ infos, info.location = h ∧ info.instances.Nodup ∧
      ∃ js, (seqs.set s is').get? info.id = some js ∧
        ∀ i, i ∈ info.instances ↔ js.has i = true := by
  unfold updateRecord at hinfos
  cases hold : r.sequencesStore.get? h with
  | none =>
    rw [hold] at hinfos
    dsimp only at hinfos
    rw [hold] at hinfos
    cases hinfos
  | some old =>
    rw [hold] at hinfos
    dsimp only at hinfos
    rw [get?_set_self, Option.some.injEq] at hinfos
    subst hinfos
    have hids := hr.nodup h old hold
    refine ⟨by rwa [map_id_updateSequence], fun info hmem => ?_⟩
    rcases mem_updateSequence hids hmem with ⟨hother, hne⟩ | ⟨before, hbefore, rfl, rfl⟩
    · obtain ⟨hlocation, hxs, js, hjs, hmem_iff⟩ := hr.of_get? hget hold hother
      refine ⟨hlocation, hxs, js, ?_, hmem_iff⟩
      rw [get?_set_of_ne _ (Ne.symm hne)]
      exact hjs
    · obtain ⟨hlocation, hxs, js, hjs, hmem_iff⟩ := hr.of_get? hget hold hbefore
      rw [his, Option.some.injEq] at hjs
      subst hjs
      exact ⟨hlocation, hnodup _ hxs hmem_iff, is', get?_set_self _ _ _,
        hiff _ hmem_iff⟩

theorem Records.addInstance (h : HostId) (inst : Instance) :
    ((r.addInstance h inst).toOption.getD r).Records := by
  cases hget : r.hostsMap.get? h with
  | none =>
    simp only [STHInfoRegister.addInstance, hget]
    exact hr
  | some seqs =>
    cases his : seqs.get? inst.sequence.id with
    | none =>
      simp only [STHInfoRegister.addInstance, hget, his]
      exact hr
    | some is =>
      by_cases hhas : is.has inst.id = true
      · simp only [STHInfoRegister.addInstance, hget, his, hhas, if_true]
        exact hr
      · refine hr.of_host (.addInstance h inst) fun infos hinfos => ?_
        simp only [apply, Op.host, STHInfoRegister.addInstance, hget, his, if_neg hhas,
          Except.toOption, Option.getD_some, instances?, get?_set_self,
          Option.bind_some] at hinfos ⊢
        refine hr.update hget his (fun xs hxs hiff => ?_) (fun xs hiff i => ?_) hinfos
        · rw [← List.concat_eq_append]
          refine hxs.concat ?_
          rw [hiff]
          exact hhas
        · rw [List.mem_append, List.mem_singleton, hiff, has, has,
            get?_set]
          by_cases hi : inst.id = i
          · simp [hi]
          · simp [hi, Ne.symm hi]

theorem Records.deleteInstance (h : HostId) (s : SequenceId) (i : InstanceId) :
    (r.deleteInstance h s i).Records := by
  cases hget : r.hostsMap.get? h with
  | none =>
    simp only [STHInfoRegister.deleteInstance, hget]
    exact hr
  | some seqs =>
    cases his : seqs.get? s with
    | none =>
      simp only [STHInfoRegister.deleteInstance, hget, his]
      exact hr
    | some is =>
      by_cases hhas : is.has i = true
      · refine hr.of_host (.deleteInstance h s i) fun infos hinfos => ?_
        simp only [apply, Op.host, STHInfoRegister.deleteInstance, hget, his, hhas, if_true,
          instances?, get?_set_self, Option.bind_some] at hinfos ⊢
        refine hr.update hget his (fun xs hxs _ => hxs.filter _) (fun xs hiff j => ?_) hinfos
        rw [List.mem_filter, hiff, has, has, get?_delete]
        by_cases hj : i = j
        · simp [hj]
        · simp [hj, Ne.symm hj]
      · simp only [STHInfoRegister.deleteInstance, hget, his, if_neg hhas]
        exact hr

theorem Records.apply (a : Op) : (r.apply a).Records := by
  cases a with
  | addHub h => exact hr.addHub h
  | removeHub h => exact hr.removeHub h
  | addSequence h s config => exact hr.addSequence h s config
  | deleteSequence h s => exact hr.deleteSequence h s
  | addInstance h inst => exact hr.addInstance h inst
  | deleteInstance h s i => exact hr.deleteInstance h s i
  | clearHostEntities h => exact hr.clearHostEntities h

end

end STHInfoRegister

end TransformHub.Manager.SthInfo
