import TransformHub.Manager.StorageQuota

/-!
# Runs within the quota

In a run in which every upload that passes the check fits and, on S3, at most one listed package has
a size, the size of the index is right and within the limit (`quota_kept_inQuota`).
-/

namespace TransformHub.Manager.StorageRouters

open StorageProxy (indexSize)

namespace StorageProxy

variable {s s' : StorageProxy} {config : ProxyConfig} {k : ℕ}

/-! ## Both stores -/

def Finds (s : StorageProxy) : Action → Prop
  | .takesEffect k | .settles k true => ∀ operation, s.HasOperation k operation →
      match operation with
      | .removing filename none => s.files.has filename = true
      | .clearing _ (item :: _) none => s.files.has item.id = true
      | _ => True
  | _ => True

/-- The same but for the files. -/
structure SameIndex (s s' : StorageProxy) : Prop where
  index : s'.index = s.index
  operations : s'.operations = s.operations
  writes : s'.writes = s.writes

section

variable (h : SameIndex s s')
include h

theorem SameIndex.setOperation (k : ℕ) (operation : Operation) :
    SameIndex (s.setOperation k operation) (s'.setOperation k operation) :=
  ⟨h.index, congrArg (fun operations => operations.set k operation) h.operations, h.writes⟩

theorem SameIndex.writeIndex (k : ℕ) : SameIndex (s.writeIndex k) (s'.writeIndex k) := by
  unfold StorageProxy.writeIndex
  rw [h.writes, h.index]
  exact ⟨h.index, (h.setOperation k _).operations, rfl⟩

theorem SameIndex.saveSequences (k : ℕ) {sequences : List SequenceInfo}
    (hone : OneSized sequences) :
    SameIndex (s.saveSequences .disk k sequences) (s'.saveSequences .s3 k sequences) := by
  have hsize : indexSize .s3 sequences = indexSize .disk sequences := by
    rw [indexSize_disk, indexSize_s3_eq_iff]
    exact hone
  unfold StorageProxy.saveSequences
  rw [hsize]
  have hchanged : SameIndex { s with index := ⟨sequences, indexSize .disk sequences⟩ }
      { s' with index := ⟨sequences, indexSize .disk sequences⟩ } := ⟨rfl, h.operations, h.writes⟩
  exact hchanged.writeIndex k

theorem SameIndex.effect (k : ℕ)
    (hfinds : ∀ operation, s.HasOperation k operation → match operation with
      | .removing filename none => s.files.has filename = true
      | .clearing _ (item :: _) none => s.files.has item.id = true
      | _ => True) : SameIndex (s.effect .disk k) (s'.effect .s3 k) := by
  unfold StorageProxy.effect
  rw [h.operations]
  split
  · exact ⟨h.index, (h.setOperation k _).operations, h.writes⟩
  · rename_i filename hk
    have hhas : s.files.has filename = true := hfinds _ hk
    have hdisk : (s.files.removeObject .disk filename).2 = true := hhas
    rw [hdisk]
    exact ⟨h.index, (h.setOperation k _).operations, h.writes⟩
  · rename_i results item items hk
    have hhas : s.files.has item.id = true := hfinds _ hk
    have hdisk : (s.files.removeObject .disk item.id).2 = true := hhas
    rw [hdisk]
    exact ⟨h.index, (h.setOperation k _).operations, h.writes⟩
  · exact h

theorem SameIndex.goOn (k : ℕ) (ok : Bool)
    (hone : OneSized (s'.goOn .s3 k ok).index.sequences) :
    SameIndex (s.goOn .disk k ok) (s'.goOn .s3 k ok) := by
  unfold StorageProxy.goOn at hone ⊢
  rw [h.operations, h.index] at hone ⊢
  cases hk : s.operations[k]? with
  | none =>
    rw [hk] at hone
    exact h
  | some operation =>
    rw [hk] at hone
    cases operation with
    | putting sequence stored =>
      cases ok with
      | true => exact h.saveSequences k hone
      | false => exact h.setOperation k .done
    | removing filename removed =>
      dsimp only at hone ⊢
      split
      · rename_i hremoved
        rw [if_pos hremoved] at hone
        split
        · rename_i hlength
          rw [if_pos hlength] at hone
          exact h.saveSequences k hone
        · exact ⟨rfl, (h.setOperation k .done).operations, h.writes⟩
      · exact h.setOperation k .done
    | clearing results items removed =>
      cases items with
      | nil => exact h.saveSequences k hone
      | cons item items =>
        dsimp only
        split <;> exact h.setOperation k _
    | identifying filename fileId | saving w | waiting | done => exact h

theorem SameIndex.land (w : ℕ) : SameIndex (s.land w) (s'.land w) := by
  unfold StorageProxy.land
  rw [h.writes]
  split
  · exact h
  · split
    · exact h
    · exact ⟨h.index, h.operations, rfl⟩

theorem SameIndex.next (bucketLimit : ℕ) (indexLength : SequenceIndex → ℕ)
    {a : Action} (hfinds : s.Finds a)
    (hone : OneSized (s'.next ⟨.s3, bucketLimit, indexLength⟩ a).index.sequences) :
    SameIndex (s.next ⟨.disk, bucketLimit, indexLength⟩ a)
      (s'.next ⟨.s3, bucketLimit, indexLength⟩ a) := by
  cases a with
  | upload filename fileId | delete filename =>
    exact ⟨h.index, congrArg (fun operations => operations ++ [_]) h.operations, h.writes⟩
  | clearIndex =>
    refine ⟨h.index, ?_, h.writes⟩
    show s'.operations ++ [.clearing [] s'.index.sequences none] = _
    rw [h.operations, h.index]
    rfl
  | identified k size =>
    show SameIndex (s.identified _ k size) (s'.identified _ k size)
    unfold identified
    rw [h.operations, h.index]
    split
    · exact h.setOperation k .done
    · dsimp only
      split
      · exact h.setOperation k .done
      · exact h.setOperation k _
    · exact h
  | takesEffect k => exact h.effect k hfinds
  | partlyTakesEffect k =>
    have hdisk : (s.partEffect .disk k).index = s.index ∧
        (s.partEffect .disk k).operations = s.operations ∧
        (s.partEffect .disk k).writes = s.writes := by
      unfold partEffect
      split <;> exact ⟨rfl, rfl, rfl⟩
    have hs3 : s'.partEffect .s3 k = s' := by
      unfold partEffect
      rfl
    show SameIndex (s.partEffect .disk k) (s'.partEffect .s3 k)
    rw [hs3]
    exact ⟨h.index.trans hdisk.1.symm, h.operations.trans hdisk.2.1.symm,
      h.writes.trans hdisk.2.2.symm⟩
  | settles k ok =>
    cases ok with
    | true => exact (h.effect k hfinds).goOn k true hone
    | false => exact h.goOn k false hone
  | lands w => exact h.land w
  | saveSettles k outcome =>
    show SameIndex (s.saveSettles k outcome) (s'.saveSettles k outcome)
    unfold saveSettles
    rw [h.operations]
    split
    · exact (h.land _).setOperation k .done
    · exact h.setOperation k .done
    · exact h.setOperation k .waiting
    · exact h
  | retries k =>
    show SameIndex (s.retries k) (s'.retries k)
    unfold retries
    rw [h.operations]
    split
    · exact h.writeIndex k
    · exact h

end

/-! ## Whole runs -/

/-- The index says the size of what it lists, and that is within the limit. -/
structure WithinQuota (config : ProxyConfig) (s : StorageProxy) : Prop where
  size : s.index.size = totalSize s.index.sequences
  limit : totalSize s.index.sequences ≤ config.bucketLimit

/-- An upload that passes the check fits, and on S3 at most one listed package has a size. -/
structure InQuota (config : ProxyConfig) (s : StorageProxy) (a : Action) : Prop where
  reserves : Reserves config s a
  oneSized : config.kind = .s3 → OneSized (s.next config a).index.sequences

theorem fits_new (limit : ℕ) : Fits limit new 0 :=
  ⟨Nat.zero_le _, nofun⟩

theorem withinQuota_of_inQuota (config : ProxyConfig) (actions : List Action)
    (h : System.Meets (fun s a => s.next config a) (InQuota config) new actions) :
    System.Always (fun s a => s.next config a) (WithinQuota config) new actions := by
  apply System.always_of_meets (I := fun s => Fits config.bucketLimit s 0 ∧ s.Sized config.kind)
    _ ⟨fits_new _, sized_new _⟩ _ actions h
  · rintro s a ⟨F, hsized⟩ - hok
    have F' := F.next hok.reserves
    have hsized' := hsized.next a
    refine ⟨⟨F', hsized'⟩, hsized'.eq_totalSize_iff.mpr hok.oneSized, ?_⟩
    have hlisted := F'.listed
    omega
  · exact ⟨rfl, Nat.zero_le _⟩

theorem sized_run (config : ProxyConfig) (actions : List Action) :
    (run config actions).Sized config.kind := by
  unfold run
  have hstart : new.Sized config.kind := sized_new config.kind
  generalize new = s at hstart ⊢
  induction actions generalizing s with
  | nil => exact hstart
  | cons a actions ih => exact ih _ (hstart.next a)

theorem sameIndex_foldl {bucketLimit : ℕ} {indexLength : SequenceIndex → ℕ}
    {actions : List Action} (h : SameIndex s s')
    (hfinds : System.Meets (fun s a => s.next ⟨.disk, bucketLimit, indexLength⟩ a) Finds s actions)
    (hquota : System.Meets (fun s a => s.next ⟨.s3, bucketLimit, indexLength⟩ a)
      (InQuota ⟨.s3, bucketLimit, indexLength⟩) s' actions) :
    SameIndex (actions.foldl (fun s a => s.next ⟨.disk, bucketLimit, indexLength⟩ a) s)
      (actions.foldl (fun s a => s.next ⟨.s3, bucketLimit, indexLength⟩ a) s') := by
  induction actions generalizing s s' with
  | nil => exact h
  | cons a actions ih =>
    exact ih (h.next bucketLimit indexLength hfinds.1 (hquota.1.oneSized rfl)) hfinds.2 hquota.2

/-- A run in quota keeps the size and the limit. The size is wrong in no other states, and an upload
that passes the check without fitting can come to exceed the limit. -/
theorem quota_kept_inQuota (bucketLimit : ℕ) (indexLength : SequenceIndex → ℕ)
    (actions : List Action) :
    (∀ kind, System.Meets (fun s a => s.next ⟨kind, bucketLimit, indexLength⟩ a)
        (InQuota ⟨kind, bucketLimit, indexLength⟩) new actions →
      System.Always (fun s a => s.next ⟨kind, bucketLimit, indexLength⟩ a)
        (WithinQuota ⟨kind, bucketLimit, indexLength⟩) new actions) ∧
    (∀ kind, (run ⟨kind, bucketLimit, indexLength⟩ actions).index.size =
        totalSize (run ⟨kind, bucketLimit, indexLength⟩ actions).index.sequences ↔
      (kind = .s3 → OneSized (run ⟨kind, bucketLimit, indexLength⟩ actions).index.sequences)) ∧
    (∀ kind a, ¬ Reserves ⟨kind, bucketLimit, indexLength⟩
        (run ⟨kind, bucketLimit, indexLength⟩ actions) a →
      ∃ later, bucketLimit < totalSize
        (run ⟨kind, bucketLimit, indexLength⟩ (actions ++ a :: later)).index.sequences) ∧
    (System.Meets (fun s a => s.next ⟨.disk, bucketLimit, indexLength⟩ a) Finds new actions →
      System.Meets (fun s a => s.next ⟨.s3, bucketLimit, indexLength⟩ a)
        (InQuota ⟨.s3, bucketLimit, indexLength⟩) new actions →
      ∀ before after, actions = before ++ after →
        (run ⟨.s3, bucketLimit, indexLength⟩ before).index =
          (run ⟨.disk, bucketLimit, indexLength⟩ before).index) := by
  refine ⟨fun kind => withinQuota_of_inQuota _ actions,
    fun kind => (sized_run ⟨kind, bucketLimit, indexLength⟩ actions).eq_totalSize_iff,
    fun kind a hreserves => ?_, fun hfinds hquota before after hactions => ?_⟩
  · obtain ⟨later, hlater⟩ := exceeds_of_not_reserves hreserves
    refine ⟨later, ?_⟩
    unfold run
    rw [List.foldl_append]
    exact hlater
  · subst hactions
    have hstart : SameIndex new new := ⟨rfl, rfl, rfl⟩
    exact (sameIndex_foldl hstart (System.meets_append.mp hfinds).1
      (System.meets_append.mp hquota).1).index

/-- A package is uploaded and deleted. -/
def deletedRun : List Action :=
  [.upload "p" "f", .identified 0 (some 5), .settles 0 true, .saveSettles 0 .saved, .delete "p",
    .settles 1 true]

theorem quota_kept_inQuota_deleted :
    System.Always (fun s a => s.next ⟨.disk, 100, fun _ => 41⟩ a)
      (WithinQuota ⟨.disk, 100, fun _ => 41⟩) new deletedRun ∧
    ∀ before after, deletedRun = before ++ after →
      (run ⟨.s3, 100, fun _ => 41⟩ before).index = (run ⟨.disk, 100, fun _ => 41⟩ before).index := by
  have hquota : ∀ kind, System.Meets (fun s a => s.next ⟨kind, 100, fun _ => 41⟩ a)
      (InQuota ⟨kind, 100, fun _ => 41⟩) new deletedRun := by
    intro kind
    cases kind
    all_goals
      refine ⟨⟨trivial, fun _ => by decide⟩, ⟨fun _ _ _ _ => ⟨by decide, by decide⟩,
        fun _ => by decide⟩, ⟨trivial, fun _ => by decide⟩, ⟨trivial, fun _ => by decide⟩,
        ⟨trivial, fun _ => by decide⟩, ⟨trivial, fun _ => by decide⟩, trivial⟩
  have hfinds : System.Meets (fun s a => s.next ⟨.disk, 100, fun _ => 41⟩ a) Finds new
      deletedRun := by
    refine ⟨trivial, trivial, ?_, trivial, trivial, ?_, trivial⟩
    · intro operation hk
      cases hk
      trivial
    · intro operation hk
      cases hk
      decide
  exact ⟨(quota_kept_inQuota 100 (fun _ => 41) deletedRun).1 .disk (hquota .disk),
    (quota_kept_inQuota 100 (fun _ => 41) deletedRun).2.2.2 hfinds (hquota .s3)⟩

/-- Two packages pass the check before either is listed. -/
def concurrentRun : List Action :=
  [.upload "p" "f", .upload "q" "g", .identified 0 (some 600), .identified 1 (some 600),
    .settles 0 true, .settles 1 true]

theorem concurrentRun_exceeds :
    ¬ System.Always (fun s a => s.next ⟨.disk, 1000, fun _ => 41⟩ a)
        (WithinQuota ⟨.disk, 1000, fun _ => 41⟩) new concurrentRun ∧
      ¬ System.Always (fun s a => s.next ⟨.s3, 1000, fun _ => 41⟩ a)
        (WithinQuota ⟨.s3, 1000, fun _ => 41⟩) new concurrentRun ∧
      (run ⟨.s3, 1000, fun _ => 41⟩ concurrentRun).index.size ≠
        (run ⟨.disk, 1000, fun _ => 41⟩ concurrentRun).index.size := by
  refine ⟨fun h => ?_, fun h => ?_, by decide⟩
  · exact absurd (System.always_last h).limit (by decide)
  · exact absurd (System.always_last h).size (by decide)

end StorageProxy

end TransformHub.Manager.StorageRouters
