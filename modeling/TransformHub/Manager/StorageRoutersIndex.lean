import TransformHub.Manager.StorageRouters

/-!
# The index and the stored packages

Where the operations on one name do not overlap, what fails has no effect, and the index is written
in order, the stored index has one entry for each stored package whenever no operation is in
progress.
-/

namespace TransformHub.Manager.StorageRouters

/-! ## Operations -/

namespace Operation

/-- An upload under a name that is not in the index yet. -/
def Uploads (name : String) : Operation → Prop
  | .identifying filename _ => filename = name
  | .putting sequence _ => sequence.filename = name
  | _ => False

/-- A deletion of a name that is not over. -/
def Removes (name : String) : Operation → Prop
  | .removing filename _ => filename = name
  | _ => False

def isClearing : Operation → Bool
  | .clearing .. => true
  | _ => false

/-- It has yet to change the index. -/
def isActive : Operation → Bool
  | .saving _ => false
  | .waiting => false
  | .done => false
  | _ => true

theorem Uploads.isActive {name : String} {operation : Operation} (h : operation.Uploads name) :
    operation.isActive = true := by
  cases operation <;> first | rfl | exact h.elim

theorem Removes.isActive {name : String} {operation : Operation} (h : operation.Removes name) :
    operation.isActive = true := by
  cases operation <;> first | rfl | exact h.elim

end Operation

/-- A name that is neither that of the index nor, on a disk, one of a metadata file. -/
def Plain (kind : StoreKind) (name : String) : Prop :=
  name ≠ indexName ∧ (kind = .disk → ∀ stem, name ≠ metadataName stem)

namespace StorageProxy

/-! ## The property and the condition -/

def HasOperation (s : StorageProxy) (k : ℕ) (operation : Operation) : Prop :=
  s.operations[k]? = some operation

def HasWrite (s : StorageProxy) (w : ℕ) (write : IndexWrite) : Prop :=
  s.writes[w]? = some write

def Quiet (s : StorageProxy) : Prop := ∀ operation ∈ s.operations, operation = .done

/-- The index has one entry for each stored package and none without one, and it is the one that is
stored. -/
structure Matches (s : StorageProxy) : Prop where
  entries : ∀ name, s.index.sequences.countP (fun e => e.filename = name) =
    if s.files.hasPackage name = true then 1 else 0
  persisted : s.files.get? indexName = some (.index s.index)

def MatchesWhenQuiet (s : StorageProxy) : Prop := s.Quiet → s.Matches

/-- No later write of the index has landed. -/
def Newest (s : StorageProxy) (w : ℕ) : Prop :=
  ∀ ⦃v write⦄, w < v → s.HasWrite v write → write.landed = false

/-- A removal has removed the object, or would. -/
def removal (s : StorageProxy) (kind : StoreKind) (filename : String) (removed : Option Bool) :
    Bool :=
  removed.getD (s.files.removeObject kind filename).2

/-- The operations on a name do not overlap, and `clearIndex` overlaps with none; a name is uploaded
once, and is no reserved one; a deletion names the filename; `clearIndex` removes what the index
names, or nothing; what fails has no effect; and the index is written in order. -/
def Careful (config : ProxyConfig) (s : StorageProxy) : Action → Prop
  | .upload filename fileId =>
    Plain config.kind (uploadName filename fileId) ∧
      (∀ e ∈ s.index.sequences, e.filename ≠ uploadName filename fileId) ∧
      ∀ {k operation}, s.HasOperation k operation →
        ¬ operation.Uploads (uploadName filename fileId) ∧
          ¬ operation.Removes (uploadName filename fileId) ∧ operation.isClearing = false
  | .delete filename => filename ≠ indexName ∧ ∀ {k operation}, s.HasOperation k operation →
      ¬ operation.Uploads filename ∧ operation.isClearing = false
  | .clearIndex => (∀ {k operation}, s.HasOperation k operation → operation.isActive = false) ∧
      ∀ item ∈ s.index.sequences, item.id = item.filename ∨
        config.kind = .disk ∧ s.files.has item.id = false
  | .settles k ok => ∀ {operation}, s.HasOperation k operation →
      match operation with
      | .putting sequence _ => ok = false → s.files.hasPackage sequence.filename = false
      | .removing filename removed =>
        if ok then s.removal config.kind filename removed = true →
          ∀ e ∈ s.index.sequences, e.fileId = filename → e.filename = filename
        else removed ≠ some true
      | .clearing _ (_ :: _) removed => ok = false → removed ≠ some true
      | _ => True
  | .lands w => s.Newest w
  | .saveSettles k outcome => ∀ {w write}, s.HasOperation k (.saving w) →
      s.HasWrite w write →
      match outcome with
      | .saved => write.landed = false → s.Newest w
      | .noSuchBucket => write.landed = true ∨ w + 1 < s.writes.length
      | .failed => True
  | _ => True

/-! ## Updates -/

variable {s s' : StorageProxy} {kind : StoreKind} {k l w v : ℕ} {operation operation' : Operation}

theorem HasOperation.eq (h : s.HasOperation k operation) (h' : s.HasOperation k operation') :
    operation = operation' := Option.some.inj (h.symm.trans h')

theorem HasOperation.lt (h : s.HasOperation k operation) : k < s.operations.length :=
  (List.getElem?_eq_some_iff.mp h).1

theorem HasWrite.lt {write : IndexWrite} (h : s.HasWrite w write) : w < s.writes.length :=
  (List.getElem?_eq_some_iff.mp h).1

theorem hasOperation_set (h : s.HasOperation k operation)
    (hset : s'.operations = s.operations.set k operation') :
    s'.HasOperation k operation' := by
  rw [HasOperation, hset, List.getElem?_set_self h.lt]

theorem hasOperation_set_iff (hset : s'.operations = s.operations.set k operation') (hl : l ≠ k)
    {o : Operation} : s'.HasOperation l o ↔ s.HasOperation l o := by
  rw [HasOperation, hset, List.getElem?_set_ne (Ne.symm hl), HasOperation]

theorem HasOperation.set_cases {o : Operation} (h : s'.HasOperation l o)
    (hset : s'.operations = s.operations.set k operation') :
    l = k ∧ o = operation' ∨ l ≠ k ∧ s.HasOperation l o := by
  by_cases hl : l = k
  · subst hl
    rw [HasOperation, hset] at h
    obtain ⟨hlt, heq⟩ := List.getElem?_eq_some_iff.mp h
    rw [List.getElem_set_self] at heq
    exact .inl ⟨rfl, heq.symm⟩
  · exact .inr ⟨hl, (hasOperation_set_iff hset hl).mp h⟩

/-! ## Writes of the index -/

/-- Where the index is, in memory, on its way and stored. -/
structure Saved (s : StorageProxy) : Prop where
  present : ∃ index, s.files.get? indexName = some (.index index)
  newest : ∀ {w write}, s.HasWrite w write → w + 1 = s.writes.length → write.index = s.index
  loaded : s.writes = [] → s.files.get? indexName = some (.index s.index)
  saving : ∀ {k w}, s.HasOperation k (.saving w) → w < s.writes.length
  pending : ∀ {w write}, s.HasWrite w write → w + 1 = s.writes.length →
    write.landed = true ∨ ∃ k, s.HasOperation k (.saving w) ∨ s.HasOperation k .waiting
  persisted : ∀ {w write}, s.HasWrite w write → write.landed = true → s.Newest w →
    s.files.get? indexName = some (.index write.index)

theorem saved_new : new.Saved where
  present := ⟨_, rfl⟩
  newest := nofun
  loaded := fun _ => rfl
  saving := nofun
  pending := nofun
  persisted := nofun

theorem Saved.quiet (h : s.Saved) (hquiet : s.Quiet) :
    s.files.get? indexName = some (.index s.index) := by
  rcases List.eq_nil_or_concat s.writes with hnil | ⟨writes, write, hwrites⟩
  · exact h.loaded hnil
  · have hlength : s.writes.length = writes.length + 1 := by
      rw [hwrites]
      simp
    have hlast : s.HasWrite writes.length write := by
      rw [HasWrite, hwrites]
      simp
    have hlanded : write.landed = true := by
      refine (h.pending hlast hlength.symm).resolve_right ?_
      rintro ⟨k, hsaving | hwaiting⟩
      · cases hquiet _ (List.mem_of_getElem? hsaving)
      · cases hquiet _ (List.mem_of_getElem? hwaiting)
    have hnewest : s.Newest writes.length := by
      intro v later hv hlater
      have := hlater.lt
      omega
    rw [h.persisted hlast hlanded hnewest, h.newest hlast hlength.symm]

theorem Saved.congr (h : s.Saved)
    (hfiles : s'.files.get? indexName = s.files.get? indexName) (hindex : s'.index = s.index)
    (hwrites : s'.writes = s.writes)
    (hoperations : ∀ {k o}, o.isActive = false → o ≠ .done →
      (s'.HasOperation k o ↔ s.HasOperation k o)) : s'.Saved where
  present := by
    rw [hfiles]
    exact h.present
  newest := by
    intro w write hw hlast
    rw [HasWrite, hwrites] at hw
    rw [hwrites] at hlast
    rw [hindex]
    exact h.newest hw hlast
  loaded := by
    intro hnil
    rw [hwrites] at hnil
    rw [hfiles, hindex]
    exact h.loaded hnil
  saving := by
    intro k w hk
    rw [hwrites]
    exact h.saving ((hoperations rfl (fun hnot => by cases hnot)).mp hk)
  pending := by
    intro w write hw hlast
    rw [HasWrite, hwrites] at hw
    rw [hwrites] at hlast
    refine (h.pending hw hlast).imp id ?_
    rintro ⟨k, hk⟩
    exact ⟨k, hk.imp (hoperations rfl (fun hnot => by cases hnot)).mpr
      (hoperations rfl (fun hnot => by cases hnot)).mpr⟩
  persisted := by
    intro w write hw hlanded hnewest
    rw [HasWrite, hwrites] at hw
    rw [hfiles]
    apply h.persisted hw hlanded
    intro v later hv hlater
    apply hnewest hv
    rw [HasWrite, hwrites]
    exact hlater

theorem Saved.writeIndex (h : s.Saved) (hk : s.HasOperation k operation) (index : SequenceIndex) :
    (({ s with index } : StorageProxy).writeIndex k).Saved := by
  have hcases : ∀ {v write},
      (({ s with index } : StorageProxy).writeIndex k).HasWrite v write →
      s.HasWrite v write ∧ v < s.writes.length ∨ v = s.writes.length ∧ write = ⟨index, false⟩ := by
    intro v write hv
    exact (OrderedMap.getElem?_append_cases hv).symm.imp_left And.symm
  have hlength : (({ s with index } : StorageProxy).writeIndex k).writes.length =
      s.writes.length + 1 :=
    List.length_append
  have hset : (({ s with index } : StorageProxy).writeIndex k).operations =
      s.operations.set k (.saving s.writes.length) := rfl
  constructor
  case present => exact h.present
  case newest =>
    intro v write hv hlast
    rcases hcases hv with ⟨-, hlt⟩ | ⟨-, rfl⟩
    · omega
    · rfl
  case loaded =>
    intro hnil
    rw [hnil] at hlength
    cases hlength
  case saving =>
    intro l v hl
    rw [hlength]
    rcases hl.set_cases hset with ⟨-, heq⟩ | ⟨-, hl⟩
    · cases heq
      exact Nat.lt_succ_self _
    · exact Nat.lt_succ_of_lt (h.saving hl)
  case pending =>
    intro v write hv hlast
    refine .inr ⟨k, .inl ?_⟩
    have hv' : v = s.writes.length := by omega
    rw [hv']
    exact hasOperation_set hk hset
  case persisted =>
    intro v write hv hlanded hnewest
    rcases hcases hv with ⟨hv, hlt⟩ | ⟨-, rfl⟩
    · apply h.persisted hv hlanded
      intro u later hu hlater
      apply hnewest hu
      show (s.writes ++ _)[u]? = some later
      rw [List.getElem?_append_left hlater.lt]
      exact hlater
    · cases hlanded

theorem Saved.land (h : s.Saved)
    (hnewest : ∀ {write}, s.HasWrite w write → write.landed = false → s.Newest w) :
    (s.land w).Saved := by
  unfold StorageProxy.land
  split
  · exact h
  next write hw =>
  split
  · exact h
  next hlanded =>
  have hnewest := hnewest hw (by simpa using hlanded)
  have hcases : ∀ {v later}, (s.writes.set w { write with landed := true })[v]? = some later →
      v = w ∧ later = ⟨write.index, true⟩ ∨ v ≠ w ∧ s.HasWrite v later := by
    intro v later hv
    by_cases hvw : v = w
    · subst hvw
      rw [List.getElem?_set_self (List.getElem?_eq_some_iff.mp hw).1] at hv
      exact .inl ⟨rfl, (Option.some.inj hv).symm⟩
    · rw [List.getElem?_set_ne (Ne.symm hvw)] at hv
      exact .inr ⟨hvw, hv⟩
  constructor
  case present => exact ⟨_, OrderedMap.get?_set_self _ _ _⟩
  case newest =>
    intro v later hv hlast
    change v + 1 = (s.writes.set w _).length at hlast
    rw [List.length_set] at hlast
    rcases hcases hv with ⟨rfl, rfl⟩ | ⟨-, hv⟩
    · show write.index = s.index
      exact h.newest hw hlast
    · exact h.newest hv hlast
  case loaded =>
    intro hnil
    have hnil := congrArg List.length (show s.writes.set w _ = [] from hnil)
    rw [List.length_set] at hnil
    have := (List.getElem?_eq_some_iff.mp hw).1
    simp at hnil
    rw [hnil] at this
    cases this
  case saving =>
    intro l v hl
    show v < (s.writes.set w _).length
    rw [List.length_set]
    exact h.saving hl
  case pending =>
    intro v later hv hlast
    change v + 1 = (s.writes.set w _).length at hlast
    rw [List.length_set] at hlast
    rcases hcases hv with ⟨-, rfl⟩ | ⟨-, hv⟩
    · exact .inl rfl
    · exact h.pending hv hlast
  case persisted =>
    intro v later hv hlater hlast
    show (s.files.set indexName _).get? indexName = _
    rw [OrderedMap.get?_set_self]
    rcases hcases hv with ⟨-, rfl⟩ | ⟨hvw, hv⟩
    · rfl
    · -- neither an older nor a later write is the newest one that has landed
      rcases Nat.lt_or_gt_of_ne hvw with hlt | hgt
      · have hnot := hlast hlt (show (s.writes.set w _)[w]? = some _ from
          List.getElem?_set_self (List.getElem?_eq_some_iff.mp hw).1)
        cases hnot
      · rw [hnewest hgt hv] at hlater
        cases hlater

theorem Saved.finish (h : s.Saved) (hk : s.HasOperation k (.saving w))
    (hlanded : ∀ {write}, s.HasWrite w write → write.landed = true ∨ w + 1 < s.writes.length) :
    (s.setOperation k .done).Saved := by
  have hset : (s.setOperation k .done).operations = s.operations.set k .done := rfl
  refine { h with saving := ?_, pending := ?_ }
  · intro l v hl
    rcases hl.set_cases hset with ⟨-, heq⟩ | ⟨-, hl⟩
    · cases heq
    · exact h.saving hl
  · intro v write hv hlast
    rcases h.pending hv hlast with hdone | ⟨l, hl⟩
    · exact .inl hdone
    by_cases hlk : l = k
    · subst hlk
      rcases hl with hl | hl
      · cases hl.eq hk
        have hlast : w + 1 = s.writes.length := hlast
        refine .inl ((hlanded hv).resolve_right ?_)
        omega
      · cases hl.eq hk
    · have hiff := @hasOperation_set_iff _ _ _ _ _ hset hlk
      exact .inr ⟨l, hl.imp hiff.mpr hiff.mpr⟩

theorem Saved.wait (h : s.Saved) (hk : s.HasOperation k (.saving w)) :
    (s.setOperation k .waiting).Saved := by
  have hset : (s.setOperation k .waiting).operations = s.operations.set k .waiting := rfl
  refine { h with saving := ?_, pending := ?_ }
  · intro l v hl
    rcases hl.set_cases hset with ⟨-, heq⟩ | ⟨-, hl⟩
    · cases heq
    · exact h.saving hl
  · intro v write hv hlast
    rcases h.pending hv hlast with hdone | ⟨l, hl⟩
    · exact .inl hdone
    by_cases hlk : l = k
    · exact .inr ⟨k, .inr (hasOperation_set hk hset)⟩
    · have hiff := @hasOperation_set_iff _ _ _ _ _ hset hlk
      exact .inr ⟨l, hl.imp hiff.mpr hiff.mpr⟩

end StorageProxy

end TransformHub.Manager.StorageRouters
