import Mathlib.Algebra.Order.BigOperators.Group.List
import TransformHub.Manager.StorageRoutersIndex

/-!
# The quota of the storage routers

The size of the index is that of the packages it lists: on a disk always, on S3 only where at most
one of them has a size (`indexSize_s3_eq_iff`).
-/

namespace TransformHub.Manager.StorageRouters

def totalSize (sequences : List SequenceInfo) : ℕ := (sequences.map (·.packageSize)).sum

/-- At most one of the packages has a size. -/
def OneSized (sequences : List SequenceInfo) : Prop :=
  (sequences.filter (·.packageSize ≠ 0)).length ≤ 1

instance (sequences : List SequenceInfo) : Decidable (OneSized sequences) :=
  inferInstanceAs (Decidable (_ ≤ _))

@[simp] theorem totalSize_nil : totalSize [] = 0 := rfl

@[simp] theorem totalSize_cons (e : SequenceInfo) (sequences : List SequenceInfo) :
    totalSize (e :: sequences) = e.packageSize + totalSize sequences := rfl

@[simp] theorem totalSize_append (sequences sequences' : List SequenceInfo) :
    totalSize (sequences ++ sequences') = totalSize sequences + totalSize sequences' := by
  simp [totalSize]

theorem totalSize_filter_le (p : SequenceInfo → Bool) (sequences : List SequenceInfo) :
    totalSize (sequences.filter p) ≤ totalSize sequences := by
  induction sequences with
  | nil => simp
  | cons e sequences ih =>
    rw [List.filter_cons]
    split
    all_goals
      simp only [totalSize_cons]
      omega

theorem totalSize_eq_zero_iff (sequences : List SequenceInfo) :
    totalSize sequences = 0 ↔ sequences.filter (·.packageSize ≠ 0) = [] := by
  induction sequences with
  | nil => simp
  | cons e sequences ih => by_cases he : e.packageSize = 0 <;> simp [he, ih]

/-! ## The two folds -/

open StorageProxy (indexSize)

theorem indexSize_disk (sequences : List SequenceInfo) :
    indexSize .disk sequences = totalSize sequences := by
  have hfold : ∀ p, sequences.foldl (fun p c => p + c.packageSize) p =
      p + totalSize sequences := by
    induction sequences with
    | nil => simp
    | cons e sequences ih =>
      intro p
      rw [List.foldl_cons, ih, totalSize_cons, Nat.add_assoc]
  exact (hfold 0).trans (Nat.zero_add _)

theorem indexSize_s3_cons (e : SequenceInfo) (sequences : List SequenceInfo) :
    indexSize .s3 (e :: sequences) =
      if e.packageSize ≠ 0 then e.packageSize else indexSize .s3 sequences := by
  have hfold : ∀ p, p ≠ 0 →
      sequences.foldl (fun p c => if p ≠ 0 then p else 0 + c.packageSize) p = p := by
    intro p hp
    induction sequences with
    | nil => rfl
    | cons e sequences ih => rw [List.foldl_cons, if_pos hp, ih]
  show sequences.foldl (fun p c => if p ≠ 0 then p else 0 + c.packageSize)
    (if (0 : ℕ) ≠ 0 then 0 else 0 + e.packageSize) = _
  rw [if_neg (by decide), Nat.zero_add]
  by_cases he : e.packageSize = 0
  · rw [he]
    rfl
  · rw [if_pos he, hfold _ he]

theorem indexSize_s3_eq_iff (sequences : List SequenceInfo) :
    indexSize .s3 sequences = totalSize sequences ↔ OneSized sequences := by
  induction sequences with
  | nil => exact iff_of_true rfl (Nat.zero_le _)
  | cons e sequences ih =>
    rw [indexSize_s3_cons, totalSize_cons]
    by_cases he : e.packageSize = 0
    · have hone : OneSized (e :: sequences) ↔ OneSized sequences := by
        unfold OneSized
        simp [he]
      rw [if_neg (not_not.mpr he), he, Nat.zero_add, ih, hone]
    · have hone : OneSized (e :: sequences) ↔ totalSize sequences = 0 := by
        rw [totalSize_eq_zero_iff, ← List.length_eq_zero_iff]
        unfold OneSized
        simp [he]
      rw [if_pos he, hone]
      omega

theorem indexSize_eq_iff (kind : StoreKind) (sequences : List SequenceInfo) :
    indexSize kind sequences = totalSize sequences ↔ (kind = .s3 → OneSized sequences) := by
  cases kind with
  | disk => exact iff_of_true (indexSize_disk sequences) nofun
  | s3 =>
    rw [indexSize_s3_eq_iff]
    exact ⟨fun h _ => h, fun h => h rfl⟩

/-! ## What uploads and `clearIndex` will list -/

/-- The size of the package that an upload is storing. -/
def Operation.reserved : Operation → ℕ
  | .putting sequence _ => sequence.packageSize
  | _ => 0

/-- The size of what `clearIndex` may list again. -/
def Operation.relisted : Operation → ℕ
  | .clearing results items _ => totalSize (results ++ items)
  | _ => 0

namespace StorageProxy

variable {s s' : StorageProxy} {config : ProxyConfig} {limit size k : ℕ}
  {operation operation' : Operation}

def reservedSize (s : StorageProxy) : ℕ := (s.operations.map Operation.reserved).sum

/-- With what the uploads are storing, a package fits next to what is listed, and next to what may be
listed again. -/
structure Fits (limit : ℕ) (s : StorageProxy) (size : ℕ) : Prop where
  listed : totalSize s.index.sequences + s.reservedSize + size ≤ limit
  relisted : ∀ operation ∈ s.operations, operation.relisted + s.reservedSize + size ≤ limit

/-- An upload that passes the check fits. -/
def Reserves (config : ProxyConfig) (s : StorageProxy) : Action → Prop
  | .identified k (some size) => ∀ filename fileId,
      s.HasOperation k (.identifying filename fileId) →
      config.indexLength s.index + s.index.size + size ≤ config.bucketLimit →
      Fits config.bucketLimit s size
  | _ => True

theorem reservedSize_set (hk : s.HasOperation k operation)
    (hset : s'.operations = s.operations.set k operation') :
    s'.reservedSize + operation.reserved = s.reservedSize + operation'.reserved := by
  unfold reservedSize
  rw [hset]
  have hsum : ∀ (operations : List Operation) (k : ℕ), operations[k]? = some operation →
      ((operations.set k operation').map Operation.reserved).sum + operation.reserved =
        (operations.map Operation.reserved).sum + operation'.reserved := by
    intro operations
    induction operations with
    | nil => exact nofun
    | cons first operations ih =>
      intro k hk
      cases k with
      | zero =>
        cases hk
        simp only [List.set_cons_zero, List.map_cons, List.sum_cons]
        omega
      | succ k =>
        have hrest := ih k hk
        simp only [List.set_cons_succ, List.map_cons, List.sum_cons]
        omega
  exact hsum s.operations k hk

theorem Fits.set (F : Fits limit s 0) (hk : s.HasOperation k operation)
    (hset : s'.operations = s.operations.set k operation')
    (hlisted : totalSize s'.index.sequences + operation'.reserved ≤
        totalSize s.index.sequences + operation.reserved ∨
      totalSize s'.index.sequences + operation'.reserved ≤ operation.relisted + operation.reserved)
    (hreserved : operation'.reserved ≤ operation.reserved)
    (hrelisted : operation'.relisted ≤ operation.relisted) : Fits limit s' 0 := by
  have hsum := reservedSize_set hk hset
  have hlisted' := F.listed
  have hrelisted' := F.relisted operation (List.mem_of_getElem? hk)
  refine ⟨?_, fun o ho => ?_⟩
  · rcases hlisted with h | h <;> omega
  · rw [hset] at ho
    rcases List.mem_or_eq_of_mem_set ho with ho | rfl
    · have := F.relisted o ho
      omega
    · omega

theorem Fits.congr (F : Fits limit s size) (hindex : s'.index.sequences = s.index.sequences)
    (hoperations : s'.operations = s.operations) : Fits limit s' size := by
  have hreserved : s'.reservedSize = s.reservedSize := by
    unfold reservedSize
    rw [hoperations]
  refine ⟨?_, fun operation ho => ?_⟩
  · rw [hindex, hreserved]
    exact F.listed
  · rw [hoperations] at ho
    rw [hreserved]
    exact F.relisted operation ho

theorem Fits.push (F : Fits limit s 0) (hindex : s'.index.sequences = s.index.sequences)
    (hpush : s'.operations = s.operations ++ [operation]) (hreserved : operation.reserved = 0)
    (hrelisted : operation.relisted ≤ totalSize s.index.sequences) : Fits limit s' 0 := by
  have hsum : s'.reservedSize = s.reservedSize := by
    unfold reservedSize
    rw [hpush]
    simp [hreserved]
  have hlisted := F.listed
  refine ⟨?_, fun o ho => ?_⟩
  · rw [hindex, hsum]
    exact hlisted
  · rw [hpush] at ho
    rw [hsum]
    rcases List.mem_append.mp ho with ho | ho
    · exact F.relisted o ho
    · rw [List.mem_singleton.mp ho]
      omega

/-! ## One step -/

theorem fits_effect (F : Fits limit s 0) (kind : StoreKind) (k : ℕ) :
    Fits limit (s.effect kind k) 0 := by
  unfold effect
  split
  · rename_i hk
    exact F.set hk rfl (.inl (Nat.le_refl _)) (Nat.le_refl _) (Nat.le_refl _)
  · rename_i hk
    exact F.set hk rfl (.inl (Nat.le_refl _)) (Nat.le_refl _) (Nat.le_refl _)
  · rename_i hk
    exact F.set hk rfl (.inl (Nat.le_refl _)) (Nat.le_refl _) (Nat.le_refl _)
  · exact F

theorem fits_partEffect (F : Fits limit s 0) (kind : StoreKind) (k : ℕ) :
    Fits limit (s.partEffect kind k) 0 := by
  unfold partEffect
  split
  · exact F.congr rfl rfl
  · exact F.congr rfl rfl
  · exact F.congr rfl rfl
  · exact F

theorem fits_goOn (F : Fits limit s 0) (kind : StoreKind) (k : ℕ) (ok : Bool) :
    Fits limit (s.goOn kind k ok) 0 := by
  unfold goOn
  split
  · rename_i sequence stored hk
    split
    · -- what was stored is listed now
      refine F.set hk rfl (.inl ?_) (Nat.zero_le _) (Nat.zero_le _)
      show totalSize (s.index.sequences ++ [sequence]) + 0 ≤ _ + sequence.packageSize
      simp
    · exact F.set hk rfl (.inl (Nat.add_le_add_left (Nat.zero_le _) _)) (Nat.zero_le _)
        (Nat.zero_le _)
  · rename_i filename removed hk
    split
    · dsimp only
      split <;> exact F.set hk rfl (.inl (totalSize_filter_le _ _)) (Nat.le_refl _) (Nat.le_refl _)
    · exact F.set hk rfl (.inl (Nat.le_refl _)) (Nat.le_refl _) (Nat.le_refl _)
  · rename_i results item items removed hk
    split
    · refine F.set hk rfl (.inl (Nat.le_refl _)) (Nat.le_refl _) ?_
      show totalSize (results ++ items) ≤ totalSize (results ++ item :: items)
      simp
    · refine F.set hk rfl (.inl (Nat.le_refl _)) (Nat.le_refl _) ?_
      show totalSize (results ++ [item] ++ items) ≤ totalSize (results ++ item :: items)
      simp
  · rename_i results removed hk
    -- the index is what could not be removed
    refine F.set hk rfl (.inr ?_) (Nat.le_refl _) (Nat.zero_le _)
    show totalSize results + 0 ≤ totalSize (results ++ []) + 0
    rw [List.append_nil]
  · exact F

theorem fits_land (F : Fits limit s 0) (w : ℕ) : Fits limit (s.land w) 0 := by
  unfold land
  split
  · exact F
  · split
    · exact F
    · exact F.congr rfl rfl

theorem fits_identified (F : Fits config.bucketLimit s 0) {size : Option ℕ}
    (h : Reserves config s (.identified k size)) :
    Fits config.bucketLimit (s.identified config k size) 0 := by
  unfold identified
  split
  · rename_i hk
    exact F.set hk rfl (.inl (Nat.le_refl _)) (Nat.le_refl _) (Nat.le_refl _)
  · rename_i filename fileId size hk
    split
    · exact F.set hk rfl (.inl (Nat.le_refl _)) (Nat.le_refl _) (Nat.le_refl _)
    · rename_i hlimit
      have hfits := h filename fileId hk (Nat.not_lt.mp hlimit)
      let putting : Operation := .putting ⟨fileId, size, filename, fileId⟩ false
      have hset : (s.setOperation k putting).operations = s.operations.set k putting := rfl
      have hsum : (s.setOperation k putting).reservedSize + 0 = s.reservedSize + size :=
        reservedSize_set hk hset
      have hlisted := hfits.listed
      refine ⟨?_, fun o ho => ?_⟩
      · show totalSize s.index.sequences + (s.setOperation k putting).reservedSize + 0 ≤ _
        omega
      · show o.relisted + (s.setOperation k putting).reservedSize + 0 ≤ _
        rcases List.mem_or_eq_of_mem_set ho with ho | rfl
        · have hrelisted := hfits.relisted o ho
          omega
        · show 0 + (s.setOperation k putting).reservedSize + 0 ≤ _
          omega
  · exact F

theorem Fits.next (F : Fits config.bucketLimit s 0) {a : Action} (h : Reserves config s a) :
    Fits config.bucketLimit (s.next config a) 0 := by
  cases a with
  | upload filename fileId | delete filename => exact F.push rfl rfl rfl (Nat.zero_le _)
  | clearIndex => exact F.push rfl rfl rfl (Nat.le_refl _)
  | identified k size => exact fits_identified F h
  | takesEffect k => exact fits_effect F config.kind k
  | partlyTakesEffect k => exact fits_partEffect F config.kind k
  | settles k ok =>
    show Fits _ (s.settles config.kind k ok) 0
    unfold settles
    split
    · exact fits_goOn (fits_effect F config.kind k) config.kind k true
    · exact fits_goOn F config.kind k false
  | lands w => exact fits_land F w
  | saveSettles k outcome =>
    show Fits _ (s.saveSettles k outcome) 0
    unfold saveSettles
    split
    · rename_i w hk
      have hk' : (s.land w).HasOperation k (.saving w) := by
        unfold land
        split
        · exact hk
        · split <;> exact hk
      exact (fits_land F w).set hk' rfl (.inl (Nat.le_refl _)) (Nat.le_refl _) (Nat.le_refl _)
    · rename_i w hk
      exact F.set hk rfl (.inl (Nat.le_refl _)) (Nat.le_refl _) (Nat.le_refl _)
    · rename_i w hk
      exact F.set hk rfl (.inl (Nat.le_refl _)) (Nat.le_refl _) (Nat.le_refl _)
    · exact F
  | retries k =>
    show Fits _ (s.retries k) 0
    unfold retries
    split
    · rename_i hk
      exact F.set hk rfl (.inl (Nat.le_refl _)) (Nat.le_refl _) (Nat.le_refl _)
    · exact F

/-! ## The size of the index -/

/-- The size is what `saveIndex` computes. -/
def Sized (kind : StoreKind) (s : StorageProxy) : Prop :=
  s.index.size = indexSize kind s.index.sequences

theorem index_effect (s : StorageProxy) (kind : StoreKind) (k : ℕ) :
    (s.effect kind k).index = s.index := by
  unfold effect
  split <;> rfl

theorem index_land (s : StorageProxy) (w : ℕ) : (s.land w).index = s.index := by
  unfold land
  split
  · rfl
  · split <;> rfl

theorem Sized.goOn {kind : StoreKind} (h : s.Sized kind) (k : ℕ) (ok : Bool) :
    (s.goOn kind k ok).Sized kind := by
  unfold StorageProxy.goOn
  split
  · split
    · exact rfl
    · exact h
  · split
    · dsimp only
      split
      · exact rfl
      · rename_i hlength
        -- nothing has been removed
        have hsame := List.length_filter_eq_length_iff.mp (not_not.mp hlength).symm
        unfold Sized
        show s.index.size = indexSize kind (s.index.sequences.filter _)
        rw [List.filter_eq_self.mpr hsame]
        exact h
    · exact h
  · split <;> exact h
  · exact rfl
  · exact h

theorem Sized.next (h : s.Sized config.kind) (a : Action) :
    (s.next config a).Sized config.kind := by
  have hcongr : ∀ {s' : StorageProxy}, s'.index = s.index → s'.Sized config.kind := by
    intro s' hindex
    unfold Sized
    rw [hindex]
    exact h
  cases a with
  | upload filename fileId | delete filename | clearIndex => exact h
  | identified k size =>
    apply hcongr
    show (s.identified config k size).index = _
    unfold identified
    split
    · rfl
    · split <;> rfl
    · rfl
  | takesEffect k => exact hcongr (index_effect s config.kind k)
  | partlyTakesEffect k =>
    apply hcongr
    show (s.partEffect config.kind k).index = _
    unfold partEffect
    split <;> rfl
  | settles k ok =>
    show (s.settles config.kind k ok).Sized config.kind
    unfold settles
    split
    · have heffect : (s.effect config.kind k).Sized config.kind :=
        hcongr (index_effect s config.kind k)
      exact heffect.goOn k true
    · exact h.goOn k false
  | lands w => exact hcongr (index_land s w)
  | saveSettles k outcome =>
    apply hcongr
    show (s.saveSettles k outcome).index = _
    unfold saveSettles
    split
    · exact index_land s _
    · rfl
    · rfl
    · rfl
  | retries k =>
    apply hcongr
    show (s.retries k).index = _
    unfold retries
    split <;> rfl

theorem sized_new (kind : StoreKind) : new.Sized kind := by
  cases kind <;> rfl

theorem Sized.eq_totalSize_iff {kind : StoreKind} (h : s.Sized kind) :
    s.index.size = totalSize s.index.sequences ↔ (kind = .s3 → OneSized s.index.sequences) := by
  rw [← indexSize_eq_iff, h]

/-! ## Exceeding the limit -/

def run (config : ProxyConfig) (actions : List Action) : StorageProxy :=
  actions.foldl (fun s a => s.next config a) new

theorem settles_putting (hk : s.HasOperation k operation) {sequence : SequenceInfo} {stored : Bool}
    (hputting : operation = .putting sequence stored) (kind : StoreKind) :
    ∃ w, (s.settles kind k true).operations = s.operations.set k (.saving w) ∧
      (s.settles kind k true).index.sequences = s.index.sequences ++ [sequence] := by
  subst hputting
  have heffect : ∃ stored, (s.effect kind k).HasOperation k (.putting sequence stored) ∧
      (s.effect kind k).operations = s.operations.set k (.putting sequence stored) := by
    unfold effect
    rw [show s.operations[k]? = some (.putting sequence stored) from hk]
    cases stored with
    | false =>
      refine ⟨true, ?_, rfl⟩
      exact hasOperation_set hk rfl
    | true =>
      obtain ⟨hlt, hget⟩ := List.getElem?_eq_some_iff.mp hk
      refine ⟨true, hk, ?_⟩
      show s.operations = s.operations.set k (.putting sequence true)
      rw [← hget, List.set_getElem_self]
  obtain ⟨stored', hk', hoperations⟩ := heffect
  have hsettles : s.settles kind k true =
      (s.effect kind k).saveSequences kind k ((s.effect kind k).index.sequences ++ [sequence]) := by
    show (s.effect kind k).goOn kind k true = _
    unfold goOn
    rw [show (s.effect kind k).operations[k]? = some (.putting sequence stored') from hk']
    rfl
  refine ⟨(s.effect kind k).writes.length, ?_, ?_⟩
  · rw [hsettles]
    show (s.effect kind k).operations.set k _ = _
    rw [hoperations, List.set_set]
  · rw [hsettles]
    show (s.effect kind k).index.sequences ++ [sequence] = _
    rw [index_effect]

theorem exists_all_settle (config : ProxyConfig) (s : StorageProxy) : ∃ later : List Action,
    totalSize (later.foldl (fun s a => s.next config a) s).index.sequences =
      totalSize s.index.sequences + s.reservedSize := by
  induction hsize : s.reservedSize using Nat.strongRecOn generalizing s with
  | _ n ih =>
    by_cases hzero : n = 0
    · exact ⟨[], by rw [hzero]; rfl⟩
    · -- some upload is storing a package with a size
      have hsome : ∃ operation ∈ s.operations, operation.reserved ≠ 0 := by
        by_contra hnone
        push Not at hnone
        apply hzero
        rw [← hsize]
        exact List.sum_eq_zero (fun x hx => by
          obtain ⟨operation, ho, rfl⟩ := List.mem_map.mp hx
          exact hnone operation ho)
      obtain ⟨operation, ho, hne⟩ := hsome
      obtain ⟨k, hk⟩ := List.mem_iff_getElem?.mp ho
      have hputting : ∃ sequence stored, operation = .putting sequence stored := by
        cases operation with
        | putting sequence stored => exact ⟨sequence, stored, rfl⟩
        | _ => exact absurd rfl hne
      obtain ⟨sequence, stored, rfl⟩ := hputting
      obtain ⟨w, hset, hlisted⟩ := settles_putting hk rfl config.kind
      have hsum := reservedSize_set hk hset
      have hreserved : (Operation.putting sequence stored).reserved = sequence.packageSize := rfl
      have hsaving : (Operation.saving w).reserved = 0 := rfl
      have hlt : (s.settles config.kind k true).reservedSize < n := by omega
      obtain ⟨later, hlater⟩ := ih _ hlt (s.settles config.kind k true) rfl
      refine ⟨.settles k true :: later, ?_⟩
      rw [List.foldl_cons]
      show totalSize (later.foldl _ (s.settles config.kind k true)).index.sequences = _
      rw [hlater, hlisted, totalSize_append, totalSize_cons, totalSize_nil]
      omega

theorem exists_clear_fails (config : ProxyConfig) {results items : List SequenceInfo}
    {removed : Option Bool} (hk : s.HasOperation k (.clearing results items removed)) :
    ∃ later : List Action,
      (later.foldl (fun s a => s.next config a) s).index.sequences = results ++ items ∧
        (later.foldl (fun s a => s.next config a) s).reservedSize = s.reservedSize := by
  induction items generalizing s results removed with
  | nil =>
    have hgo : s.next config (.settles k false) = s.saveSequences config.kind k results := by
      show s.goOn config.kind k false = _
      unfold goOn
      rw [show s.operations[k]? = _ from hk]
    refine ⟨[.settles k false], ?_, ?_⟩
    · show (s.next config (.settles k false)).index.sequences = _
      rw [hgo, List.append_nil]
      rfl
    · show (s.next config (.settles k false)).reservedSize = _
      have hset : (s.saveSequences config.kind k results).operations =
          s.operations.set k (.saving s.writes.length) := rfl
      rw [hgo]
      exact reservedSize_set hk hset
  | cons item items ih =>
    have hgo : s.next config (.settles k false) =
        s.setOperation k (.clearing (results ++ [item]) items none) := by
      show s.goOn config.kind k false = _
      unfold goOn
      rw [show s.operations[k]? = _ from hk]
      rfl
    have hset : (s.setOperation k (.clearing (results ++ [item]) items none)).operations =
        s.operations.set k (.clearing (results ++ [item]) items none) := rfl
    obtain ⟨later, hlisted, hreserved⟩ := ih (hasOperation_set hk hset)
    refine ⟨.settles k false :: later, ?_, ?_⟩
    · rw [List.foldl_cons, hgo, hlisted, List.append_assoc]
      rfl
    · rw [List.foldl_cons, hgo, hreserved]
      exact reservedSize_set hk hset

theorem exceeds_of_not_reserves {a : Action} (h : ¬ Reserves config s a) :
    ∃ later : List Action, config.bucketLimit <
      totalSize ((a :: later).foldl (fun s a => s.next config a) s).index.sequences := by
  cases a with
  | identified k size =>
    cases size with
    | none => exact absurd trivial h
    | some size =>
      have hwrong : ∃ filename fileId, s.HasOperation k (.identifying filename fileId) ∧
          config.indexLength s.index + s.index.size + size ≤ config.bucketLimit ∧
          ¬ Fits config.bucketLimit s size := by
        by_contra hnone
        apply h
        intro filename fileId hk hcheck
        by_contra hfits
        exact hnone ⟨filename, fileId, hk, hcheck, hfits⟩
      obtain ⟨filename, fileId, hk, hcheck, hfits⟩ := hwrong
      let putting : Operation := .putting ⟨fileId, size, filename, fileId⟩ false
      have hnext : s.next config (.identified k (some size)) = s.setOperation k putting := by
        show s.identified config k (some size) = _
        unfold identified
        rw [show s.operations[k]? = _ from hk]
        exact if_neg (Nat.not_lt.mpr hcheck)
      have hset : (s.setOperation k putting).operations = s.operations.set k putting := rfl
      have hreserved : (s.setOperation k putting).reservedSize + 0 = s.reservedSize + size :=
        reservedSize_set hk hset
      simp only [List.foldl_cons, hnext]
      by_cases hlisted : totalSize s.index.sequences + s.reservedSize + size ≤
          config.bucketLimit
      · -- `clearIndex` may list too much again
        have hclearing : ∃ o ∈ s.operations,
            config.bucketLimit < o.relisted + s.reservedSize + size := by
          by_contra hnone
          push Not at hnone
          exact hfits ⟨hlisted, hnone⟩
        obtain ⟨o, ho, hexceeds⟩ := hclearing
        obtain ⟨results, items, removed, rfl⟩ : ∃ results items removed,
            o = .clearing results items removed := by
          cases o with
          | clearing results items removed => exact ⟨results, items, removed, rfl⟩
          | _ =>
            exfalso
            have hzero : config.bucketLimit < 0 + s.reservedSize + size := hexceeds
            omega
        obtain ⟨j, hj⟩ := List.mem_iff_getElem?.mp ho
        have hne : j ≠ k := by
          rintro rfl
          cases hj.symm.trans hk
        have hj' := (hasOperation_set_iff hset hne).mpr hj
        obtain ⟨first, hfirst, hsame⟩ := exists_clear_fails config hj'
        obtain ⟨later, hlater⟩ := exists_all_settle config
          (first.foldl (fun s a => s.next config a) (s.setOperation k putting))
        refine ⟨first ++ later, ?_⟩
        rw [List.foldl_append, hlater, hfirst, hsame]
        have hrelisted : config.bucketLimit <
            totalSize (results ++ items) + s.reservedSize + size := hexceeds
        omega
      · obtain ⟨later, hlater⟩ := exists_all_settle config (s.setOperation k putting)
        refine ⟨later, ?_⟩
        rw [hlater]
        show _ < totalSize s.index.sequences + _
        omega
  | _ => exact absurd trivial h

end StorageProxy

end TransformHub.Manager.StorageRouters
