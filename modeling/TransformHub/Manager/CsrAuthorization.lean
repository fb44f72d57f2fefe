import TransformHub.Manager.CsrEnrollmentSteps

/-!
# Authorization of issued certificates

A fingerprint should be authorized for a hub exactly when its certificate was issued under an
approved grant of the hub and it has not been revoked.
-/

namespace TransformHub.Manager.CsrEnrollment

open OrderedMap

def RedeemPc.issued? : RedeemPc → Option IssuedRecord
  | .writeRecord _ issued | .renameRecord _ issued => some issued
  | _ => none

def Pc.revokes? : Pc → Option String
  | .readIssued fingerprint256 _ | .clearRevoked _ fingerprint256 _ _ => some fingerprint256
  | .writeRevoked _ record _ | .renameRevoked _ record _ => some record.fingerprint256
  | _ => none

namespace Enrollment

variable (crypto : Crypto) (authority : ℕ → Authority)

def Signed (s : Enrollment) (csrHash : Digest) (fingerprint256 : String) : Prop :=
  ∃ pem, .signed csrHash pem ∈ s.log ∧ crypto.fingerprint256 pem = fingerprint256

/-- A certificate with the fingerprint was issued under an approved grant of the hub. -/
def IssuedFor (s : Enrollment) (fingerprint256 hubId : String) : Prop :=
  ∃ grant record, .issued grant record ∈ s.log ∧ .approved grant ∈ s.log ∧
    record.fingerprint256 = fingerprint256 ∧ grant.hubId = hubId

/-- Nothing that is stored in the file, and not revoked, is lost. -/
def Replaces (s : Enrollment) (file : String) (record : IssuedRecord) : Prop :=
  ∀ old, s.directory.files.get? file = some (.issued old) → old.revoked = true ∨
    old.fingerprint256 = record.fingerprint256 ∧ old.hubId = record.hubId

/-- No record of a certificate that is not revoked is replaced by that of another one, none is
stored while or after its certificate is revoked, and `openssl` signs no certificate twice. -/
def Keeps (s : Enrollment) : Action → Prop
  | .run pid =>
    match s.procs pid with
    | .redeem _ (.renameRecord record issued) =>
      s.Replaces (recordFile record.csrHash) issued ∧
        .revoked issued.fingerprint256 ∉ s.log ∧
          ∀ q, (s.procs q).revokes? ≠ some issued.fingerprint256
    | .renameRevoked file record _ => s.Replaces file record
    | _ => True
  | .sign _ pem => ∀ csrHash pem', .signed csrHash pem' ∈ s.log →
      crypto.fingerprint256 pem' ≠ crypto.fingerprint256 pem
  | _ => True

/-! ## The invariant -/

/-- What a process carries along has come about as it should. -/
def Backed (s : Enrollment) : Pc → Prop
  | .redeem call pc =>
    (∀ record, pc.grant? = some record →
      .approved record ∈ s.log ∧ record.hubId = call.request.hubId) ∧
    ∀ record issued, pc.grant? = some record → pc.issued? = some issued →
      s.Signed crypto record.csrHash issued.fingerprint256 ∧ issued.hubId = record.hubId ∧
        issued.revoked = false
  | .writeRevoked file record _ | .renameRevoked file record _ =>
    (∃ csrHash, file = recordFile csrHash ∧ s.Signed crypto csrHash record.fingerprint256) ∧
      s.IssuedFor record.fingerprint256 record.hubId
  | _ => True

/-- The files that a revoke has still to come to, when it returns. -/
def Pc.left? : Pc → Option (String × List String)
  | .readIssued fingerprint256 files => some (fingerprint256, files)
  | .writeRevoked file record files | .renameRevoked file record files =>
    some (record.fingerprint256, file :: files)
  | .clearRevoked _ fingerprint256 written files =>
    if written then some (fingerprint256, files) else none
  | _ => none

/-- A revoke comes to every file with its fingerprint. -/
def Covered (d : Directory) (pc : Pc) : Prop :=
  ∀ fingerprint256 files, Pc.left? pc = some (fingerprint256, files) → ∀ file record,
    d.files.get? file = some (.issued record) → record.fingerprint256 = fingerprint256 →
      record.revoked = false → file ∈ files

/-- What is in the directory has come about as it should. -/
structure Rooted (s : Enrollment) : Prop where
  cert : ∀ csrHash pem, s.directory.work.get? (.cert, csrHash) = some pem →
    .signed csrHash pem ∈ s.log
  backed : ∀ p, s.Backed crypto (s.procs p)
  grant : ∀ file record, s.directory.files.get? file = some (.grant record) →
    record.consumed = false → .approved record ∈ s.log
  stored : ∀ csrHash record,
    s.directory.files.get? (recordFile csrHash) = some (.issued record) →
      s.Signed crypto csrHash record.fingerprint256 ∧ s.IssuedFor record.fingerprint256 record.hubId

structure Inv (s : Enrollment) : Prop where
  cert : ∀ csrHash pem, s.directory.work.get? (.cert, csrHash) = some pem →
    .signed csrHash pem ∈ s.log
  unique : ∀ csrHash csrHash' fp, s.Signed crypto csrHash fp → s.Signed crypto csrHash' fp →
    csrHash = csrHash'
  backed : ∀ p, s.Backed crypto (s.procs p)
  covered : ∀ p, Covered s.directory (s.procs p)
  grant : ∀ file record, s.directory.files.get? file = some (.grant record) →
    record.consumed = false → .approved record ∈ s.log
  stored : ∀ csrHash record,
    s.directory.files.get? (recordFile csrHash) = some (.issued record) →
      s.Signed crypto csrHash record.fingerprint256 ∧
      s.IssuedFor record.fingerprint256 record.hubId ∧
      (record.revoked = true ∨ .revoked record.fingerprint256 ∉ s.log)
  kept : ∀ grant record, .issued grant record ∈ s.log → .revoked record.fingerprint256 ∉ s.log →
    ∃ csrHash record', s.directory.files.get? (recordFile csrHash) = some (.issued record') ∧
      record'.fingerprint256 = record.fingerprint256 ∧ record'.hubId = grant.hubId ∧
        record'.revoked = false

theorem inv_start : start.Inv crypto where
  cert := nofun
  unique := fun _ _ _ h => by
    obtain ⟨_, h, _⟩ := h
    cases h
  backed := fun _ => trivial
  covered := nofun
  grant := nofun
  stored := nofun
  kept := nofun

section Steps

variable {crypto authority} {s s' : Enrollment}

theorem Signed.mono (hlog : s.log ⊆ s'.log) {h : Digest} {fp : String} (hs : s.Signed crypto h fp) :
    s'.Signed crypto h fp := by
  obtain ⟨pem, hpem, hfp⟩ := hs
  exact ⟨pem, hlog hpem, hfp⟩

theorem IssuedFor.mono (hlog : s.log ⊆ s'.log) {fp hub : String} (hs : s.IssuedFor fp hub) :
    s'.IssuedFor fp hub := by
  obtain ⟨grant, record, hissued, happroved, h⟩ := hs
  exact ⟨grant, record, hlog hissued, hlog happroved, h⟩

theorem Backed.mono (hlog : s.log ⊆ s'.log) {pc : Pc} (h : s.Backed crypto pc) :
    s'.Backed crypto pc := by
  cases pc with
  | redeem call pc =>
    refine ⟨fun record hrecord => ?_, fun record issued hrecord hissued => ?_⟩
    · obtain ⟨happroved, hhub⟩ := h.1 record hrecord
      exact ⟨hlog happroved, hhub⟩
    · obtain ⟨hsigned, hhub, hfresh⟩ := h.2 record issued hrecord hissued
      exact ⟨hsigned.mono hlog, hhub, hfresh⟩
  | writeRevoked file record files | renameRevoked file record files =>
    obtain ⟨⟨csrHash, hfile, hsigned⟩, hissued⟩ := h
    exact ⟨⟨csrHash, hfile, hsigned.mono hlog⟩, hissued.mono hlog⟩
  | _ => trivial

theorem Inv.rooted (h : s.Inv crypto) : s.Rooted crypto where
  cert := h.cert
  backed := h.backed
  grant := h.grant
  stored csrHash record hget :=
    have h := h.stored csrHash record hget
    ⟨h.1, h.2.1⟩

theorem Rooted.inv (hr : s.Rooted crypto)
    (unique : ∀ csrHash csrHash' fp, s.Signed crypto csrHash fp → s.Signed crypto csrHash' fp →
      csrHash = csrHash')
    (covered : ∀ p, Covered s.directory (s.procs p))
    (live : ∀ csrHash record,
      s.directory.files.get? (recordFile csrHash) = some (.issued record) →
        record.revoked = true ∨ .revoked record.fingerprint256 ∉ s.log)
    (kept : ∀ grant record, .issued grant record ∈ s.log → .revoked record.fingerprint256 ∉ s.log →
      ∃ csrHash record', s.directory.files.get? (recordFile csrHash) = some (.issued record') ∧
        record'.fingerprint256 = record.fingerprint256 ∧ record'.hubId = grant.hubId ∧
          record'.revoked = false) : s.Inv crypto :=
  { hr with
    unique, covered, kept
    stored := fun csrHash record hget =>
      have h := hr.stored csrHash record hget
      ⟨h.1, h.2, live csrHash record hget⟩ }

theorem Rooted.setPc (h : s.Rooted crypto) (pid : ℕ) {pc : Pc} (hpc : s.Backed crypto pc) :
    (s.setPc pid pc).Rooted crypto :=
  { h with
    backed := by
      intro q
      rw [setPc_procs]
      split_ifs
      · exact hpc
      · exact h.backed q }

theorem Inv.setPc (h : s.Inv crypto) (pid : ℕ) {pc : Pc} (hbacked : s.Backed crypto pc)
    (hcovered : Covered s.directory pc) : (s.setPc pid pc).Inv crypto :=
  { h with
    backed := (h.rooted.setPc pid hbacked).backed
    covered := by
      intro q
      rw [setPc_procs]
      split_ifs
      · exact hcovered
      · exact h.covered q }

theorem stepRedeem_issued {a : Authority} {now pid : ℕ} {d : Directory} {call : RedeemCall}
    {pc pc' : RedeemPc} (h : (stepRedeem crypto a now pid d call pc).pc = .redeem call pc')
    {issued : IssuedRecord} (hissued : pc'.issued? = some issued) :
    (pc.issued? = some issued ∧ pc.grant? = pc'.grant?) ∨
      ∃ record pem, pc = .readCert record ∧ pc'.grant? = some record ∧
        d.work.get? (.cert, record.csrHash) = some pem ∧
          issued = issuedRecord crypto a call pem := by
  cases pc with
  | readCert record =>
    simp only [stepRedeem] at h
    split at h
    next =>
      cases h
      cases hissued
    next pem hpem =>
      split_ifs at h
      · cases h
        cases hissued
        exact .inr ⟨record, pem, rfl, rfl, hpem, rfl⟩
      · cases h
        cases hissued
  | writeRecord record issued' =>
    simp only [stepRedeem] at h
    split_ifs at h
    · cases h
      cases hissued
    · cases h
      exact .inl ⟨hissued, rfl⟩
  | cleanup record response left =>
    cases left with
    | cons kind left =>
      cases h
      cases hissued
    | nil =>
      cases response <;>
      · cases h
        cases hissued
  | unlock response => cases response <;> cases h
  | writeSrl record =>
    simp only [stepRedeem, writeWork] at h
    split_ifs at h <;>
    · cases h
      cases hissued
  | _ =>
    simp only [stepRedeem, writeWork] at h
    repeat' split at h
    all_goals
      cases h
      try cases hissued

theorem Rooted.backed_step (h : s.Rooted crypto) (hn : s.Named) (pid : ℕ) :
    s.Backed crypto
      (stepProcess crypto (authority pid) s.now pid s.directory (s.procs pid)).pc := by
  have hb := h.backed pid
  cases hpc : s.procs pid with
  | redeem call pc =>
    rw [hpc] at hb
    obtain ⟨hgrant, hissued⟩ := hb
    rcases stepRedeem_pc crypto (authority pid) s.now pid s.directory call pc with hidle | ⟨pc', hpc', hnext⟩
    · simp only [stepProcess, hidle]
      trivial
    · have hgrant' : ∀ record, pc'.grant? = some record →
          .approved record ∈ s.log ∧ record.hubId = call.request.hubId := by
        intro record hrecord
        rcases hnext record hrecord with hsame | ⟨-, -, hget, hconsumed, haccepts⟩
        · exact hgrant record hsame
        -- the grant has just been read
        · refine ⟨h.grant _ record (Directory.grant?_eq_some.mp hget) hconsumed, ?_⟩
          simp only [acceptsGrant, Bool.and_eq_true, decide_eq_true_eq] at haccepts
          exact haccepts.1.1.1.2
      simp only [stepProcess, hpc']
      refine ⟨hgrant', fun record issued hrecord hsome => ?_⟩
      rcases stepRedeem_issued hpc' hsome with ⟨hsame, hsame'⟩ |
        ⟨record', pem, -, hrecord', hpem, rfl⟩
      · exact hissued record issued (hsame'.trans hrecord) hsame
      -- the certificate has just been read
      · rw [hrecord', Option.some.injEq] at hrecord
        subst hrecord
        exact ⟨⟨pem, h.cert _ pem hpem, rfl⟩, (hgrant' record' hrecord').2.symm, rfl⟩
  | readIssued fingerprint256 files =>
    cases files with
    | nil => trivial
    | cons file files =>
      simp only [stepProcess]
      split
      next record hget =>
        split_ifs
        · have hget := Directory.issued?_eq_some.mp hget
          obtain ⟨csrHash, rfl⟩ := hn.1.issued hget
          obtain ⟨hsigned, hfor⟩ := h.stored csrHash record hget
          exact ⟨⟨csrHash, rfl, hsigned⟩, hfor⟩
        · trivial
      next => trivial
  | writeRevoked file record files =>
    rw [hpc] at hb
    simp only [stepProcess]
    split_ifs
    · trivial
    · exact hb
  | clearRevoked file fingerprint256 written files | writeApproval record =>
    simp only [stepProcess]
    split_ifs <;> trivial
  | idle | renameApproval record | clearApproval record | renameRevoked file record files => trivial

theorem covered_redeem (d : Directory) (call : RedeemCall) (pc : RedeemPc) :
    Covered d (.redeem call pc) := nofun

section

variable {a : Authority} {now pid : ℕ} {d : Directory}

theorem covered_stepRedeem (call : RedeemCall)
    (pc : RedeemPc) : Covered (stepRedeem crypto a now pid d call pc).directory
      (stepRedeem crypto a now pid d call pc).pc := by
  rcases stepRedeem_pc crypto a now pid d call pc with hidle | ⟨pc', hpc', -⟩
  · rw [hidle]
    exact nofun
  · rw [hpc']
    exact covered_redeem _ call pc'

theorem covered_step {pc : Pc}
    (h : Covered d pc) :
    Covered (stepProcess crypto a now pid d pc).directory
      (stepProcess crypto a now pid d pc).pc := by
  cases pc with
  | redeem call pc => exact covered_stepRedeem call pc
  | readIssued fingerprint256 files =>
    cases files with
    | nil => intro _ _ h; cases h
    | cons file files =>
      have hall := h fingerprint256 (file :: files) rfl
      simp only [stepProcess]
      split
      next record hget =>
        have hget := Directory.issued?_eq_some.mp hget
        split_ifs with hfp
        · intro fp left hleft file' record' hget' hfp' hlive
          cases hleft
          exact hall file' record' hget' (hfp'.trans hfp) hlive
        · intro fp left hleft file' record' hget' hfp' hlive
          cases hleft
          rcases List.mem_cons.mp (hall file' record' hget' hfp' hlive) with rfl | hmem
          · rw [hget, Option.some.injEq, JsonFile.issued.injEq] at hget'
            exact absurd (hget' ▸ hfp') hfp
          · exact hmem
      next hnone =>
        intro fp left hleft file' record' hget' hfp' hlive
        cases hleft
        rcases List.mem_cons.mp (hall file' record' hget' hfp' hlive) with rfl | hmem
        · rw [Directory.issued?_eq_some.mpr hget'] at hnone
          cases hnone
        · exact hmem
  | writeRevoked file record files =>
    simp only [stepProcess]
    split_ifs
    · intro _ _ h; cases h
    · exact h
  | renameRevoked file record files =>
    intro fp left hleft file' record' hget' hfp' hlive
    cases hleft
    have hget' : (d.files.set file (.issued { record with revoked := true })).get? file' =
        some (.issued record') := hget'
    rw [get?_set] at hget'
    split_ifs at hget' with heq
    · cases hget'
      cases hlive
    · have hmem := h record.fingerprint256 (file :: files) rfl file' record' hget' hfp' hlive
      exact (List.mem_cons.mp hmem).resolve_left (Ne.symm heq)
  | clearRevoked file fingerprint256 written files =>
    cases written with
    | false => intro _ _ h; cases h
    | true => exact h
  | writeApproval record =>
    simp only [stepProcess]
    split_ifs <;> (intro _ _ h; cases h)
  | idle | renameApproval record | clearApproval record => intro _ _ h; cases h

theorem stepProcess_cert {pc : Pc} {h : Digest}
    {pem : String}
    (hget : (stepProcess crypto a now pid d pc).directory.work.get? (.cert, h) = some pem) :
    d.work.get? (.cert, h) = some pem := by
  have hset : ∀ (kind : WorkFile) (h' : Digest) (text : String), kind ≠ .cert →
      (d.work.set (kind, h') text).get? (.cert, h) = some pem →
        d.work.get? (.cert, h) = some pem := by
    intro kind h' text hkind hg
    rwa [get?_set_of_ne _ (by simp [hkind])] at hg
  have hdelete : ∀ (kind : WorkFile) (h' : Digest),
      (d.work.delete (kind, h')).get? (.cert, h) = some pem →
        d.work.get? (.cert, h) = some pem := by
    intro kind h' hg
    rw [get?_delete] at hg
    split_ifs at hg
    exact hg
  have hwrite : ∀ (call : RedeemCall) (record : GrantRecord) (kind : WorkFile) (text : String)
      (next : RedeemPc), kind ≠ .cert →
        (writeWork d call record kind text next).directory.work.get? (.cert, h) = some pem →
          d.work.get? (.cert, h) = some pem := by
    intro call record kind text next hkind hg
    unfold writeWork at hg
    split_ifs at hg
    · exact hg
    · exact hset kind _ _ hkind hg
  cases pc with
  | redeem call pc =>
    cases pc with
    | writeCsr record => exact hwrite call record .csr _ _ (by decide) hget
    | writeExt record => exact hwrite call record .ext _ _ (by decide) hget
    | writeSrl record => exact hwrite call record .srl _ _ (by decide) hget
    | cleanup record response left =>
      cases left with
      | cons kind left => exact hdelete kind _ hget
      | nil => cases response <;> exact hget
    | unlock response => cases response <;> exact hget
    | _ =>
      simp only [stepProcess, stepRedeem] at hget
      repeat' split at hget
      all_goals exact hget
  | readIssued fingerprint256 files =>
    cases files with
    | nil => exact hget
    | cons file files =>
      simp only [stepProcess] at hget
      repeat' split at hget
      all_goals exact hget
  | _ =>
    simp only [stepProcess] at hget
    repeat' split at hget
    all_goals exact hget

end

/-! ### One file operation -/

variable (crypto) in
/-- What holds of the outcome of every file operation. -/
structure Goes (s : Enrollment) (o : Outcome) : Prop where
  backed : s.Backed crypto o.pc
  covered : Covered o.directory o.pc
  cert : ∀ h pem, o.directory.work.get? (.cert, h) = some pem →
    s.directory.work.get? (.cert, h) = some pem
  unsigned : ∀ h pem, .signed h pem ∉ o.events

theorem goes_step (h : s.Inv crypto) (hn : s.Named) (pid : ℕ) :
    s.Goes crypto
      (stepProcess crypto (authority pid) s.now pid s.directory (s.procs pid)) where
  backed := h.rooted.backed_step hn pid
  covered := covered_step (h.covered pid)
  cert := fun _ _ => stepProcess_cert
  unsigned := (stepProcess_effect _).unsigned

section Outcomes

variable {pid : ℕ} {o : Outcome}

theorem log_subset : s.log ⊆ (s.apply pid o).log := List.subset_append_left _ _

theorem Rooted.effect (h : s.Rooted crypto) (hbacked : s.Backed crypto o.pc)
    (hcert : ∀ h pem, o.directory.work.get? (.cert, h) = some pem →
      s.directory.work.get? (.cert, h) = some pem)
    (heff : Effect crypto s.directory (s.procs pid) o) : (s.apply pid o).Rooted crypto where
  cert csrHash pem hget := log_subset (h.cert csrHash pem (hcert csrHash pem hget))
  backed q := by
    rw [apply_procs]
    split_ifs
    · exact hbacked.mono log_subset
    · exact (h.backed q).mono log_subset
  grant file record hget hconsumed := by
    have hget : o.directory.files.get? file = some (.grant record) := hget
    have hold : s.directory.files.get? file = some (.grant record) →
        .approved record ∈ (s.apply pid o).log := fun hget =>
      log_subset (h.grant file record hget hconsumed)
    generalize s.procs pid = pc at heff
    cases heff with
    | quiet files | redeemed _ _ _ files | returned _ files => exact hold (files ▸ hget)
    | approved record' files events =>
      rw [files, get?_set] at hget
      split_ifs at hget
      · cases hget
        exact List.mem_append_right _ (events ▸ List.mem_singleton_self _)
      · exact hold hget
    | consumed _ _ _ files =>
      rw [files, get?_set] at hget
      split_ifs at hget
      · cases hget
        cases hconsumed
      · exact hold hget
    | recorded _ _ _ files | marked _ _ _ files =>
      rw [files, get?_set] at hget
      split_ifs at hget
      · cases hget
      · exact hold hget
  stored csrHash record hget := by
    have hget : o.directory.files.get? (recordFile csrHash) = some (.issued record) := hget
    have hb := h.backed pid
    have hold : s.directory.files.get? (recordFile csrHash) = some (.issued record) →
        (s.apply pid o).Signed crypto csrHash record.fingerprint256 ∧
          (s.apply pid o).IssuedFor record.fingerprint256 record.hubId := fun hget =>
      (h.stored csrHash record hget).imp (Signed.mono log_subset) (IssuedFor.mono log_subset)
    generalize s.procs pid = pc at heff hb
    cases heff with
    | quiet files | redeemed _ _ _ files | returned _ files => exact hold (files ▸ hget)
    | approved _ files | consumed _ _ _ files =>
      rw [files, get?_set] at hget
      split_ifs at hget
      · cases hget
      · exact hold hget
    | recorded call grant issued files events =>
      rw [files, get?_set] at hget
      split_ifs at hget with heq
      · cases hget
        obtain ⟨hsigned, hhub, -⟩ := hb.2 grant record rfl rfl
        have hstored : .issued grant record ∈ (s.apply pid o).log :=
          List.mem_append_right _ (events ▸ List.mem_singleton_self _)
        exact ⟨recordFile_injective heq ▸ hsigned.mono log_subset,
          grant, record, hstored, log_subset (hb.1 grant rfl).1, rfl, hhub.symm⟩
      · exact hold hget
    | marked file old rest files =>
      rw [files, get?_set] at hget
      split_ifs at hget with heq
      · cases hget
        obtain ⟨⟨csrHash', rfl, hsigned⟩, hfor⟩ := hb
        exact ⟨recordFile_injective heq ▸ hsigned.mono log_subset, hfor.mono log_subset⟩
      · exact hold hget

theorem Goes.signed (hg : s.Goes crypto o) {h : Digest} {fp : String} :
    (s.apply pid o).Signed crypto h fp ↔ s.Signed crypto h fp := by
  refine ⟨?_, Signed.mono log_subset⟩
  rintro ⟨pem, hpem, hfp⟩
  rcases List.mem_append.mp hpem with hpem | hpem
  · exact ⟨pem, hpem, hfp⟩
  · exact absurd hpem (hg.unsigned h pem)

theorem Goes.unique (hg : s.Goes crypto o) (h : s.Inv crypto) {csrHash csrHash' : Digest}
    {fp : String} (hs : (s.apply pid o).Signed crypto csrHash fp)
    (hs' : (s.apply pid o).Signed crypto csrHash' fp) : csrHash = csrHash' :=
  h.unique csrHash csrHash' fp (hg.signed.mp hs) (hg.signed.mp hs')

theorem Goes.covered_apply (hg : s.Goes crypto o) (h : s.Inv crypto)
    (hlive : ∀ file record, o.directory.files.get? file = some (.issued record) →
      record.revoked = false → s.directory.files.get? file = some (.issued record) ∨
        ∀ q, (s.procs q).revokes? ≠ some record.fingerprint256) (q : ℕ) :
    Covered (s.apply pid o).directory ((s.apply pid o).procs q) := by
  rw [apply_procs]
  split_ifs
  · exact hg.covered
  · intro fp files hleft file record hget hfp hunrevoked
    rcases hlive file record hget hunrevoked with hold | hnobody
    · exact h.covered q fp files hleft file record hold hfp hunrevoked
    · refine absurd ?_ (hnobody q)
      rw [hfp]
      cases hpc : s.procs q with
      | readIssued fp' files' => rw [hpc] at hleft; cases hleft; rfl
      | writeRevoked file' record' files' => rw [hpc] at hleft; cases hleft; rfl
      | renameRevoked file' record' files' => rw [hpc] at hleft; cases hleft; rfl
      | clearRevoked file' fp' written files' =>
        rw [hpc] at hleft
        cases written <;> cases hleft
        rfl
      | _ => rw [hpc] at hleft; cases hleft

theorem Inv.same (h : s.Inv crypto) (hr : (s.apply pid o).Rooted crypto) (hg : s.Goes crypto o)
    (hfiles : o.directory.files = s.directory.files)
    (hissued : ∀ grant record, .issued grant record ∉ o.events)
    (hrevoked : ∀ fp, .revoked fp ∈ o.events → ∀ file record,
      s.directory.files.get? file = some (.issued record) → record.fingerprint256 = fp →
        record.revoked = true) : (s.apply pid o).Inv crypto := by
  apply hr.inv
  case unique => exact fun _ _ _ => hg.unique h
  case covered => exact hg.covered_apply h fun file record hget _ => .inl (hfiles ▸ hget)
  case live =>
    intro h' record hget
    have hget : o.directory.files.get? (recordFile h') = some (.issued record) := hget
    rw [hfiles] at hget
    by_cases hr : record.revoked = true
    · exact .inl hr
    · refine .inr fun hmem => ?_
      rcases List.mem_append.mp hmem with hmem | hmem
      · exact absurd hmem ((h.stored h' record hget).2.2.resolve_left hr)
      · exact hr (hrevoked _ hmem _ record hget rfl)
  case kept =>
    intro grant record hmem hlive
    rcases List.mem_append.mp hmem with hmem | hmem
    · obtain ⟨h', record', hget, hrest⟩ := h.kept grant record hmem fun hr => hlive (log_subset hr)
      refine ⟨h', record', ?_, hrest⟩
      show o.directory.files.get? _ = _
      rw [hfiles]
      exact hget
    · exact absurd hmem (hissued grant record)

theorem Inv.setGrant (h : s.Inv crypto) (hr : (s.apply pid o).Rooted crypto)
    (hg : s.Goes crypto o) {tokenHash : Digest} {grant : GrantRecord}
    (hfiles : o.directory.files = s.directory.files.set (grantFile tokenHash) (.grant grant))
    (hissued : ∀ grant record, .issued grant record ∉ o.events)
    (hrevoked : ∀ fp, .revoked fp ∉ o.events) : (s.apply pid o).Inv crypto := by
  have hget : ∀ file record, o.directory.files.get? file = some (.issued record) →
      s.directory.files.get? file = some (.issued record) := by
    intro file record hget
    rw [hfiles, get?_set] at hget
    split_ifs at hget
    · cases hget
    · exact hget
  apply hr.inv
  case unique => exact fun _ _ _ => hg.unique h
  case covered => exact hg.covered_apply h fun file record hg' _ => .inl (hget file record hg')
  case live =>
    intro h' record hget'
    refine (h.stored h' record (hget _ record hget')).2.2.imp_right fun hlive hmem => ?_
    rcases List.mem_append.mp hmem with hmem | hmem
    · exact hlive hmem
    · exact hrevoked _ hmem
  case kept =>
    intro grant' record hmem hlive
    rcases List.mem_append.mp hmem with hmem | hmem
    · obtain ⟨h', record', hget', hrest⟩ :=
        h.kept grant' record hmem fun hr => hlive (log_subset hr)
      refine ⟨h', record', ?_, hrest⟩
      show o.directory.files.get? _ = _
      rw [hfiles, get?_set_of_ne _ (grantFile_ne_recordFile tokenHash h')]
      exact hget'
    · exact absurd hmem (hissued grant' record)

theorem Inv.setIssued (h : s.Inv crypto) (hr : (s.apply pid o).Rooted crypto) (record : IssuedRecord)
    (hg : s.Goes crypto o) {csrHash : Digest}
    (hfiles : o.directory.files = s.directory.files.set (recordFile csrHash) (.issued record))
    (hreplaces : s.Replaces (recordFile csrHash) record)
    (hlive : record.revoked = true ∧ .revoked record.fingerprint256 ∈ o.events ∨
      record.revoked = false ∧ .revoked record.fingerprint256 ∉ (s.apply pid o).log ∧
        ∀ q, (s.procs q).revokes? ≠ some record.fingerprint256)
    (hrevoked : ∀ fp, .revoked fp ∈ o.events → fp = record.fingerprint256)
    (hissued : ∀ grant record', .issued grant record' ∈ o.events →
      record'.fingerprint256 = record.fingerprint256 ∧ grant.hubId = record.hubId) :
    (s.apply pid o).Inv crypto := by
  have hself : o.directory.files.get? (recordFile csrHash) = some (.issued record) := by
    rw [hfiles, get?_set_self]
  apply hr.inv
  case unique => exact fun _ _ _ => hg.unique h
  case covered =>
    refine hg.covered_apply h fun file record' hget hunrevoked => ?_
    rw [hfiles, get?_set] at hget
    split_ifs at hget
    · cases hget
      rcases hlive with ⟨hr, -⟩ | ⟨-, -, hnobody⟩
      · rw [hr] at hunrevoked
        cases hunrevoked
      · exact .inr hnobody
    · exact .inl hget
  case live =>
    intro h' record' hget
    have hsigned' := (hr.stored h' record' hget).1
    have hget : o.directory.files.get? (recordFile h') = some (.issued record') := hget
    rw [hfiles, get?_set] at hget
    split_ifs at hget with heq
    · cases hget
      exact hlive.imp And.left fun h => h.2.1
    · refine (h.stored h' record' hget).2.2.imp_right fun hlive' hmem => ?_
      rcases List.mem_append.mp hmem with hmem | hmem
      · exact hlive' hmem
      -- no other file has the fingerprint
      · rw [hrevoked _ hmem] at hsigned'
        exact heq (congrArg recordFile (hg.unique h (hr.stored csrHash record hself).1 hsigned'))
  case kept =>
    intro grant record' hmem hnot
    rcases List.mem_append.mp hmem with hmem | hmem
    · obtain ⟨h', record'', hget, hfp, hhub, hunrevoked⟩ :=
        h.kept grant record' hmem fun hr => hnot (log_subset hr)
      by_cases heq : recordFile csrHash = recordFile h'
      · rcases hreplaces record'' (heq ▸ hget) with hr | ⟨hfp', hhub'⟩
        · rw [hr] at hunrevoked
          cases hunrevoked
        · refine ⟨csrHash, record, hself, hfp'.symm.trans hfp, hhub'.symm.trans hhub, ?_⟩
          rcases hlive with ⟨-, hin⟩ | ⟨hr, -⟩
          · rw [← hfp', hfp] at hin
            exact absurd (List.mem_append_right _ hin) hnot
          · exact hr
      · refine ⟨h', record'', ?_, hfp, hhub, hunrevoked⟩
        show o.directory.files.get? _ = _
        rw [hfiles, get?_set_of_ne _ heq]
        exact hget
    · obtain ⟨hfp, hhub⟩ := hissued grant record' hmem
      refine ⟨csrHash, record, hself, hfp.symm, hhub.symm, ?_⟩
      rcases hlive with ⟨-, hin⟩ | ⟨hr, -⟩
      · rw [← hfp] at hin
        exact absurd (List.mem_append_right _ hin) hnot
      · exact hr

theorem Inv.effect (h : s.Inv crypto) (hk : s.Keeps crypto (.run pid))
    (hg : s.Goes crypto o) {pc : Pc} (hpc : s.procs pid = pc)
    (heff : Effect crypto s.directory pc o) : (s.apply pid o).Inv crypto := by
  have hr := h.rooted.effect hg.backed hg.cert (hpc ▸ heff)
  have hb := h.backed pid
  rw [hpc] at hb
  simp only [Keeps, hpc] at hk
  cases heff with
  | quiet files events => exact h.same hr hg files (by rw [events]; simp) (by rw [events]; simp)
  | redeemed call csrHash response files events _ =>
    exact h.same hr hg files (by rw [events]; simp) (by rw [events]; simp)
  | returned fp files events _ =>
    refine h.same hr hg files (by rw [events]; simp) fun fp' hmem file record hget hfp => ?_
    rw [events, List.mem_singleton, Event.revoked.injEq] at hmem
    have hcovered := h.covered pid
    rw [hpc] at hcovered
    by_contra hlive
    have hleft := hcovered fp [] rfl file record hget (hfp.trans hmem) (by simpa using hlive)
    cases hleft
  | approved record files events _ =>
    exact h.setGrant hr hg files (by rw [events]; simp) (by rw [events]; simp)
  | consumed call record response files events _ =>
    exact h.setGrant hr hg files (by rw [events]; simp) (by rw [events]; simp)
  | recorded call record issued files events _ =>
    obtain ⟨-, hhub, hfresh⟩ := hb.2 record issued rfl rfl
    obtain ⟨hreplaces, hnot, hnobody⟩ := hk
    refine h.setIssued hr issued hg files hreplaces (.inr ⟨hfresh, ?_, hnobody⟩)
      (by rw [events]; simp) ?_
    · intro hmem
      rcases List.mem_append.mp hmem with hmem | hmem
      · exact hnot hmem
      · rw [events] at hmem
        simp at hmem
    · intro grant record' hmem
      rw [events, List.mem_singleton, Event.issued.injEq] at hmem
      obtain ⟨rfl, rfl⟩ := hmem
      exact ⟨rfl, hhub.symm⟩
  | marked file record rest files events _ =>
    obtain ⟨⟨csrHash, rfl, -⟩, -⟩ := hb
    refine h.setIssued hr { record with revoked := true } hg files hk (.inl ⟨rfl, ?_⟩)
      (by rw [events]; simp) (by rw [events]; simp)
    rw [events]
    exact List.mem_singleton.mpr rfl

end Outcomes

theorem Rooted.sign (h : s.Rooted crypto) {pid : ℕ} (pem : String) {call : RedeemCall}
    {record : GrantRecord} (hpc : s.procs pid = .redeem call (.sign record)) :
    (s.apply pid ⟨s.directory.setWork .cert record.csrHash pem, .redeem call (.readCert record),
      [.signed record.csrHash pem]⟩).Rooted crypto where
  cert csrHash pem' hget := by
    have hget : (s.directory.work.set (.cert, record.csrHash) pem).get? (.cert, csrHash) = some pem' :=
      hget
    rw [get?_set] at hget
    split_ifs at hget with heq
    · cases hget
      cases heq
      exact List.mem_append_right _ (List.mem_singleton_self _)
    · exact log_subset (h.cert csrHash pem' hget)
  backed q := by
    rw [apply_procs]
    split_ifs
    · have hb := h.backed pid
      rw [hpc] at hb
      exact Backed.mono log_subset ⟨hb.1, fun _ _ _ h => by cases h⟩
    · exact (h.backed q).mono log_subset
  grant file record' hget hconsumed := log_subset (h.grant file record' hget hconsumed)
  stored csrHash record' hget :=
    (h.stored csrHash record' hget).imp (.mono log_subset) (.mono log_subset)

theorem Inv.sign (h : s.Inv crypto) {pid : ℕ} {pem : String} (hk : s.Keeps crypto (.sign pid pem))
    {call : RedeemCall} {record : GrantRecord} (hpc : s.procs pid = .redeem call (.sign record)) :
    (s.apply pid ⟨s.directory.setWork .cert record.csrHash pem, .redeem call (.readCert record),
      [.signed record.csrHash pem]⟩).Inv crypto := by
  have hold : ∀ e, e ∈ s.log ++ [.signed record.csrHash pem] →
      e = .signed record.csrHash pem ∨ e ∈ s.log := by
    intro e he
    rw [List.mem_append, List.mem_singleton] at he
    exact he.symm
  apply (h.rooted.sign pem hpc).inv
  case unique =>
    rintro h1 h2 fp ⟨pem1, hpem1, hfp1⟩ ⟨pem2, hpem2, hfp2⟩
    rcases hold _ hpem1 with heq1 | hmem1
    · cases heq1
      rcases hold _ hpem2 with heq2 | hmem2
      · cases heq2
        rfl
      · exact absurd (hfp2.trans hfp1.symm) (hk h2 pem2 hmem2)
    · rcases hold _ hpem2 with heq2 | hmem2
      · cases heq2
        exact absurd (hfp1.trans hfp2.symm) (hk h1 pem1 hmem1)
      · exact h.unique h1 h2 fp ⟨pem1, hmem1, hfp1⟩ ⟨pem2, hmem2, hfp2⟩
  case covered =>
    intro q
    rw [apply_procs]
    split_ifs
    · exact covered_redeem _ _ _
    · exact h.covered q
  case live =>
    intro h' record' hget
    refine (h.stored h' record' hget).2.2.imp_right fun hlive hmem => ?_
    rcases hold _ hmem with heq | hmem
    · cases heq
    · exact hlive hmem
  case kept =>
    intro grant record' hmem hnot
    rcases hold _ hmem with heq | hmem
    · cases heq
    · exact h.kept grant record' hmem fun hr => hnot (log_subset hr)

theorem Rooted.next (h : s.Rooted crypto) (hn : s.Named) (a : Action) :
    (s.next crypto authority a).Rooted crypto := by
  cases a with
  | time now => exact { h with }
  | approve pid request operatorApproval token =>
    simp only [Enrollment.next]
    split_ifs
    · exact h.setPc pid trivial
    · exact h
  | redeem pid request grant =>
    simp only [Enrollment.next]
    split_ifs
    · exact h.setPc pid ⟨fun _ h => (by cases h), fun _ _ h => by cases h⟩
    · exact h
  | revoke pid fingerprint256 files =>
    simp only [Enrollment.next]
    split_ifs
    · exact h.setPc pid trivial
    · exact h
  | run pid => exact h.effect (h.backed_step hn pid) (fun _ _ => stepProcess_cert) (stepProcess_effect _)
  | sign pid pem =>
    simp only [Enrollment.next]
    split
    next call record hpc =>
      split_ifs
      · exact h.sign pem hpc
      · exact h
    next => exact h
  | crash pid => exact h.setPc pid trivial

theorem Inv.next (h : s.Inv crypto) (hn : s.Named) {a : Action} (hk : s.Keeps crypto a) :
    (s.next crypto authority a).Inv crypto := by
  cases a with
  | time now => exact { h with }
  | approve pid request operatorApproval token =>
    simp only [Enrollment.next]
    split_ifs
    · exact h.setPc pid trivial fun _ _ h => by cases h
    · exact h
  | redeem pid request grant =>
    simp only [Enrollment.next]
    split_ifs
    · exact h.setPc pid ⟨fun _ h => (by cases h), fun _ _ h => by cases h⟩
        (covered_redeem _ _ _)
    · exact h
  | revoke pid fingerprint256 files =>
    simp only [Enrollment.next]
    split_ifs with hstart
    · refine h.setPc pid trivial fun fp left hleft file record hget _ _ => ?_
      cases hleft
      rw [hstart.2.mem_iff, hn.1.mem_recordFiles]
      exact ⟨record, hget⟩
    · exact h
  | run pid => exact h.effect hk (goes_step h hn pid) rfl (stepProcess_effect _)
  | sign pid pem =>
    simp only [Enrollment.next]
    split
    next call record hpc =>
      split_ifs
      · exact h.sign hk hpc
      · exact h
    next => exact h
  | crash pid => exact h.setPc pid trivial fun _ _ h => by cases h

theorem inv_reachable (h : (system crypto authority).Reachable (Keeps crypto) s) :
    s.Inv crypto := by
  refine h.invariant (fun s hs => ?_) fun s a s' hr hi hk hs => ?_
  · cases hs
    exact inv_start crypto
  · cases hs
    exact hi.next (named_reachable hr) hk

/-- Whatever the processes do, the certificates that are authorized for a hub were signed and issued
under approved grants of the hub, and only approved grants can be redeemed. -/
theorem authorized_approved (as : List Action) :
    let s := as.foldl (Enrollment.next crypto authority) start
    (∀ fp hubId, s.directory.isAuthorized true fp hubId = true → ∃ csrHash hub,
      s.Signed crypto csrHash fp ∧ s.IssuedFor fp hub ∧ (hubId = "" ∨ hub = hubId)) ∧
    ∀ hash record, s.directory.grant? hash = some record → record.consumed = false →
      .approved record ∈ s.log := by
  intro s
  have hr : (system crypto authority).Reachable System.anyStep s := System.reachable_foldl as
  have hn : s.Named := named_reachable hr
  have h : s.Rooted crypto := by
    refine hr.invariant (fun s hs => ?_) fun s a s' hr h _ hs => ?_
    · cases hs
      exact (inv_start crypto).rooted
    · cases hs
      exact h.next (named_reachable hr) a
  refine ⟨fun fp hubId hauthorized => ?_, fun hash record hget =>
    h.grant _ record (Directory.grant?_eq_some.mp hget)⟩
  simp only [Directory.isAuthorized, Bool.true_and, List.any_eq_true, Option.any_eq_true,
    Bool.and_eq_true, Bool.or_eq_true, decide_eq_true_eq] at hauthorized
  obtain ⟨file, -, record, hget, ⟨rfl, hhub⟩, -⟩ := hauthorized
  have hget := Directory.issued?_eq_some.mp hget
  obtain ⟨csrHash, rfl⟩ := hn.1.issued hget
  exact ⟨csrHash, record.hubId, (h.stored csrHash record hget).1, (h.stored csrHash record hget).2,
    hhub⟩

/-- A fingerprint is authorized for a hub if and only if its certificate was issued under an
approved grant of this hub and no revoke of it has succeeded. -/
theorem authorized_iff (h : (system crypto authority).Reachable (Keeps crypto) s)
    {hubId : String} (hhub : isHubId hubId = true) (fingerprint256 : String) :
    s.directory.isAuthorized true fingerprint256 hubId = true ↔
      s.IssuedFor fingerprint256 hubId ∧ .revoked fingerprint256 ∉ s.log := by
  have hi := inv_reachable h
  have hn := named_reachable h
  have hne : hubId ≠ "" := by
    rintro rfl
    cases hhub
  simp only [Directory.isAuthorized, Bool.true_and, List.any_eq_true, Option.any_eq_true,
    Bool.and_eq_true, Bool.or_eq_true, decide_eq_true_eq, hne, false_or, Bool.not_eq_true']
  constructor
  · rintro ⟨file, -, record, hget, ⟨hfp, hhub⟩, hlive⟩
    have hget := Directory.issued?_eq_some.mp hget
    obtain ⟨csrHash, rfl⟩ := hn.1.issued hget
    obtain ⟨-, hfor, hnot⟩ := hi.stored csrHash record hget
    rw [hfp, hhub] at hfor
    rw [hfp] at hnot
    exact ⟨hfor, hnot.resolve_left (by simp [hlive])⟩
  · rintro ⟨⟨grant, record, hissued, -, hfp, hhub⟩, hnot⟩
    obtain ⟨csrHash, record', hget, hfp', hhub', hlive⟩ := hi.kept grant record hissued (hfp ▸ hnot)
    refine ⟨recordFile csrHash, hn.1.mem_recordFiles.mpr ⟨record', hget⟩, record',
      Directory.issued?_eq_some.mpr hget, ⟨hfp'.trans hfp, hhub'.trans hhub⟩, hlive⟩

end Steps

end Enrollment

/-! ## Two runs -/

section Sample

def hexDigit (n : ℕ) : Char :=
  ['0', '1', '2', '3', '4', '5', '6', '7', '8', '9', 'a', 'b', 'c', 'd', 'e', 'f'].getD n '0'

theorem hexDigit_hex (n : ℕ) :
    (hexDigit n).isDigit = true ∨ hexDigit n ∈ ['a', 'b', 'c', 'd', 'e', 'f'] := by
  have hall : ∀ c ∈ '0' :: ['0', '1', '2', '3', '4', '5', '6', '7', '8', '9', 'a', 'b', 'c', 'd', 'e',
      'f'], c.isDigit = true ∨ c ∈ ['a', 'b', 'c', 'd', 'e', 'f'] := by simp
  refine hall _ ?_
  rw [hexDigit, List.getD_eq_getElem?_getD]
  cases hget : ['0', '1', '2', '3', '4', '5', '6', '7', '8', '9', 'a', 'b', 'c', 'd', 'e', 'f'][n]? with
  | none => exact List.mem_cons_self
  | some c => exact List.mem_cons_of_mem _ (List.mem_of_getElem? hget)

/-- A text as a digest of its characters. -/
def hexDigest (s : String) : Digest where
  text := String.ofList (s.toList.flatMap fun c =>
    [hexDigit (c.toNat / 16 % 16), hexDigit (c.toNat % 16)])
  hex := by
    intro c hc
    rw [String.toList_ofList, List.mem_flatMap] at hc
    obtain ⟨d, -, hd⟩ := hc
    rcases List.mem_cons.mp hd with rfl | hd
    · exact hexDigit_hex _
    · rw [List.mem_singleton.mp hd]
      exact hexDigit_hex _

def sampleCrypto : Crypto where
  hash := hexDigest
  validateCsr := fun _ _ => true
  fingerprint256 := fun pem => pem
  validTo := fun _ => 300 * dayMs
  meetsConstraints := fun _ => true

def sampleAuthority : Authority where
  enabled := true
  operatorApproval := "ok"
  leafValidityMs := none
  grantTtlMs := 600000
  caValidToMs := 400 * dayMs
  caFingerprint256 := "ca"

def sampleRequest : EnrollmentRequest where
  version := PROTOCOL_VERSION
  hubId := "hub"
  csrPem := "-----BEGIN CERTIFICATE REQUEST-----"
  sans := ["hub"]
  nonce := "00112233445566778899aabbccddeeff"

/-- A grant for the request, made by process 0. -/
def approveSteps (token : String) : List Action :=
  .approve 0 sampleRequest "ok" token :: List.replicate 3 (.run 0)

/-- The redemption of a grant for the request, for which `openssl` signs a certificate. -/
def redeemSteps (token pem : String) : List Action :=
  .redeem 0 sampleRequest token :: List.replicate 7 (.run 0) ++ .sign 0 pem ::
    List.replicate 13 (.run 0)

def sampleNext : Enrollment → Action → Enrollment :=
  Enrollment.next sampleCrypto fun _ => sampleAuthority

def issuedOnce : Enrollment :=
  (approveSteps "g" ++ redeemSteps "g" "cert").foldl sampleNext .start

/-- A second grant for the CSR is redeemed. -/
def issuedTwice : Enrollment :=
  (approveSteps "g2" ++ redeemSteps "g2" "cert2").foldl sampleNext issuedOnce

/-- A step of process 0. -/
def Action.isFirst : Action → Bool
  | .time _ => true
  | .approve pid _ _ _ | .redeem pid _ _ | .revoke pid _ _ | .run pid | .sign pid _ | .crash pid =>
    pid = 0

def Alone (s : Enrollment) : Prop := ∀ q, q ≠ 0 → s.procs q = .idle

theorem Alone.setPc {s : Enrollment} (h : Alone s) (pc : Pc) : Alone (s.setPc 0 pc) := by
  intro q hq
  rw [Enrollment.setPc_procs, if_neg hq]
  exact h q hq

theorem Alone.next {s : Enrollment} {a : Action} (hs : Alone s) (ha : a.isFirst = true) :
    Alone (sampleNext s a) := by
  cases a with
  | time now => exact hs
  | approve pid request operatorApproval token | redeem pid request grant =>
    obtain rfl : pid = 0 := of_decide_eq_true ha
    simp only [sampleNext, Enrollment.next]
    split_ifs
    · exact hs.setPc _
    · exact hs
  | revoke pid fingerprint256 files =>
    obtain rfl : pid = 0 := of_decide_eq_true ha
    simp only [sampleNext, Enrollment.next]
    split_ifs
    · exact hs.setPc _
    · exact hs
  | run pid =>
    obtain rfl : pid = 0 := of_decide_eq_true ha
    exact hs.setPc _
  | sign pid pem =>
    obtain rfl : pid = 0 := of_decide_eq_true ha
    simp only [sampleNext, Enrollment.next]
    repeat' split
    · exact hs.setPc _
    · exact hs
    · exact hs
  | crash pid =>
    obtain rfl : pid = 0 := of_decide_eq_true ha
    exact hs.setPc _

/-- A test for `Keeps`, of the steps of process 0. -/
def keepsAlone (s : Enrollment) (a : Action) : Bool :=
  a.isFirst &&
    match a, s.procs 0 with
    | .run _, .redeem _ (.renameRecord record issued) =>
      (s.directory.files.get? (recordFile record.csrHash)).isNone &&
        decide (.revoked issued.fingerprint256 ∉ s.log)
    | .run _, .renameRevoked file record _ =>
      match s.directory.files.get? file with
      | some (.issued old) =>
        old.fingerprint256 = record.fingerprint256 && old.hubId = record.hubId
      | _ => true
    | .sign _ pem, _ =>
      s.log.all fun
        | .signed _ pem' => pem' ≠ pem
        | _ => true
    | _, _ => true

theorem keepsAlone_sound {s : Enrollment} {a : Action} (hs : Alone s)
    (h : keepsAlone s a = true) : s.Keeps sampleCrypto a := by
  unfold keepsAlone at h
  rw [Bool.and_eq_true] at h
  obtain ⟨hfirst, h⟩ := h
  cases a with
  | run pid =>
    obtain rfl : pid = 0 := of_decide_eq_true hfirst
    simp only [Enrollment.Keeps]
    cases hpc : s.procs 0 with
    | redeem call pc =>
      cases pc with
      | renameRecord record issued =>
        simp only [hpc, Bool.and_eq_true, decide_eq_true_eq, Option.isNone_iff_eq_none] at h
        refine ⟨fun old hold => ?_, h.2, fun q => ?_⟩
        · rw [h.1] at hold
          cases hold
        -- the process that stores the record revokes nothing
        · by_cases hq : q = 0
          · rw [hq, hpc]
            simp [Pc.revokes?]
          · rw [hs q hq]
            simp [Pc.revokes?]
      | _ => trivial
    | renameRevoked file record files =>
      simp only [hpc] at h
      intro old hold
      rw [hold] at h
      exact .inr (by simpa using h)
    | _ => trivial
  | sign pid pem =>
    simp only [List.all_eq_true] at h
    intro csrHash pem' hmem
    exact of_decide_eq_true (h _ hmem)
  | _ => trivial

theorem issuedOnce_reachable :
    (Enrollment.system sampleCrypto fun _ => sampleAuthority).Reachable
      (Enrollment.Keeps sampleCrypto) issuedOnce :=
  System.Reachable.of_checks_while (I := Alone) (fun _ _ hs ha => hs.next (Bool.and_eq_true_iff.mp ha).1)
    (fun _ _ => keepsAlone_sound) (.init rfl) (fun _ _ => rfl)
    (approveSteps "g" ++ redeemSteps "g" "cert") (by decide +kernel)

/-- The issued certificate is authorized, hence issued for the hub and not revoked. -/
theorem issuedOnce_authorized :
    isHubId "hub" = true ∧ issuedOnce.IssuedFor "cert" "hub" ∧
      .revoked "cert" ∉ issuedOnce.log :=
  ⟨by decide +kernel, (Enrollment.authorized_iff issuedOnce_reachable (by decide +kernel) "cert").mp
    (by decide +kernel)⟩

/-- The first certificate of a CSR is lost when a second grant for it is redeemed. -/
theorem issuedTwice_lost :
    ¬ ∀ s, (Enrollment.system sampleCrypto fun _ => sampleAuthority).Reachable System.anyStep s →
      ∀ fingerprint256 hubId, isHubId hubId = true →
        (s.directory.isAuthorized true fingerprint256 hubId = true ↔
          s.IssuedFor fingerprint256 hubId ∧ .revoked fingerprint256 ∉ s.log) := by
  intro hall
  have hreach : (Enrollment.system sampleCrypto fun _ => sampleAuthority).Reachable System.anyStep
      issuedTwice := by
    rw [issuedTwice, issuedOnce, ← List.foldl_append]
    exact System.reachable_foldl _
  have hissued : issuedTwice.IssuedFor "cert" "hub" :=
    ⟨Enrollment.grantRecord sampleCrypto sampleAuthority.grantTtlMs 0 sampleRequest "g",
      issuedRecord sampleCrypto sampleAuthority ⟨sampleRequest, hexDigest "g"⟩ "cert",
      by decide +kernel, by decide +kernel, rfl, rfl⟩
  have hauth := (hall issuedTwice hreach "cert" "hub" (by decide +kernel)).mpr
    ⟨hissued, by decide +kernel⟩
  exact absurd hauth (by decide +kernel)

end Sample

end TransformHub.Manager.CsrEnrollment
