import TransformHub.Manager.CsrAuthorization

/-!
# One certificate for a CSR

`openssl` should sign one certificate for a CSR, and every redeem should return that one (`Single`).
-/

namespace TransformHub.Manager.CsrEnrollment

open OrderedMap

/-- The CSR for which a redeem is in `issueCertificate`. -/
def RedeemPc.issuing? : RedeemPc → Option Digest
  | .writeCsr record | .writeExt record | .writeSrl record | .sign record | .readCert record
  | .writeRecord record _ | .renameRecord record _ | .clearRecord record _ | .cleanup record _ _ =>
    some record.csrHash
  | _ => none

/-- The CSR for which a redeem has a signed certificate that is not stored yet. -/
def RedeemPc.holds? : RedeemPc → Option Digest
  | .readCert record | .writeRecord record _ | .renameRecord record _ => some record.csrHash
  | _ => none

def Pc.grant? : Pc → Option GrantRecord
  | .redeem _ pc => pc.grant?
  | _ => none

def Pc.issuing? : Pc → Option Digest
  | .redeem _ pc => pc.issuing?
  | _ => none

def Pc.holds? : Pc → Option Digest
  | .redeem _ pc => pc.holds?
  | _ => none

/-- The CSR whose record is written, and has no name yet. -/
def Pc.renames? : Pc → Option Digest
  | .redeem _ (.renameRecord record _) => some record.csrHash
  | _ => none

namespace Directory

def Stored (d : Directory) (csrHash : Digest) (response : CertificateResponse) : Prop :=
  ∃ record, d.files.get? (recordFile csrHash) = some (.issued record) ∧ record.response = response

/-- The file of a grant is there, for the same CSR. -/
def Granted (d : Directory) (grant : GrantRecord) : Prop :=
  ∃ record, d.files.get? (grantFile grant.tokenHash) = some (.grant record) ∧
    record.csrHash = grant.csrHash

def Consumed (d : Directory) (tokenHash csrHash : Digest) (response : CertificateResponse) : Prop :=
  ∃ record, d.files.get? (grantFile tokenHash) = some (.grant record) ∧ record.consumed = true ∧
    record.csrHash = csrHash ∧ record.issuedResponse = some response

def Free (d : Directory) (now : ℕ) (tokenHash : Digest) : Prop :=
  ∀ mtime, d.locks.get? tokenHash = some mtime → 5 * 60 * 1000 < now - mtime

variable {d : Directory}

theorem Stored.unique {h : Digest} {r r' : CertificateResponse} (hr : d.Stored h r)
    (hr' : d.Stored h r') : r = r' := by
  obtain ⟨record, hget, rfl⟩ := hr
  obtain ⟨record', hget', rfl⟩ := hr'
  rw [hget, Option.some.injEq, JsonFile.issued.injEq] at hget'
  rw [hget']

theorem Consumed.unique {t h h' : Digest} {r r' : CertificateResponse} (hr : d.Consumed t h r)
    (hr' : d.Consumed t h' r') : h = h' ∧ r = r' := by
  obtain ⟨record, hget, -, rfl, hresponse⟩ := hr
  obtain ⟨record', hget', -, rfl, hresponse'⟩ := hr'
  rw [hget, Option.some.injEq, JsonFile.grant.injEq] at hget'
  subst hget'
  rw [hresponse, Option.some.injEq] at hresponse'
  exact ⟨rfl, hresponse'⟩

section Writes

variable {d' : Directory} {t h : Digest} {r : CertificateResponse} {grant : GrantRecord}
  {issued : IssuedRecord}

theorem Stored.congr (hfiles : d'.files = d.files) (hs : d.Stored h r) : d'.Stored h r := by
  rwa [Stored, hfiles]

theorem Granted.congr (hfiles : d'.files = d.files) (hg : d.Granted grant) : d'.Granted grant := by
  rwa [Granted, hfiles]

theorem Consumed.congr (hfiles : d'.files = d.files) (hc : d.Consumed t h r) :
    d'.Consumed t h r := by
  rwa [Consumed, hfiles]

theorem Stored.setGrant (hfiles : d'.files = d.files.set (grantFile t) (.grant grant))
    (hs : d.Stored h r) : d'.Stored h r := by
  rwa [Stored, hfiles, get?_set_of_ne _ (grantFile_ne_recordFile t h)]

theorem Stored.setIssued {h' : Digest}
    (hfiles : d'.files = d.files.set (recordFile h') (.issued issued))
    (hsame : ∀ r, d.Stored h' r → issued.response = r) (hs : d.Stored h r) : d'.Stored h r := by
  by_cases heq : h' = h
  · subst heq
    refine ⟨issued, ?_, hsame r hs⟩
    rw [hfiles, get?_set_self]
  · rwa [Stored, hfiles, get?_set_of_ne _ fun hname => heq (recordFile_injective hname)]

theorem Granted.setIssued (hfiles : d'.files = d.files.set (recordFile h) (.issued issued))
    (hg : d.Granted grant) : d'.Granted grant := by
  rwa [Granted, hfiles, get?_set_of_ne _ (grantFile_ne_recordFile _ h).symm]

theorem Consumed.setIssued {h' : Digest}
    (hfiles : d'.files = d.files.set (recordFile h') (.issued issued)) (hc : d.Consumed t h r) :
    d'.Consumed t h r := by
  rwa [Consumed, hfiles, get?_set_of_ne _ (grantFile_ne_recordFile _ h').symm]

theorem Granted.setGrant {record : GrantRecord}
    (hfiles : d'.files = d.files.set (grantFile t) (.grant record))
    (hsame : ∀ old, d.files.get? (grantFile t) = some (.grant old) → record.csrHash = old.csrHash)
    (hg : d.Granted grant) : d'.Granted grant := by
  obtain ⟨old, hget, hcsr⟩ := hg
  by_cases heq : t = grant.tokenHash
  · subst heq
    refine ⟨record, ?_, (hsame old hget).trans hcsr⟩
    rw [hfiles, get?_set_self]
  · refine ⟨old, ?_, hcsr⟩
    rwa [hfiles, get?_set_of_ne _ fun hname => heq (grantFile_injective hname)]

theorem Consumed.setGrant {t' : Digest} {record : GrantRecord}
    (hfiles : d'.files = d.files.set (grantFile t') (.grant record))
    (hsame : ∀ h r, d.Consumed t' h r → record.consumed = true ∧ record.csrHash = h ∧
      record.issuedResponse = some r) (hc : d.Consumed t h r) : d'.Consumed t h r := by
  by_cases heq : t' = t
  · subst heq
    refine ⟨record, ?_, hsame h r hc⟩
    rw [hfiles, get?_set_self]
  · rwa [Consumed, hfiles, get?_set_of_ne _ fun hname => heq (grantFile_injective hname)]

end Writes

end Directory

namespace Enrollment

variable (crypto : Crypto) (authority : ℕ → Authority)

def signedFor (s : Enrollment) (csrHash : Digest) : List String :=
  s.log.filterMap fun
    | .signed h pem => if h = csrHash then some pem else none
    | _ => none

/-- A redeem comes to look for a certificate only when none is stored for the CSR and no other
process is issuing one, a certificate that is signed meets the constraints and its process goes on
to store it, and the token of a new grant is new. -/
def Sole (s : Enrollment) : Action → Prop
  | .run pid =>
    match s.procs pid with
    | .redeem _ (.findIssued record) =>
      s.directory.files.get? (recordFile record.csrHash) = none ∧
        ∀ q, (s.procs q).issuing? ≠ some record.csrHash
    | .renameApproval record => s.directory.files.get? (grantFile record.tokenHash) = none
    | _ => True
  | .sign pid pem =>
    crypto.meetsConstraints pem = true ∧ crypto.validTo pem ≤ (authority pid).caValidToMs
  | .crash pid => (s.procs pid).holds? = none
  | _ => True

/-- One certificate is signed for a CSR, every redeem for the CSR or with the grant returns it, and
a redeem that is tried again while the grant is not busy does return. -/
structure Single (s : Enrollment) : Prop where
  once : ∀ csrHash, (s.signedFor csrHash).length ≤ 1
  signed : ∀ call csrHash response, .redeemed call csrHash response ∈ s.log →
    s.signedFor csrHash = [response.certificatePem]
  csr : ∀ call call' csrHash response response', .redeemed call csrHash response ∈ s.log →
    .redeemed call' csrHash response' ∈ s.log → response = response'
  grant : ∀ call call' csrHash csrHash' response response', call.tokenHash = call'.tokenHash →
    .redeemed call csrHash response ∈ s.log → .redeemed call' csrHash' response' ∈ s.log →
      csrHash = csrHash' ∧ response = response'
  retry : ∀ call csrHash response pid request grant, .redeemed call csrHash response ∈ s.log →
    s.procs pid = .idle → (authority pid).enabled = true → validateRequest request = true →
      crypto.hash grant = call.tokenHash → s.directory.Free s.now call.tokenHash →
        ((Action.redeem pid request grant :: List.replicate 7 (.run pid)).foldl
          (next crypto authority) s).log =
            s.log ++ [.redeemed ⟨request, call.tokenHash⟩ csrHash response]

/-! ## The invariant -/

/-- What holds while a process is at a step of a call. -/
def Local (a : Authority) (s : Enrollment) : Pc → Prop
  | .redeem call pc =>
    match pc with
    | .writeCsr record | .writeExt record | .writeSrl record | .sign record
    | .cleanup record none _ => s.signedFor record.csrHash = []
    | .readCert record =>
      s.directory.files.get? (recordFile record.csrHash) = none ∧
        ∃ pem, s.directory.work.get? (.cert, record.csrHash) = some pem ∧
          pem ∈ s.signedFor record.csrHash ∧ crypto.meetsConstraints pem = true ∧
            crypto.validTo pem ≤ a.caValidToMs
    | .writeRecord record issued | .renameRecord record issued =>
      s.directory.files.get? (recordFile record.csrHash) = none ∧
        issued.response.certificatePem ∈ s.signedFor record.csrHash
    | .clearRecord _ none => False
    | .clearRecord record (some response) | .cleanup record (some response) _
    | .writeGrant record response | .renameGrant record response =>
      s.directory.Stored record.csrHash response
    | .clearGrant record (some response) =>
      s.directory.Stored record.csrHash response ∧
        s.directory.Consumed call.tokenHash record.csrHash response
    | .unlock (some (csrHash, response)) =>
      s.directory.Stored csrHash response ∧
        s.directory.Consumed call.tokenHash csrHash response
    | _ => True
  | .writeRevoked file record _ | .renameRevoked file record _ =>
    ∃ csrHash, file = recordFile csrHash ∧ s.directory.Stored csrHash record.response
  | .writeApproval record | .renameApproval record => record.consumed = false
  | _ => True

structure IssuanceInv (s : Enrollment) : Prop where
  alone : ∀ p q csrHash, (s.procs p).issuing? = some csrHash →
    (s.procs q).issuing? = some csrHash → p = q
  granted : ∀ p record, (s.procs p).grant? = some record → s.directory.Granted record
  proc : ∀ p, s.Local crypto (authority p) (s.procs p)
  once : ∀ csrHash, (s.signedFor csrHash).length ≤ 1
  accounted : ∀ csrHash, s.signedFor csrHash ≠ [] →
    (∃ response, s.directory.Stored csrHash response) ∨
      ∃ p, (s.procs p).holds? = some csrHash
  stored : ∀ csrHash response, s.directory.Stored csrHash response →
    response.certificatePem ∈ s.signedFor csrHash
  partials : ∀ csrHash p, (recordFile csrHash, p) ∈ s.directory.partials →
    (∃ response, s.directory.Stored csrHash response) ∨
      (s.procs p).renames? = some csrHash
  consumed : ∀ tokenHash csrHash response, s.directory.Consumed tokenHash csrHash response →
    s.directory.Stored csrHash response
  redeemed : ∀ call csrHash response, .redeemed call csrHash response ∈ s.log →
    s.directory.Stored csrHash response ∧
      s.directory.Consumed call.tokenHash csrHash response

theorem issuanceInv_start : start.IssuanceInv crypto authority where
  alone := nofun
  granted := nofun
  proc := fun _ => trivial
  once := fun _ => Nat.zero_le _
  accounted := fun _ h => absurd rfl h
  stored := fun _ _ h => by
    obtain ⟨_, h, _⟩ := h
    cases h
  partials := nofun
  consumed := fun _ _ _ h => by
    obtain ⟨_, h, _⟩ := h
    cases h
  redeemed := nofun

section Steps

variable {crypto authority} {s s' : Enrollment} {pid : ℕ} {a : Authority}

/-- What a step of one process leaves for the others. -/
structure Frame (s : Enrollment) (pid : ℕ) (s' : Enrollment) : Prop where
  stored : ∀ h r, s.directory.Stored h r → s'.directory.Stored h r
  granted : ∀ g, s.directory.Granted g → s'.directory.Granted g
  consumed : ∀ t h r, s.directory.Consumed t h r → s'.directory.Consumed t h r
  signed : ∀ h, (s.procs pid).issuing? ≠ some h → s'.signedFor h = s.signedFor h
  unrecorded : ∀ h, (s.procs pid).issuing? ≠ some h →
    s.directory.files.get? (recordFile h) = none → s'.directory.files.get? (recordFile h) = none
  cert : ∀ h, (s.procs pid).issuing? ≠ some h →
    s'.directory.work.get? (.cert, h) = s.directory.work.get? (.cert, h)

variable {pc : Pc}

theorem Local.frame (hf : Frame s pid s')
    (hne : ∀ h, pc.issuing? = some h → (s.procs pid).issuing? ≠ some h)
    (hlocal : s.Local crypto a pc) : s'.Local crypto a pc := by
  cases pc with
  | redeem call pc =>
    cases pc with
    | writeCsr record | writeExt record => exact (hf.signed _ (hne _ rfl)).trans hlocal
    | writeSrl record | sign record => exact (hf.signed _ (hne _ rfl)).trans hlocal
    | readCert record =>
      obtain ⟨hnone, pem, hcert, hmem, hpem⟩ := hlocal
      refine ⟨hf.unrecorded _ (hne _ rfl) hnone, pem, ?_, ?_, hpem⟩
      · rw [hf.cert _ (hne _ rfl)]
        exact hcert
      · rw [hf.signed _ (hne _ rfl)]
        exact hmem
    | writeRecord record issued | renameRecord record issued =>
      obtain ⟨hnone, hmem⟩ := hlocal
      refine ⟨hf.unrecorded _ (hne _ rfl) hnone, ?_⟩
      rw [hf.signed _ (hne _ rfl)]
      exact hmem
    | clearRecord record response =>
      cases response with
      | none => exact hlocal
      | some response => exact hf.stored _ _ hlocal
    | cleanup record response left =>
      cases response with
      | none => exact (hf.signed _ (hne _ rfl)).trans hlocal
      | some response => exact hf.stored _ _ hlocal
    | writeGrant record response | renameGrant record response => exact hf.stored _ _ hlocal
    | clearGrant record response =>
      cases response with
      | none => trivial
      | some response => exact ⟨hf.stored _ _ hlocal.1, hf.consumed _ _ _ hlocal.2⟩
    | unlock entry =>
      cases entry with
      | none => trivial
      | some entry => exact ⟨hf.stored _ _ hlocal.1, hf.consumed _ _ _ hlocal.2⟩
    | _ => trivial
  | writeRevoked file record files | renameRevoked file record files =>
    obtain ⟨csrHash, hfile, hstored⟩ := hlocal
    exact ⟨csrHash, hfile, hf.stored _ _ hstored⟩
  | writeApproval record | renameApproval record => exact hlocal
  | _ => trivial

/-! ### One file operation -/

theorem signedFor_apply {o : Outcome} (ho : ∀ h pem, .signed h pem ∉ o.events) (csrHash : Digest) :
    (s.apply pid o).signedFor csrHash = s.signedFor csrHash := by
  show (s.log ++ o.events).filterMap _ = _
  rw [List.filterMap_append, signedFor, List.append_right_eq_self, List.filterMap_eq_nil_iff]
  intro e he
  cases e with
  | signed h pem => exact absurd he (ho h pem)
  | _ => rfl

theorem signedFor_concat {h : Digest} {pem : String} (hlog : s'.log = s.log ++ [.signed h pem])
    (csrHash : Digest) :
    s'.signedFor csrHash = s.signedFor csrHash ++ if h = csrHash then [pem] else [] := by
  rw [signedFor, hlog, List.filterMap_append, ← signedFor]
  congr 1
  by_cases heq : h = csrHash <;> simp [heq]

variable {d : Directory}

theorem stepProcess_cert_eq {now : ℕ} {h : Digest} (hne : pc.issuing? ≠ some h) :
    (stepProcess crypto a now pid d pc).directory.work.get? (.cert, h) = d.work.get? (.cert, h) := by
  have hwrite : ∀ (call : RedeemCall) (record : GrantRecord) (kind : WorkFile) (text : String)
      (next : RedeemPc), kind ≠ .cert →
        (writeWork d call record kind text next).directory.work.get? (.cert, h) =
          d.work.get? (.cert, h) := by
    intro call record kind text next hkind
    unfold writeWork
    split_ifs
    · rfl
    · exact get?_set_of_ne _ (by simp [hkind]) _
  cases pc with
  | redeem call pc =>
    cases pc with
    | writeCsr record => exact hwrite call record .csr _ _ (by decide)
    | writeExt record => exact hwrite call record .ext _ _ (by decide)
    | writeSrl record => exact hwrite call record .srl _ _ (by decide)
    | cleanup record response left =>
      cases left with
      | cons kind left =>
        refine get?_delete_of_ne _ fun heq => hne ?_
        exact congrArg some (Prod.mk.inj heq).2
      | nil => cases response <;> rfl
    | unlock response => cases response <;> rfl
    | _ =>
      simp only [stepProcess, stepRedeem]
      repeat' split
      all_goals rfl
  | readIssued fingerprint256 files =>
    cases files with
    | nil => rfl
    | cons file files =>
      simp only [stepProcess]
      repeat' split
      all_goals rfl
  | _ =>
    simp only [stepProcess]
    repeat' split
    all_goals rfl

theorem IssuanceInv.frame (h : s.IssuanceInv crypto authority) (hn : s.Named)
    (hok : s.Sole crypto authority (.run pid)) :
    Frame s pid (s.next crypto authority (.run pid)) := by
  show Frame s pid (s.apply pid (stepProcess crypto (authority pid) s.now pid s.directory
    (s.procs pid)))
  have heffect : Effect crypto s.directory (s.procs pid)
      (stepProcess crypto (authority pid) s.now pid s.directory (s.procs pid)) :=
    stepProcess_effect _
  have hcert : ∀ h, (s.procs pid).issuing? ≠ some h →
      (stepProcess crypto (authority pid) s.now pid s.directory (s.procs pid)).directory.work.get?
        (.cert, h) = s.directory.work.get? (.cert, h) := fun h => stepProcess_cert_eq
  have hlocal := h.proc pid
  have hgranted := h.granted pid
  have hnamed := hn.2 pid
  simp only [Sole] at hok
  generalize stepProcess crypto (authority pid) s.now pid s.directory (s.procs pid) = o at *
  have hsigned : ∀ h, (s.apply pid o).signedFor h = s.signedFor h :=
    signedFor_apply heffect.unsigned
  have hsame : o.directory.files = s.directory.files → Frame s pid (s.apply pid o) := fun files =>
    { stored := fun _ _ => .congr files
      granted := fun _ => .congr files
      consumed := fun _ _ _ => .congr files
      signed := fun h _ => hsigned h
      unrecorded := fun _ _ hnone => (congrArg (get? · _) files).trans hnone
      cert := hcert }
  generalize hpc : s.procs pid = pc at *
  cases heffect with
  | quiet files events | returned fp files events hidle => exact hsame files
  | redeemed call csrHash response files events hidle => exact hsame files
  | approved record files events hclear =>
    refine ⟨fun _ _ => .setGrant files, fun _ => .setGrant files ?_,
      fun _ _ _ => .setGrant files ?_, fun h _ => hsigned h, ?_, hpc.symm ▸ hcert⟩
    · intro old hold
      rw [hok] at hold
      cases hold
    · rintro h r ⟨old, hold, -⟩
      rw [hok] at hold
      cases hold
    · intro h _ hnone
      show o.directory.files.get? _ = none
      rw [files, get?_set_of_ne _ (grantFile_ne_recordFile _ h)]
      exact hnone
  | consumed call record response files events hclear =>
    obtain ⟨old, hold, hcsr⟩ := hgranted record rfl
    rw [hnamed record rfl] at hold
    refine ⟨fun _ _ => .setGrant files, fun _ => .setGrant files ?_,
      fun _ _ _ => .setGrant files ?_, fun h _ => hsigned h, ?_, hpc.symm ▸ hcert⟩
    · intro old' hold'
      rw [hold, Option.some.injEq, JsonFile.grant.injEq] at hold'
      exact hcsr.symm.trans (congrArg GrantRecord.csrHash hold')
    -- the grant had the same response when it was consumed before
    · intro csrHash r hconsumed
      have hr : s.directory.Stored csrHash r := h.consumed _ _ _ hconsumed
      obtain ⟨old', hold', -, hcsr', -⟩ := hconsumed
      rw [hold, Option.some.injEq, JsonFile.grant.injEq] at hold'
      have hsame : record.csrHash = csrHash := by rw [← hcsr', ← hold', hcsr]
      rw [← hsame] at hr
      exact ⟨rfl, hsame, congrArg some (hlocal.unique hr)⟩
    · intro h _ hnone
      show o.directory.files.get? _ = none
      rw [files, get?_set_of_ne _ (grantFile_ne_recordFile _ h)]
      exact hnone
  | recorded call record issued files events hclear =>
    obtain ⟨hnone, -⟩ := hlocal
    refine ⟨fun _ _ => .setIssued files ?_, fun _ => .setIssued files,
      fun _ _ _ => .setIssued files, fun h _ => hsigned h, ?_, hpc.symm ▸ hcert⟩
    · rintro r ⟨old, hold, -⟩
      rw [hnone] at hold
      cases hold
    · intro h hne hother
      show o.directory.files.get? _ = none
      rw [hpc] at hne
      rw [files, get?_set_of_ne _ fun hname =>
        hne (congrArg some (recordFile_injective hname))]
      exact hother
  | marked file record rest files events hclear =>
    obtain ⟨csrHash, rfl, hstored⟩ := hlocal
    refine ⟨fun _ _ => .setIssued files fun r hr => hstored.unique hr, fun _ => .setIssued files,
      fun _ _ _ => .setIssued files, fun h _ => hsigned h, ?_, hpc.symm ▸ hcert⟩
    intro h _ hnone
    show o.directory.files.get? _ = none
    rw [files, get?_set_of_ne]
    · exact hnone
    · intro hname
      obtain ⟨old, hold, -⟩ := hstored
      rw [hname, hnone] at hold
      cases hold

theorem IssuanceInv.granted_step (h : s.IssuanceInv crypto authority) (hn : s.Named)
    (hf : Frame s pid s') {record : GrantRecord}
    (hrecord : (stepProcess crypto (authority pid) s.now pid s.directory (s.procs pid)).pc.grant? =
      some record) : s'.directory.Granted record := by
  apply hf.granted
  have hgranted := h.granted pid
  cases hpc : s.procs pid with
  | redeem call pc =>
    rw [hpc] at hrecord hgranted
    rcases stepRedeem_pc crypto (authority pid) s.now pid s.directory call pc with
      hidle | ⟨pc', hpc', hnext⟩
    · simp only [stepProcess, hidle] at hrecord
      cases hrecord
    · simp only [stepProcess, hpc'] at hrecord
      rcases hnext record hrecord with hsame | ⟨-, -, hget, -, -⟩
      · exact hgranted record hsame
      · refine ⟨record, ?_, rfl⟩
        rw [hn.1.grant?_tokenHash hget]
        exact Directory.grant?_eq_some.mp hget
  | readIssued fingerprint256 files =>
    rw [hpc] at hrecord
    cases files with
    | nil => cases hrecord
    | cons file files =>
      simp only [stepProcess] at hrecord
      repeat' split at hrecord
      all_goals cases hrecord
  | _ =>
    rw [hpc] at hrecord
    simp only [stepProcess] at hrecord
    repeat' split at hrecord
    all_goals cases hrecord

variable {csrHash : Digest}

theorem IssuanceInv.unsigned (h : s.IssuanceInv crypto authority)
    (hnone : s.directory.files.get? (recordFile csrHash) = none)
    (hnobody : ∀ q, (s.procs q).holds? ≠ some csrHash) : s.signedFor csrHash = [] := by
  by_contra hsigned
  rcases h.accounted csrHash hsigned with ⟨_, record, hget, -⟩ | ⟨p, hp⟩
  · rw [hnone] at hget
    cases hget
  · exact hnobody p hp

theorem Pc.issuing?_of_holds? (h : pc.holds? = some csrHash) : pc.issuing? = some csrHash := by
  cases pc with
  | redeem call pc => cases pc <;> first | exact h | cases h
  | _ => cases h

theorem Pc.holds?_of_renames? (h : pc.renames? = some csrHash) : pc.holds? = some csrHash := by
  cases pc with
  | redeem call pc => cases pc <;> first | exact h | cases h
  | _ => cases h

variable {call : RedeemCall}

theorem writeWork_local {record : GrantRecord} (kind : WorkFile) (text : String) {next : RedeemPc}
    (hnil : s.signedFor record.csrHash = []) (hnext : s.Local crypto a (.redeem call next)) :
    s.Local crypto a (writeWork d call record kind text next).pc := by
  unfold writeWork
  split_ifs
  · exact hnil
  · exact hnext

section

variable (h : s.IssuanceInv crypto authority) (hn : s.Named)
  (hok : s.Sole crypto authority (.run pid))
include h hn hok

theorem IssuanceInv.redeem_step {pc : RedeemPc} (hpc : s.procs pid = .redeem call pc)
    (hf : Frame s pid s') (hsigned : ∀ csrHash, s'.signedFor csrHash = s.signedFor csrHash)
    (hdir : s'.directory = (stepRedeem crypto (authority pid) s.now pid s.directory call pc).directory) :
    s'.Local crypto (authority pid)
      (stepRedeem crypto (authority pid) s.now pid s.directory call pc).pc := by
  have hlocal := h.proc pid
  rw [hpc] at hlocal
  cases pc with
  | lookup | lock =>
    simp only [stepRedeem]
    split_ifs <;> trivial
  | stale =>
    simp only [stepRedeem]
    repeat' split
    all_goals trivial
  | takeover => trivial
  | relock =>
    simp only [stepRedeem]
    split_ifs <;> trivial
  | read =>
    simp only [stepRedeem]
    split
    next => trivial
    next record hget =>
      split_ifs with hconsumed haccepts
      · cases hresponse : record.issuedResponse with
        | none => trivial
        | some response =>
          have hc : s.directory.Consumed call.tokenHash record.csrHash response :=
            ⟨record, Directory.grant?_eq_some.mp hget, hconsumed, rfl, hresponse⟩
          exact ⟨hf.stored _ _ (h.consumed _ _ _ hc), hf.consumed _ _ _ hc⟩
      · trivial
      · trivial
  | findIssued record =>
    simp only [Sole, hpc] at hok
    simp only [stepRedeem, hn.1.get?_issuedFile]
    refine (hsigned _).trans (h.unsigned hok.1 fun q hq => hok.2 q ?_)
    exact Pc.issuing?_of_holds? hq
  | writeCsr record | writeExt record =>
    have hnil := (hsigned _).trans hlocal
    exact writeWork_local _ _ hnil hnil
  | writeSrl record =>
    have hnil := (hsigned _).trans hlocal
    refine writeWork_local _ _ hnil ?_
    split_ifs <;> exact hnil
  | sign record => exact (hsigned _).trans hlocal
  | readCert record =>
    obtain ⟨hnone, pem, hcert, hmem, hmeets, hvalid⟩ := hlocal
    rw [← hsigned] at hmem
    simp only [stepRedeem, hcert, hmeets, hvalid, decide_true, Bool.and_true, if_true] at hdir ⊢
    exact ⟨hdir ▸ hnone, hmem⟩
  | writeRecord record issued =>
    obtain ⟨hnone, hmem⟩ := hlocal
    have hfree : (recordFile record.csrHash, pid) ∉ s.directory.partials := by
      intro hpartial
      rcases h.partials _ _ hpartial with ⟨_, old, hold, -⟩ | hrenames
      · rw [hnone] at hold
        cases hold
      · rw [hpc] at hrenames
        cases hrenames
    rw [← hsigned] at hmem
    simp only [stepRedeem, if_neg hfree] at hdir ⊢
    exact ⟨hdir ▸ hnone, hmem⟩
  | renameRecord record issued =>
    refine ⟨issued, ?_, rfl⟩
    rw [hdir]
    exact get?_set_self _ _ _
  | clearRecord record response =>
    cases response with
    | none => exact hlocal.elim
    | some response => exact hf.stored _ _ hlocal
  | cleanup record response left =>
    cases response with
    | none =>
      cases left with
      | nil => trivial
      | cons kind left => exact (hsigned _).trans hlocal
    | some response => cases left <;> exact hf.stored _ _ hlocal
  | writeGrant record response =>
    simp only [stepRedeem]
    split_ifs
    · trivial
    · exact hf.stored _ _ hlocal
  | renameGrant record response =>
    refine ⟨hf.stored _ _ hlocal, consumedRecord crypto record response, ?_, rfl, rfl, rfl⟩
    rw [hdir]
    exact get?_set_self _ _ _
  | clearGrant record response =>
    cases response with
    | none => trivial
    | some response => exact ⟨hf.stored _ _ hlocal.1, hf.consumed _ _ _ hlocal.2⟩
  | unlock entry => cases entry <;> trivial

theorem IssuanceInv.proc_step :
    (s.next crypto authority (.run pid)).Local crypto (authority pid)
      (stepProcess crypto (authority pid) s.now pid s.directory (s.procs pid)).pc := by
  have hf := h.frame hn hok
  have hlocal := h.proc pid
  cases hpc : s.procs pid with
  | redeem call pc =>
    refine h.redeem_step hn hok hpc hf (signedFor_apply (stepProcess_effect _).unsigned) ?_
    show (stepProcess crypto (authority pid) s.now pid s.directory (s.procs pid)).directory = _
    rw [hpc]
    rfl
  | readIssued fingerprint256 files =>
    cases files with
    | nil => trivial
    | cons file files =>
      simp only [stepProcess]
      split
      next record hget =>
        split_ifs
        · have hget := Directory.issued?_eq_some.mp hget
          obtain ⟨csrHash, rfl⟩ := hn.1.issued hget
          exact ⟨csrHash, rfl, hf.stored _ _ ⟨record, hget, rfl⟩⟩
        · trivial
      next => trivial
  | writeRevoked file record files =>
    rw [hpc] at hlocal
    obtain ⟨csrHash, hfile, hstored⟩ := hlocal
    simp only [stepProcess]
    split_ifs
    · trivial
    · exact ⟨csrHash, hfile, hf.stored _ _ hstored⟩
  | clearRevoked file fingerprint256 written files =>
    simp only [stepProcess]
    split_ifs <;> trivial
  | writeApproval record =>
    rw [hpc] at hlocal
    simp only [stepProcess]
    split_ifs
    · trivial
    · exact hlocal
  | _ => trivial

end

theorem stepRedeem_issuing {now : ℕ} {pc : RedeemPc}
    (h : (stepRedeem crypto a now pid d call pc).pc.issuing? = some csrHash) :
    pc.issuing? = some csrHash ∨ ∃ record, pc = .findIssued record ∧ record.csrHash = csrHash := by
  cases pc with
  | findIssued record =>
    simp only [stepRedeem] at h
    repeat' split at h
    · cases h
    · cases h
    · exact .inr ⟨record, rfl, Option.some.inj h⟩
  | writeSrl record =>
    simp only [stepRedeem, writeWork] at h
    split_ifs at h <;> exact .inl h
  | cleanup record response left =>
    cases left with
    | cons kind left => exact .inl h
    | nil => cases response <;> cases h
  | unlock entry => cases entry <;> cases h
  | _ =>
    simp only [stepRedeem, writeWork] at h
    repeat' split at h
    all_goals exact .inl h

theorem stepProcess_issuing {now : ℕ}
    (h : (stepProcess crypto a now pid d pc).pc.issuing? = some csrHash) :
    pc.issuing? = some csrHash ∨
      ∃ call record, pc = .redeem call (.findIssued record) ∧ record.csrHash = csrHash := by
  cases pc with
  | redeem call pc =>
    rcases stepRedeem_issuing h with hpc | ⟨record, rfl, hcsr⟩
    · exact .inl hpc
    · exact .inr ⟨call, record, rfl, hcsr⟩
  | readIssued fingerprint256 files =>
    cases files with
    | nil => cases h
    | cons file files =>
      simp only [stepProcess] at h
      repeat' split at h
      all_goals cases h
  | _ =>
    simp only [stepProcess] at h
    repeat' split at h
    all_goals cases h

theorem stored_of_renames {now : ℕ} (h : pc.renames? = some csrHash) :
    ∃ response, (stepProcess crypto a now pid d pc).directory.Stored csrHash response := by
  cases pc with
  | redeem call pc =>
    cases pc with
    | renameRecord record issued =>
      cases h
      exact ⟨issued.response, issued, get?_set_self _ _ _, rfl⟩
    | _ => cases h
  | _ => cases h

theorem IssuanceInv.holds_step (h : s.IssuanceInv crypto authority)
    (hholds : (s.procs pid).holds? = some csrHash) :
    (stepProcess crypto (authority pid) s.now pid s.directory (s.procs pid)).pc.holds? =
        some csrHash ∨
      ∃ response, (stepProcess crypto (authority pid) s.now pid s.directory
        (s.procs pid)).directory.Stored csrHash response := by
  have hlocal := h.proc pid
  have hpartials := h.partials csrHash pid
  cases hpc : s.procs pid with
  | redeem call pc =>
    rw [hpc] at hlocal hholds hpartials
    cases pc with
    | readCert record =>
      obtain ⟨-, pem, hcert, -, hmeets, hvalid⟩ := hlocal
      simp only [stepProcess, stepRedeem, hcert, hmeets, hvalid, decide_true, Bool.and_true,
        if_true]
      exact .inl hholds
    | writeRecord record issued =>
      cases hholds
      simp only [stepProcess, stepRedeem]
      split_ifs with hpartial
      · rcases hpartials hpartial with ⟨_, old, hold, -⟩ | hrenames
        · rw [hlocal.1] at hold
          cases hold
        · cases hrenames
      · exact .inl rfl
    | renameRecord record issued => exact .inr (stored_of_renames hholds)
    | _ => cases hholds
  | _ =>
    rw [hpc] at hholds
    cases hholds

theorem IssuanceInv.partials_step (h : s.IssuanceInv crypto authority) {q : ℕ}
    (hmem : (recordFile csrHash, q) ∈ (stepProcess crypto (authority pid) s.now pid s.directory (s.procs pid)).directory.partials) :
    (recordFile csrHash, q) ∈ s.directory.partials ∨
      (∃ response, s.directory.Stored csrHash response) ∨
        q = pid ∧ (stepProcess crypto (authority pid) s.now pid s.directory
          (s.procs pid)).pc.renames? = some csrHash := by
  have hlocal := h.proc pid
  have hclear : ∀ file, (recordFile csrHash, q) ∈ (s.directory.clearPartial file pid).partials →
      (recordFile csrHash, q) ∈ s.directory.partials := fun file hq => List.mem_of_mem_filter hq
  have hgrant : ∀ t, (recordFile csrHash, q) ∈ (s.directory.addPartial (grantFile t) pid).partials →
      (recordFile csrHash, q) ∈ s.directory.partials := by
    intro t hq
    rcases List.mem_cons.mp hq with heq | hq
    · exact absurd (congrArg Prod.fst heq).symm (grantFile_ne_recordFile t csrHash)
    · exact hq
  cases hpc : s.procs pid with
  | redeem call pc =>
    rw [hpc] at hlocal hmem
    cases pc with
    | writeRecord record issued =>
      simp only [stepProcess, stepRedeem] at hmem ⊢
      split_ifs at hmem ⊢
      · exact .inl hmem
      · rcases List.mem_cons.mp hmem with heq | hmem
        · obtain ⟨hfile, rfl⟩ := Prod.mk.inj heq
          rw [recordFile_injective hfile]
          exact .inr (.inr ⟨rfl, rfl⟩)
        · exact .inl hmem
    | renameRecord record issued | clearRecord record response => exact .inl (hclear _ hmem)
    | writeGrant record response =>
      simp only [stepProcess, stepRedeem] at hmem
      split_ifs at hmem
      · exact .inl hmem
      · exact .inl (hgrant _ hmem)
    | renameGrant record response | clearGrant record response => exact .inl (hclear _ hmem)
    | cleanup record response left =>
      cases left with
      | cons kind left => exact .inl hmem
      | nil => cases response <;> exact .inl hmem
    | unlock entry => cases entry <;> exact .inl hmem
    | _ =>
      simp only [stepProcess, stepRedeem, writeWork] at hmem
      repeat' split at hmem
      all_goals exact .inl hmem
  | writeRevoked file record files =>
    rw [hpc] at hlocal hmem
    obtain ⟨csrHash', rfl, hstored⟩ := hlocal
    simp only [stepProcess] at hmem
    split_ifs at hmem
    · exact .inl hmem
    · rcases List.mem_cons.mp hmem with heq | hmem
      · rw [recordFile_injective (congrArg Prod.fst heq)]
        exact .inr (.inl ⟨_, hstored⟩)
      · exact .inl hmem
  | writeApproval record =>
    rw [hpc] at hmem
    simp only [stepProcess] at hmem
    split_ifs at hmem
    · exact .inl hmem
    · exact .inl (hgrant _ hmem)
  | readIssued fingerprint256 files =>
    rw [hpc] at hmem
    cases files with
    | nil => exact .inl hmem
    | cons file files =>
      simp only [stepProcess] at hmem
      repeat' split at hmem
      all_goals exact .inl hmem
  | idle =>
    rw [hpc] at hmem
    exact .inl hmem
  | renameApproval record => 
    rw [hpc] at hmem
    exact .inl (hclear _ hmem)
  | clearApproval record | renameRevoked file record files =>
    rw [hpc] at hmem
    exact .inl (hclear _ hmem)
  | clearRevoked file fingerprint256 written files =>
    rw [hpc] at hmem
    exact .inl (hclear _ hmem)

variable {response : CertificateResponse}

section

variable (h : s.IssuanceInv crypto authority)
include h

theorem IssuanceInv.stored_step {o : Outcome}
    (ho : Effect crypto s.directory (s.procs pid) o) (hs : o.directory.Stored csrHash response) :
    s.directory.Stored csrHash response ∨
      response.certificatePem ∈ s.signedFor csrHash := by
  have hlocal := h.proc pid
  generalize s.procs pid = pc at *
  obtain ⟨record', hget, rfl⟩ := hs
  have hgrant : ∀ t g, o.directory.files = s.directory.files.set (grantFile t) (.grant g) →
      s.directory.Stored csrHash record'.response := by
    intro t g files
    rw [files, get?_set_of_ne _ (grantFile_ne_recordFile t csrHash)] at hget
    exact ⟨record', hget, rfl⟩
  cases ho with
  | quiet files events | returned fp files events hidle => exact .inl ⟨record', files ▸ hget, rfl⟩
  | redeemed call csrHash' response' files events hidle => exact .inl ⟨record', files ▸ hget, rfl⟩
  | approved record files events hclear => exact .inl (hgrant _ _ files)
  | consumed call record response files events hclear => exact .inl (hgrant _ _ files)
  | recorded call record issued files events hclear =>
    rw [files, get?_set] at hget
    split_ifs at hget with heq
    · cases hget
      cases recordFile_injective heq
      exact .inr hlocal.2
    · exact .inl ⟨record', hget, rfl⟩
  | marked file record rest files events hclear =>
    obtain ⟨csrHash', rfl, hstored⟩ := hlocal
    rw [files, get?_set] at hget
    split_ifs at hget with heq
    · cases hget
      cases recordFile_injective heq
      exact .inl hstored
    · exact .inl ⟨record', hget, rfl⟩

theorem IssuanceInv.consumed_step {o : Outcome}
    (ho : Effect crypto s.directory (s.procs pid) o) {tokenHash csrHash : Digest}
    (hc : o.directory.Consumed tokenHash csrHash response) :
    s.directory.Stored csrHash response := by
  have hlocal := h.proc pid
  generalize s.procs pid = pc at *
  obtain ⟨record', hget, hconsumed, rfl, hresponse⟩ := hc
  have hold : s.directory.files.get? (grantFile tokenHash) = some (.grant record') →
      s.directory.Stored record'.csrHash response := fun hget =>
    h.consumed _ _ _ ⟨record', hget, hconsumed, rfl, hresponse⟩
  cases ho with
  | quiet files events | returned fp files events hidle => exact hold (files ▸ hget)
  | redeemed call csrHash' response' files events hidle => exact hold (files ▸ hget)
  | approved record files events hclear =>
    rw [files, get?_set] at hget
    split_ifs at hget with heq
    · cases hget
      rw [hlocal] at hconsumed
      cases hconsumed
    · exact hold hget
  | consumed call record response' files events hclear =>
    rw [files, get?_set] at hget
    split_ifs at hget with heq
    · cases hget
      cases hresponse
      exact hlocal
    · exact hold hget
  | recorded call record issued files events hclear =>
    rw [files, get?_set_of_ne _ (grantFile_ne_recordFile _ _).symm] at hget
    exact hold hget
  | marked file record rest files events hclear =>
    obtain ⟨csrHash', rfl, -⟩ := hlocal
    rw [files, get?_set_of_ne _ (grantFile_ne_recordFile _ _).symm] at hget
    exact hold hget

theorem IssuanceInv.redeemed_step {o : Outcome}
    (ho : Effect crypto s.directory (s.procs pid) o)
    (he : .redeemed call csrHash response ∈ o.events) :
    s.directory.Stored csrHash response ∧
      s.directory.Consumed call.tokenHash csrHash response := by
  have hlocal := h.proc pid
  generalize s.procs pid = pc at *
  cases ho with
  | redeemed call' csrHash' response' files events hidle =>
    rw [events, List.mem_singleton, Event.redeemed.injEq] at he
    obtain ⟨rfl, rfl, rfl⟩ := he
    exact hlocal
  | quiet files events => rw [events] at he; cases he
  | returned fp files events hidle | approved record files events hclear => simp [events] at he
  | consumed call record response' files events hclear => rw [events] at he; cases he
  | recorded call record issued files events hclear => simp [events] at he
  | marked file record rest files events hclear => simp [events] at he

theorem IssuanceInv.run (hn : s.Named)
    (hok : s.Sole crypto authority (.run pid)) :
    (s.next crypto authority (.run pid)).IssuanceInv crypto authority := by
  have hf := h.frame hn hok
  have heffect : Effect crypto s.directory (s.procs pid)
      (stepProcess crypto (authority pid) s.now pid s.directory (s.procs pid)) :=
    stepProcess_effect _
  have hsigned : ∀ csrHash, (s.next crypto authority (.run pid)).signedFor csrHash =
      s.signedFor csrHash := signedFor_apply heffect.unsigned
  have hself : ((s.next crypto authority (.run pid)).procs pid) =
      (stepProcess crypto (authority pid) s.now pid s.directory (s.procs pid)).pc := by
    show (s.apply pid _).procs pid = _
    rw [apply_procs, if_pos rfl]
  have hother : ∀ q, q ≠ pid → (s.next crypto authority (.run pid)).procs q = s.procs q := by
    intro q hq
    show (s.apply pid _).procs q = _
    rw [apply_procs, if_neg hq]
  have hissuing : ∀ p csrHash, ((s.next crypto authority (.run pid)).procs p).issuing? =
      some csrHash → (s.procs p).issuing? = some csrHash ∨
        p = pid ∧ ∀ q, (s.procs q).issuing? ≠ some csrHash := by
    intro p csrHash hp
    by_cases hpid : p = pid
    · subst hpid
      rw [hself] at hp
      rcases stepProcess_issuing hp with hsame | ⟨call, record, hpc, rfl⟩
      · exact .inl hsame
      · simp only [Sole, hpc] at hok
        exact .inr ⟨rfl, hok.2⟩
    · rw [hother p hpid] at hp
      exact .inl hp
  constructor
  case alone =>
    intro p q csrHash hp hq
    rcases hissuing p csrHash hp with hp' | ⟨hpid, hnobody⟩
    · rcases hissuing q csrHash hq with hq' | ⟨hqid, hnobody⟩
      · exact h.alone p q csrHash hp' hq'
      · exact absurd hp' (hnobody p)
    · rcases hissuing q csrHash hq with hq' | ⟨hqid, -⟩
      · exact absurd hq' (hnobody q)
      · exact hpid.trans hqid.symm
  case granted =>
    intro p record hrecord
    by_cases hp : p = pid
    · subst hp
      rw [hself] at hrecord
      exact h.granted_step hn hf hrecord
    · rw [hother p hp] at hrecord
      exact hf.granted _ (h.granted p record hrecord)
  case proc =>
    intro p
    by_cases hp : p = pid
    · subst hp
      rw [hself]
      exact h.proc_step hn hok
    · rw [hother p hp]
      refine (h.proc p).frame hf fun csrHash hissuing hpid => hp ?_
      exact h.alone p pid csrHash hissuing hpid
  case once =>
    intro csrHash
    rw [hsigned]
    exact h.once csrHash
  case accounted =>
    intro csrHash hne
    rw [hsigned] at hne
    rcases h.accounted csrHash hne with ⟨response, hstored⟩ | ⟨p, hp⟩
    · exact .inl ⟨response, hf.stored _ _ hstored⟩
    · by_cases hpid : p = pid
      · subst hpid
        rcases h.holds_step hp with hholds | hstored
        · exact .inr ⟨p, hself ▸ hholds⟩
        · exact .inl hstored
      · exact .inr ⟨p, hother p hpid ▸ hp⟩
  case stored =>
    intro csrHash response hs
    rw [hsigned]
    rcases h.stored_step heffect hs with hold | hmem
    · exact h.stored _ _ hold
    · exact hmem
  case partials =>
    intro csrHash p hmem
    rcases h.partials_step hmem with hold | ⟨response, hstored⟩ | ⟨rfl, hrenames⟩
    · rcases h.partials csrHash p hold with ⟨response, hstored⟩ | hrenames
      · exact .inl ⟨response, hf.stored _ _ hstored⟩
      · by_cases hp : p = pid
        · subst hp
          exact .inl (stored_of_renames hrenames)
        · exact .inr (hother p hp ▸ hrenames)
    · exact .inl ⟨response, hf.stored _ _ hstored⟩
    · exact .inr (hself ▸ hrenames)
  case consumed =>
    intro tokenHash csrHash response hc
    exact hf.stored _ _ (h.consumed_step heffect hc)
  case redeemed =>
    intro call csrHash response he
    rcases List.mem_append.mp he with hold | hnew
    · obtain ⟨hstored, hconsumed⟩ := h.redeemed call csrHash response hold
      exact ⟨hf.stored _ _ hstored, hf.consumed _ _ _ hconsumed⟩
    · obtain ⟨hstored, hconsumed⟩ := h.redeemed_step heffect hnew
      exact ⟨hf.stored _ _ hstored, hf.consumed _ _ _ hconsumed⟩

theorem IssuanceInv.setPc (hlocal : s.Local crypto (authority pid) pc) (hgrant : pc.grant? = none)
    (hissuing : pc.issuing? = none) (hholds : (s.procs pid).holds? = none) :
    (s.setPc pid pc).IssuanceInv crypto authority := by
  have halone : ∀ p csrHash, ((s.setPc pid pc).procs p).issuing? = some csrHash →
      (s.procs p).issuing? = some csrHash := by
    intro p csrHash hp
    rw [setPc_procs] at hp
    split_ifs at hp
    · rw [hissuing] at hp
      cases hp
    · exact hp
  have hkeeps : ∀ p csrHash, (s.procs p).holds? = some csrHash →
      ((s.setPc pid pc).procs p).holds? = some csrHash := by
    intro p csrHash hp
    rw [setPc_procs, if_neg]
    · exact hp
    · rintro rfl
      rw [hholds] at hp
      cases hp
  have hrenames : ∀ p csrHash, (s.procs p).renames? = some csrHash →
      ((s.setPc pid pc).procs p).renames? = some csrHash := by
    intro p csrHash hp
    rw [setPc_procs, if_neg]
    · exact hp
    · rintro rfl
      rw [Pc.holds?_of_renames? hp] at hholds
      cases hholds
  exact
    { h with
      alone := fun p q csrHash hp hq => h.alone p q csrHash (halone p _ hp) (halone q _ hq)
      granted := by
        intro p record hrecord
        rw [setPc_procs] at hrecord
        split_ifs at hrecord
        · rw [hgrant] at hrecord
          cases hrecord
        · exact h.granted p record hrecord
      proc := by
        intro p
        rw [setPc_procs]
        split_ifs with hp
        · rw [hp]
          exact hlocal
        · exact h.proc p
      accounted := fun csrHash hne => (h.accounted csrHash hne).imp_right
        fun ⟨p, hp⟩ => ⟨p, hkeeps p _ hp⟩
      partials := fun csrHash p hmem => (h.partials csrHash p hmem).imp_right (hrenames p csrHash) }

theorem IssuanceInv.sign (hn : s.Named) {pem : String}
    (hok : s.Sole crypto authority (.sign pid pem)) {record : GrantRecord}
    (hpc : s.procs pid = .redeem call (.sign record)) :
    (s.apply pid ⟨s.directory.setWork .cert record.csrHash pem, .redeem call (.readCert record),
      [.signed record.csrHash pem]⟩).IssuanceInv crypto authority := by
  have hlocal := h.proc pid
  rw [hpc] at hlocal
  have hnil : s.signedFor record.csrHash = [] := hlocal
  have hpid : (s.procs pid).issuing? = some record.csrHash := by
    rw [hpc]
    rfl
  generalize hs' : s.apply pid ⟨s.directory.setWork .cert record.csrHash pem,
    .redeem call (.readCert record), [.signed record.csrHash pem]⟩ = s'
  have hlog : s'.log = s.log ++ [.signed record.csrHash pem] := by rw [← hs']; rfl
  have hfiles : s'.directory.files = s.directory.files := by rw [← hs']; rfl
  have hself : s'.procs pid = .redeem call (.readCert record) := by
    rw [← hs', apply_procs, if_pos rfl]
  have hother : ∀ q, q ≠ pid → s'.procs q = s.procs q := by
    intro q hq
    rw [← hs', apply_procs, if_neg hq]
  have hone : s'.signedFor record.csrHash = [pem] := by
    rw [signedFor_concat hlog, hnil, if_pos rfl]
    rfl
  have hrest : ∀ csrHash, record.csrHash ≠ csrHash →
      s'.signedFor csrHash = s.signedFor csrHash := by
    intro csrHash hne
    rw [signedFor_concat hlog, if_neg hne, List.append_nil]
  have hf : Frame s pid s' :=
    { stored := fun _ _ => .congr hfiles
      granted := fun _ => .congr hfiles
      consumed := fun _ _ _ => .congr hfiles
      signed := fun csrHash hne => hrest csrHash fun heq => hne (hpid.trans (congrArg some heq))
      unrecorded := fun _ _ hnone => by rw [hfiles]; exact hnone
      cert := by
        intro csrHash hne
        rw [← hs']
        refine get?_set_of_ne _ (fun heq => hne ?_) _
        exact hpid.trans (congrArg some (Prod.mk.inj heq).2) }
  have hissuing : ∀ p, (s'.procs p).issuing? = (s.procs p).issuing? := by
    intro p
    by_cases hp : p = pid
    · rw [hp, hself, hpid]
      rfl
    · rw [hother p hp]
  have hunstored : ∀ response, ¬ s.directory.Stored record.csrHash response := by
    intro response hstored
    have hmem := h.stored _ _ hstored
    rw [hnil] at hmem
    cases hmem
  constructor
  case alone =>
    intro p q csrHash hp hq
    rw [hissuing] at hp hq
    exact h.alone p q csrHash hp hq
  case granted =>
    intro p record' hrecord
    apply hf.granted
    by_cases hp : p = pid
    · rw [hp, hself] at hrecord
      cases hrecord
      exact h.granted pid record (by rw [hpc]; rfl)
    · rw [hother p hp] at hrecord
      exact h.granted p record' hrecord
  case proc =>
    intro p
    by_cases hp : p = pid
    · rw [hp, hself]
      refine ⟨?_, pem, ?_, ?_, hok.1, hok.2⟩
      · rw [hfiles]
        cases hget : s.directory.files.get? (recordFile record.csrHash) with
        | none => rfl
        | some content =>
          rcases hn.1 _ _ hget with ⟨grant, -, hname⟩ | ⟨issued, csrHash, rfl, -⟩
          · exact absurd hname.symm (grantFile_ne_recordFile _ _)
          · exact absurd ⟨issued, hget, rfl⟩ (hunstored issued.response)
      · rw [← hs']
        exact get?_set_self _ _ _
      · rw [hone]
        exact List.mem_singleton.mpr rfl
    · rw [hother p hp]
      refine (h.proc p).frame hf fun csrHash hp' hpid' => hp ?_
      exact h.alone p pid csrHash hp' hpid'
  case once =>
    intro csrHash
    by_cases heq : record.csrHash = csrHash
    · subst heq
      rw [hone]
      exact Nat.le_refl _
    · rw [hrest csrHash heq]
      exact h.once csrHash
  case accounted =>
    intro csrHash hne
    by_cases heq : record.csrHash = csrHash
    · subst heq
      exact .inr ⟨pid, by rw [hself]; rfl⟩
    · rw [hrest csrHash heq] at hne
      rcases h.accounted csrHash hne with ⟨response, hstored⟩ | ⟨p, hp⟩
      · exact .inl ⟨response, hf.stored _ _ hstored⟩
      · refine .inr ⟨p, ?_⟩
        by_cases hppid : p = pid
        · rw [hppid, hpc] at hp
          cases hp
        · rw [hother p hppid]
          exact hp
  case stored =>
    intro csrHash response hstored
    have hstored : s.directory.Stored csrHash response := hstored.congr hfiles.symm
    rw [hrest csrHash]
    · exact h.stored _ _ hstored
    · rintro rfl
      exact hunstored response hstored
  case partials =>
    intro csrHash p hmem
    have hmem : (recordFile csrHash, p) ∈ s.directory.partials := by
      rw [← hs'] at hmem
      exact hmem
    rcases h.partials csrHash p hmem with ⟨response, hstored⟩ | hp
    · exact .inl ⟨response, hf.stored _ _ hstored⟩
    · refine .inr ?_
      by_cases hppid : p = pid
      · rw [hppid, hpc] at hp
        cases hp
      · rw [hother p hppid]
        exact hp
  case consumed =>
    exact fun t csrHash response hc =>
      hf.stored _ _ (h.consumed t csrHash response (hc.congr hfiles.symm))
  case redeemed =>
    intro call' csrHash response he
    rw [hlog] at he
    rcases List.mem_append.mp he with he | he
    · obtain ⟨hstored, hconsumed⟩ := h.redeemed call' csrHash response he
      exact ⟨hf.stored _ _ hstored, hf.consumed _ _ _ hconsumed⟩
    · cases List.mem_singleton.mp he

theorem IssuanceInv.next (hn : s.Named) {a : Action}
    (hok : s.Sole crypto authority a) :
    (s.next crypto authority a).IssuanceInv crypto authority := by
  cases a with
  | time now => exact { h with }
  | approve pid request operatorApproval token =>
    simp only [Enrollment.next]
    split_ifs with hstart
    · exact h.setPc rfl rfl rfl (by rw [hstart.1]; rfl)
    · exact h
  | redeem pid request grant | revoke pid fingerprint256 files =>
    simp only [Enrollment.next]
    split_ifs with hstart
    · exact h.setPc trivial rfl rfl (by rw [hstart.1]; rfl)
    · exact h
  | run pid => exact h.run hn hok
  | sign pid pem =>
    simp only [Enrollment.next]
    split
    next call record hpc =>
      split_ifs
      · exact h.sign hn hok hpc
      · exact h
    next => exact h
  | crash pid => exact h.setPc trivial rfl rfl hok

end

theorem issuanceInv_reachable
    (h : (system crypto authority).Reachable (Sole crypto authority) s) :
    s.IssuanceInv crypto authority := by
  refine h.invariant (fun s hs => ?_) fun s a s' hr hi hok hs => ?_
  · cases hs
    exact issuanceInv_start crypto authority
  · cases hs
    exact hi.next (named_reachable hr) hok

theorem run_apply (s : Enrollment) (p : ℕ) (d : Directory) (pc : Pc) (es : List Event) :
    (s.apply p ⟨d, pc, es⟩).next crypto authority (.run p) =
      s.apply p ⟨(stepProcess crypto (authority p) s.now p d pc).directory,
        (stepProcess crypto (authority p) s.now p d pc).pc,
        es ++ (stepProcess crypto (authority p) s.now p d pc).events⟩ := by
  have hpc : (s.apply p ⟨d, pc, es⟩).procs p = pc := by rw [apply_procs, if_pos rfl]
  show (s.apply p ⟨d, pc, es⟩).apply p (stepProcess crypto (authority p) s.now p d
    ((s.apply p ⟨d, pc, es⟩).procs p)) = _
  rw [hpc]
  simp only [apply, setPc, List.append_assoc, mk.injEq, true_and, and_true]
  funext q
  split_ifs <;> rfl

theorem retry_of_consumed (call : RedeemCall)
    (hconsumed : s.directory.Consumed call.tokenHash csrHash response)
    (hfree : s.directory.Free s.now call.tokenHash) :
    ((List.replicate 7 (Action.run pid)).foldl (next crypto authority)
      (s.apply pid ⟨s.directory, .redeem call .lookup, []⟩)).log =
        s.log ++ [.redeemed call csrHash response] := by
  obtain ⟨record, hget, hconsumed, rfl, hresponse⟩ := hconsumed
  have hgrant : ∀ d : Directory, d.files = s.directory.files →
      d.grant? call.tokenHash = some record := fun d hd =>
    Directory.grant?_eq_some.mpr (hd ▸ hget)
  have hhas : s.directory.files.has (grantFile call.tokenHash) = true :=
    has_iff.mpr ⟨_, hget⟩
  cases hlock : s.directory.locks.get? call.tokenHash with
  | none =>
    have hnot : s.directory.locks.has call.tokenHash = false := by
      rw [Bool.eq_false_iff, Ne, has_iff, hlock]
      rintro ⟨_, hf⟩
      cases hf
    have hread := hgrant (s.directory.setLock call.tokenHash s.now) rfl
    simp only [List.replicate, List.foldl_cons, List.foldl_nil, run_apply, stepProcess, stepRedeem,
      hhas, hnot, hread, hconsumed, hresponse, if_true, Bool.false_eq_true, if_false,
      Option.map_some, List.nil_append, List.append_nil]
    rfl
  | some mtime =>
    have hhas' : s.directory.locks.has call.tokenHash = true :=
      has_iff.mpr ⟨_, hlock⟩
    have hold := hfree mtime hlock
    have hread := hgrant ((s.directory.removeLock call.tokenHash).setLock call.tokenHash s.now) rfl
    have hnot : (s.directory.removeLock call.tokenHash).locks.has call.tokenHash = false := by
      rw [Bool.eq_false_iff, Ne, has_iff, Directory.removeLock,
        get?_delete_self]
      rintro ⟨_, hf⟩
      cases hf
    simp only [List.replicate, List.foldl_cons, List.foldl_nil, run_apply, stepProcess, stepRedeem,
      hhas, hhas', hlock, hnot, hread, if_pos hold, hconsumed, hresponse, if_true,
      Bool.false_eq_true, if_false, Option.map_some, List.nil_append, List.append_nil]
    rfl

/-- One certificate is signed for a CSR, in every run that meets the condition. -/
theorem single_of_sole (h : (system crypto authority).Reachable (Sole crypto authority) s) :
    s.Single crypto authority := by
  have hi := issuanceInv_reachable h
  have hsigned : ∀ call csrHash response, .redeemed call csrHash response ∈ s.log →
      s.signedFor csrHash = [response.certificatePem] := by
    intro call csrHash response he
    have hmem := hi.stored _ _ (hi.redeemed _ _ _ he).1
    obtain ⟨pem, hpem⟩ := List.length_eq_one_iff.mp
      (Nat.le_antisymm (hi.once csrHash) (List.length_pos_of_mem hmem))
    rw [hpem, List.mem_singleton] at hmem
    rw [hpem, hmem]
  refine ⟨hi.once, hsigned, ?_, ?_, ?_⟩
  · intro call call' csrHash response response' he he'
    exact (hi.redeemed _ _ _ he).1.unique (hi.redeemed _ _ _ he').1
  · intro call call' csrHash csrHash' response response' htoken he he'
    have hconsumed := (hi.redeemed _ _ _ he).2
    rw [htoken] at hconsumed
    exact hconsumed.unique (hi.redeemed _ _ _ he').2
  · intro call csrHash response pid request grant he hidle henabled hvalid hgrant hfree
    have hstart : s.next crypto authority (.redeem pid request grant) =
        s.apply pid ⟨s.directory, .redeem ⟨request, call.tokenHash⟩ .lookup, []⟩ := by
      rw [Enrollment.next, if_pos ⟨hidle, henabled, hvalid⟩, hgrant, apply, List.append_nil]
      rfl
    rw [List.foldl_cons, hstart]
    exact retry_of_consumed ⟨request, call.tokenHash⟩ (hi.redeemed _ _ _ he).2 hfree

end Steps

end Enrollment

/-! ## Two runs -/

section Sample

/-- A test for `Sole`, of the steps of process 0. -/
def soleAlone (s : Enrollment) (a : Action) : Bool :=
  a.isFirst &&
    match a, s.procs 0 with
    | .run _, .redeem _ (.findIssued record) =>
      (s.directory.files.get? (recordFile record.csrHash)).isNone
    | .run _, .renameApproval record => (s.directory.files.get? (grantFile record.tokenHash)).isNone
    | .crash _, pc => pc.holds?.isNone
    | _, _ => true

theorem soleAlone_sound {s : Enrollment} {a : Action} (hs : Alone s)
    (h : soleAlone s a = true) : s.Sole sampleCrypto (fun _ => sampleAuthority) a := by
  unfold soleAlone at h
  rw [Bool.and_eq_true] at h
  obtain ⟨hfirst, h⟩ := h
  cases a with
  | run pid =>
    obtain rfl : pid = 0 := of_decide_eq_true hfirst
    simp only [Enrollment.Sole]
    cases hpc : s.procs 0 with
    | redeem call pc =>
      cases pc with
      | findIssued record =>
        simp only [hpc, Option.isNone_iff_eq_none] at h
        refine ⟨h, fun q hq => ?_⟩
        by_cases hq0 : q = 0
        · rw [hq0, hpc] at hq
          cases hq
        · rw [hs q hq0] at hq
          cases hq
      | _ => trivial
    | renameApproval record =>
      simp only [hpc, Option.isNone_iff_eq_none] at h
      exact h
    | _ => trivial
  | sign pid pem => exact ⟨rfl, Nat.mul_le_mul_right dayMs (by decide)⟩
  | crash pid =>
    obtain rfl : pid = 0 := of_decide_eq_true hfirst
    exact Option.isNone_iff_eq_none.mp h
  | _ => trivial

/-- The run in which one certificate is issued meets the condition. -/
theorem issuedOnce_single : issuedOnce.Single sampleCrypto fun _ => sampleAuthority :=
  Enrollment.single_of_sole <|
    System.Reachable.of_checks_while (I := Alone)
      (fun _ _ hs ha => hs.next (Bool.and_eq_true_iff.mp ha).1) (fun _ _ => soleAlone_sound)
      (.init rfl) (fun _ _ => rfl) (approveSteps "g" ++ redeemSteps "g" "cert")
      (by decide +kernel)

/-- A second grant for the same CSR brings a second certificate. -/
theorem issuedTwice_not_single :
    ¬ ∀ s, (Enrollment.system sampleCrypto fun _ => sampleAuthority).Reachable System.anyStep s →
      s.Single sampleCrypto fun _ => sampleAuthority := by
  intro hall
  have hreach : (Enrollment.system sampleCrypto fun _ => sampleAuthority).Reachable System.anyStep
      issuedTwice := by
    rw [issuedTwice, issuedOnce, ← List.foldl_append]
    exact System.reachable_foldl _
  exact absurd ((hall issuedTwice hreach).once (hexDigest sampleRequest.csrPem)) (by decide +kernel)

end Sample

end TransformHub.Manager.CsrEnrollment
