import TransformHub.Manager.CsrEnrollment

/-!
# Steps of the enrolment store

What one file operation does to the JSON files of the directory (`Effect`), and the names that files
and processes keep.
-/

namespace TransformHub.Manager.CsrEnrollment

/-- Every file is a grant under its own name, or an issued certificate. -/
def Directory.Named (d : Directory) : Prop :=
  ∀ file content, d.files.get? file = some content →
    (∃ record, content = .grant record ∧ file = grantFile record.tokenHash) ∨
      ∃ record csrHash, content = .issued record ∧ file = recordFile csrHash

/-- The effect of one file operation on the JSON files, and what it has done for good. -/
inductive Effect (crypto : Crypto) (d : Directory) : Pc → Outcome → Prop
  | quiet {pc : Pc} {o : Outcome} (files : o.directory.files = d.files) (events : o.events = []) :
      Effect crypto d pc o
  | returned {o : Outcome} (fingerprint256 : String) (files : o.directory.files = d.files)
      (events : o.events = [.revoked fingerprint256]) (pc : o.pc = .idle) :
      Effect crypto d (.readIssued fingerprint256 []) o
  | redeemed {o : Outcome} (call : RedeemCall) (csrHash : Digest) (response : CertificateResponse)
      (files : o.directory.files = d.files)
      (events : o.events = [.redeemed call csrHash response]) (pc : o.pc = .idle) :
      Effect crypto d (.redeem call (.unlock (some (csrHash, response)))) o
  | approved {o : Outcome} (record : GrantRecord)
      (files : o.directory.files = d.files.set (grantFile record.tokenHash) (.grant record))
      (events : o.events = [.approved record]) (pc : o.pc = .clearApproval record) :
      Effect crypto d (.renameApproval record) o
  | consumed {o : Outcome} (call : RedeemCall) (record : GrantRecord)
      (response : CertificateResponse)
      (files : o.directory.files = d.files.set (grantFile call.tokenHash)
        (.grant (consumedRecord crypto record response)))
      (events : o.events = []) (pc : o.pc = .redeem call (.clearGrant record (some response))) :
      Effect crypto d (.redeem call (.renameGrant record response)) o
  | recorded {o : Outcome} (call : RedeemCall) (record : GrantRecord) (issued : IssuedRecord)
      (files : o.directory.files = d.files.set (recordFile record.csrHash) (.issued issued))
      (events : o.events = [.issued record issued])
      (pc : o.pc = .redeem call (.clearRecord record (some issued.response))) :
      Effect crypto d (.redeem call (.renameRecord record issued)) o
  | marked {o : Outcome} (file : String) (record : IssuedRecord) (rest : List String)
      (files : o.directory.files = d.files.set file (.issued { record with revoked := true }))
      (events : o.events = [.revoked record.fingerprint256])
      (pc : o.pc = .clearRevoked file record.fingerprint256 true rest) :
      Effect crypto d (.renameRevoked file record rest) o

section Effects

variable {crypto : Crypto} {authority : Authority} {now pid : ℕ} {d : Directory}

theorem writeWork_files (call : RedeemCall) (record : GrantRecord) (kind : WorkFile)
    (text : String) (next : RedeemPc) :
    (writeWork d call record kind text next).directory.files = d.files ∧
      (writeWork d call record kind text next).events = [] := by
  unfold writeWork
  split_ifs <;> exact ⟨rfl, rfl⟩

theorem stepRedeem_effect (call : RedeemCall) (pc : RedeemPc) :
    Effect crypto d (.redeem call pc) (stepRedeem crypto authority now pid d call pc) := by
  cases pc with
  | renameRecord record issued => exact .recorded call record issued rfl rfl rfl
  | renameGrant record response => exact .consumed call record response rfl rfl rfl
  | unlock response =>
    cases response with
    | none => exact .quiet rfl rfl
    | some entry => exact .redeemed call entry.1 entry.2 rfl rfl rfl
  | cleanup record response left =>
    cases left with
    | cons kind left => exact .quiet rfl rfl
    | nil => cases response <;> exact .quiet rfl rfl
  | writeCsr record =>
    obtain ⟨hfiles, hevents⟩ := writeWork_files (d := d) call record .csr call.request.csrPem
      (.writeExt record)
    exact .quiet hfiles hevents
  | writeExt record =>
    obtain ⟨hfiles, hevents⟩ := writeWork_files (d := d) call record .ext call.request.hubId
      (.writeSrl record)
    exact .quiet hfiles hevents
  | writeSrl record =>
    obtain ⟨hfiles, hevents⟩ := writeWork_files (d := d) call record .srl ""
      (if leafDays authority now < 1 then .cleanup record none [.csr, .cert, .ext, .srl]
        else .sign record)
    exact .quiet hfiles hevents
  | _ =>
    simp only [stepRedeem]
    repeat' split
    all_goals exact .quiet rfl rfl

theorem stepProcess_effect (pc : Pc) :
    Effect crypto d pc (stepProcess crypto authority now pid d pc) := by
  cases pc with
  | redeem call pc => exact stepRedeem_effect call pc
  | renameApproval record => exact .approved record rfl rfl rfl
  | renameRevoked file record rest => exact .marked file record rest rfl rfl rfl
  | readIssued fingerprint256 files =>
    cases files with
    | nil => exact .returned fingerprint256 rfl rfl rfl
    | cons file files =>
      simp only [stepProcess]
      repeat' split
      all_goals exact .quiet rfl rfl
  | _ =>
    simp only [stepProcess]
    repeat' split
    all_goals exact .quiet rfl rfl

theorem Effect.unsigned {pc : Pc} {o : Outcome} (h : Effect crypto d pc o)
    (csrHash : Digest) (pem : String) : .signed csrHash pem ∉ o.events := by
  cases h with
  | quiet files events | returned fp files events pc => rw [events]; simp
  | redeemed call h r files events pc | approved record files events pc => rw [events]; simp
  | consumed call record response files events pc => rw [events]; simp
  | recorded call record issued files events pc => rw [events]; simp
  | marked file record rest files events pc => rw [events]; simp

end Effects

/-! ### The directory of a run -/

namespace Directory

variable {d : Directory}

theorem Named.grant (h : d.Named) {file : String} {record : GrantRecord}
    (hget : d.files.get? file = some (.grant record)) : file = grantFile record.tokenHash := by
  rcases h file _ hget with ⟨record', heq, hfile⟩ | ⟨record', csrHash, heq, -⟩
  · cases heq
    exact hfile
  · cases heq

theorem Named.issued (h : d.Named) {file : String} {record : IssuedRecord}
    (hget : d.files.get? file = some (.issued record)) : ∃ csrHash, file = recordFile csrHash := by
  rcases h file _ hget with ⟨record', heq, -⟩ | ⟨record', csrHash, -, hfile⟩
  · cases heq
  · exact ⟨csrHash, hfile⟩

theorem Named.get?_issuedFile (h : d.Named) (csrHash : Digest) :
    d.files.get? (issuedFile csrHash) = none := by
  cases hget : d.files.get? (issuedFile csrHash) with
  | none => rfl
  | some content =>
    rcases h _ _ hget with ⟨record, -, hfile⟩ | ⟨record, h', -, hfile⟩
    · exact absurd hfile (issuedFile_ne_grantFile csrHash _)
    · exact absurd hfile (issuedFile_ne_recordFile csrHash _)

theorem grant?_eq_some {tokenHash : Digest} {record : GrantRecord} :
    d.grant? tokenHash = some record ↔
      d.files.get? (grantFile tokenHash) = some (.grant record) := by
  unfold grant?
  split
  next h => simp [h]
  next h =>
    exact iff_of_false (by simp) (h _)

theorem issued?_eq_some {file : String} {record : IssuedRecord} :
    d.issued? file = some record ↔ d.files.get? file = some (.issued record) := by
  unfold issued?
  split
  next h => simp [h]
  next h =>
    exact iff_of_false (by simp) (h _)

theorem Named.grant?_tokenHash (h : d.Named) {tokenHash : Digest} {record : GrantRecord}
    (hget : d.grant? tokenHash = some record) : record.tokenHash = tokenHash :=
  (grantFile_injective (h.grant (grant?_eq_some.mp hget))).symm

theorem Named.setGrant (h : d.Named) {d' : Directory} {record : GrantRecord}
    (hfiles : d'.files = d.files.set (grantFile record.tokenHash) (.grant record)) : d'.Named := by
  intro file content hget
  rw [hfiles, OrderedMap.get?_set] at hget
  split_ifs at hget with heq
  · cases hget
    exact .inl ⟨record, rfl, heq.symm⟩
  · exact h file content hget

theorem Named.setIssued (h : d.Named) {d' : Directory} {csrHash : Digest} {record : IssuedRecord}
    (hfiles : d'.files = d.files.set (recordFile csrHash) (.issued record)) : d'.Named := by
  intro file content hget
  rw [hfiles, OrderedMap.get?_set] at hget
  split_ifs at hget with heq
  · cases hget
    exact .inr ⟨record, csrHash, rfl, heq.symm⟩
  · exact h file content hget

theorem Named.mem_recordFiles (h : d.Named) {file : String} :
    file ∈ d.recordFiles ↔ ∃ record, d.files.get? file = some (.issued record) := by
  rw [recordFiles, List.mem_filter, OrderedMap.mem_keys_iff, Option.isSome_iff_exists]
  constructor
  · rintro ⟨⟨content, hget⟩, hends⟩
    rcases h _ _ hget with ⟨record, -, hfile⟩ | ⟨record, csrHash, heq, -⟩
    · rw [hfile, not_endsWith_grantFile] at hends
      cases hends
    · exact ⟨record, heq ▸ hget⟩
  · rintro ⟨record, hget⟩
    obtain ⟨csrHash, hfile⟩ := h.issued hget
    refine ⟨⟨_, hget⟩, ?_⟩
    rw [hfile]
    exact endsWith_recordFile csrHash

end Directory

/-- The names that a process carries along: the grant of its call, and the file of a certificate. -/
def RedeemPc.grant? : RedeemPc → Option GrantRecord
  | .findIssued record | .writeCsr record | .writeExt record | .writeSrl record | .sign record
  | .readCert record | .writeRecord record _ | .renameRecord record _ | .clearRecord record _
  | .cleanup record _ _ | .writeGrant record _ | .renameGrant record _ | .clearGrant record _ =>
    some record
  | .lookup | .lock | .stale | .takeover | .relock | .read | .unlock _ => none

def Pc.Named : Pc → Prop
  | .redeem call pc => ∀ record, pc.grant? = some record → record.tokenHash = call.tokenHash
  | .writeRevoked file _ _ | .renameRevoked file _ _ => ∃ csrHash, file = recordFile csrHash
  | _ => True

section Pcs

variable {crypto : Crypto} {authority : Authority} {now pid : ℕ} {d : Directory}

theorem stepRedeem_pc (crypto : Crypto) (authority : Authority) (now pid : ℕ) (d : Directory)
    (call : RedeemCall) (pc : RedeemPc) :
    (stepRedeem crypto authority now pid d call pc).pc = .idle ∨
      ∃ pc', (stepRedeem crypto authority now pid d call pc).pc = .redeem call pc' ∧
        ∀ record, pc'.grant? = some record → pc.grant? = some record ∨
          pc = .read ∧ pc' = .findIssued record ∧ d.grant? call.tokenHash = some record ∧
            record.consumed = false ∧ acceptsGrant crypto now call record = true := by
  cases pc with
  | read =>
    simp only [stepRedeem]
    split
    next => exact .inr ⟨_, rfl, fun _ h => by cases h⟩
    next record hget =>
      split_ifs with hconsumed haccepts
      · exact .inr ⟨_, rfl, fun _ h => by cases h⟩
      · refine .inr ⟨_, rfl, fun record' h => .inr ?_⟩
        cases h
        exact ⟨by simp, rfl, hget, by simpa using hconsumed, haccepts⟩
      · exact .inr ⟨_, rfl, fun _ h => by cases h⟩
  | cleanup record response left =>
    cases left with
    | cons kind left => exact .inr ⟨_, rfl, fun _ h => .inl h⟩
    | nil =>
      cases response with
      | some response => exact .inr ⟨_, rfl, fun _ h => .inl h⟩
      | none => exact .inr ⟨_, rfl, fun _ h => by cases h⟩
  | unlock response => cases response <;> exact .inl rfl
  | writeSrl record =>
    simp only [stepRedeem, writeWork]
    split_ifs <;> exact .inr ⟨_, rfl, fun _ h => .inl h⟩
  | _ =>
    simp only [stepRedeem, writeWork]
    repeat' split
    all_goals
      first
        | exact .inl rfl
        | exact .inr ⟨_, rfl, fun _ h => .inl h⟩
        | exact .inr ⟨_, rfl, fun _ h => by cases h⟩

theorem stepProcess_named (hd : d.Named) {pc : Pc} (hpc : pc.Named) :
    (stepProcess crypto authority now pid d pc).pc.Named := by
  cases pc with
  | redeem call pc =>
    rcases stepRedeem_pc crypto authority now pid d call pc with h | ⟨pc', h, hgrant⟩
    · simp only [stepProcess, h, Pc.Named]
    · simp only [stepProcess, h]
      intro record hrecord
      rcases hgrant record hrecord with hsame | ⟨-, -, hget, -⟩
      · exact hpc record hsame
      · exact hd.grant?_tokenHash hget
  | readIssued fingerprint256 files =>
    cases files with
    | nil => trivial
    | cons file files =>
      simp only [stepProcess]
      split
      next record hget =>
        split_ifs
        · exact hd.issued (Directory.issued?_eq_some.mp hget)
        · trivial
      next => trivial
  | writeRevoked file record files =>
    simp only [stepProcess]
    split_ifs
    · trivial
    · exact hpc
  | clearRevoked file fingerprint256 written files | writeApproval record =>
    simp only [stepProcess]
    split_ifs <;> trivial
  | _ => trivial

theorem Effect.named {pc : Pc} {o : Outcome} (h : Effect crypto d pc o) (hd : d.Named)
    (hpc : pc.Named) : o.directory.Named := by
  cases h with
  | quiet files events | returned fp files events pc => exact fun f c hget => hd f c (files ▸ hget)
  | redeemed call h r files events pc => exact fun f c hget => hd f c (files ▸ hget)
  | approved record files events pc => exact hd.setGrant files
  | consumed call record response files events pc =>
    have hcall : record.tokenHash = call.tokenHash := hpc record rfl
    have hfiles : o.directory.files =
        d.files.set (grantFile (consumedRecord crypto record response).tokenHash)
          (.grant (consumedRecord crypto record response)) := by
      rw [files, ← hcall]
      rfl
    exact hd.setGrant hfiles
  | recorded call record issued files events pc => exact hd.setIssued files
  | marked file record rest files events pc =>
    obtain ⟨csrHash, rfl⟩ := hpc
    exact hd.setIssued files

end Pcs

namespace Enrollment

theorem setPc_procs (s : Enrollment) (p q : ℕ) (pc : Pc) :
    (s.setPc p pc).procs q = if q = p then pc else s.procs q := rfl

theorem apply_procs (s : Enrollment) (p q : ℕ) (o : Outcome) :
    (s.apply p o).procs q = if q = p then o.pc else s.procs q := rfl

def Named (s : Enrollment) : Prop := s.directory.Named ∧ ∀ p, (s.procs p).Named

theorem Named.setPc {s : Enrollment} (h : s.Named) (pid : ℕ) {pc : Pc} (hpc : pc.Named) :
    (s.setPc pid pc).Named := by
  refine ⟨h.1, fun q => ?_⟩
  rw [setPc_procs]
  split_ifs
  · exact hpc
  · exact h.2 q

variable {crypto : Crypto} {authority : ℕ → Authority}

theorem Named.next {s : Enrollment} (h : s.Named) (a : Action) :
    (s.next crypto authority a).Named := by
  cases a with
  | time now => exact h
  | approve pid request operatorApproval token =>
    simp only [Enrollment.next]
    split_ifs
    · exact h.setPc pid trivial
    · exact h
  | redeem pid request grant =>
    simp only [Enrollment.next]
    split_ifs
    · exact h.setPc pid nofun
    · exact h
  | revoke pid fingerprint256 files =>
    simp only [Enrollment.next]
    split_ifs
    · exact h.setPc pid trivial
    · exact h
  | run pid =>
    refine ⟨(stepProcess_effect _).named h.1 (h.2 pid), fun q => ?_⟩
    show ((s.apply pid _).procs q).Named
    rw [apply_procs]
    split_ifs
    · exact stepProcess_named h.1 (h.2 pid)
    · exact h.2 q
  | sign pid pem =>
    simp only [Enrollment.next]
    split
    next call record hpc =>
      split_ifs
      · refine ⟨h.1, fun q => ?_⟩
        rw [apply_procs]
        split_ifs
        · have hnamed := h.2 pid
          rw [hpc] at hnamed
          exact hnamed
        · exact h.2 q
      · exact h
    next => exact h
  | crash pid => exact h.setPc pid trivial

theorem named_reachable {ok : Enrollment → Action → Prop} {s : Enrollment}
    (h : (system crypto authority).Reachable ok s) : s.Named := by
  have hstart : start.Named := ⟨nofun, fun _ => trivial⟩
  exact System.Reachable.invariant_ofFun (I := Named) hstart (fun _ a hs _ => hs.next a) h

end Enrollment

end TransformHub.Manager.CsrEnrollment
