import Mathlib.Data.List.Infix
import TransformHub.Js.Text
import TransformHub.Lib.OrderedMap
import TransformHub.Lib.Transition

/-!
# The CSR enrolment store of the Manager

`CsrEnrollmentAuthority` of `csr-enrollment.ts`, for any number of processes on one directory.
-/

namespace TransformHub.Manager.CsrEnrollment

/-! ## Records -/

/-- A digest in hexadecimal form. -/
@[ext] structure Digest where
  text : String
  hex : ∀ c ∈ text.toList, c.isDigit = true ∨ c ∈ ['a', 'b', 'c', 'd', 'e', 'f']
deriving DecidableEq

def PROTOCOL_VERSION : String := "csr-enrollment/v1"

/-- `CsrEnrollmentRequest` and `CsrEnrollmentRedemptionRequest`. -/
structure EnrollmentRequest where
  version : String
  hubId : String
  csrPem : String
  sans : List String
  nonce : String
deriving DecidableEq

structure CertificateResponse where
  hubId : String
  certificatePem : String
  caFingerprint256 : String
  expiresAt : ℕ
deriving DecidableEq

structure GrantRecord where
  tokenHash : Digest
  csrHash : Digest
  hubId : String
  sans : List String
  nonce : String
  expiresAt : ℕ
  consumed : Bool
  issuedFingerprint256 : Option String
  issuedResponse : Option CertificateResponse
deriving DecidableEq

/-- The record that `issueCertificate` stores. -/
structure IssuedRecord where
  fingerprint256 : String
  hubId : String
  revoked : Bool
  response : CertificateResponse
deriving DecidableEq

inductive JsonFile where
  | grant (record : GrantRecord)
  | issued (record : IssuedRecord)

/-- What is taken from outside: SHA-256, the validation of a CSR for a hub, and of a certificate its
fingerprint, its end of validity and whether it meets the constraints of the CA. -/
structure Crypto where
  hash : String → Digest
  validateCsr : String → String → Bool
  fingerprint256 : String → String
  validTo : String → ℕ
  meetsConstraints : String → Bool

/-- The options of one process, and what it has read from its CA. -/
structure Authority where
  enabled : Bool
  operatorApproval : String
  leafValidityMs : Option ℕ
  grantTtlMs : ℕ
  caValidToMs : ℕ
  caFingerprint256 : String

/-! ## Requests -/

def isAlphanumeric (c : Char) : Bool := c.isDigit || c.isUpper || c.isLower

/-- `/^[A-Za-z0-9][A-Za-z0-9._-]{0,127}$/`. -/
def isHubId (s : String) : Bool :=
  match s.toList with
  | [] => false
  | c :: cs => isAlphanumeric c && cs.length ≤ 127 &&
      cs.all fun c => isAlphanumeric c || c = '.' || c = '_' || c = '-'

/-- `/^[a-f0-9]{32,128}$/i`. -/
def isNonce (s : String) : Bool :=
  32 ≤ s.toList.length && s.toList.length ≤ 128 &&
    s.toList.all fun c => c.isDigit || c.toLower ∈ ['a', 'b', 'c', 'd', 'e', 'f']

def validateRequest (r : EnrollmentRequest) : Bool :=
  r.version = PROTOCOL_VERSION && isHubId r.hubId && r.sans = [r.hubId] && isNonce r.nonce &&
    ("-----BEGIN CERTIFICATE REQUEST-----".toList <:+: r.csrPem.toList)

/-! ## Files -/

def grantFile (tokenHash : Digest) : String := tokenHash.text ++ ".json"

/-- The file in which `redeem` looks for an issued certificate. -/
def issuedFile (csrHash : Digest) : String := "issued-" ++ csrHash.text ++ ".json"

/-- The file in which `issueCertificate` stores it. -/
def recordFile (csrHash : Digest) : String := "issued-" ++ csrHash.text ++ ".issued.json"

/-- The work files of `issueCertificate`. -/
inductive WorkFile where
  | csr
  | cert
  | ext
  | srl
deriving DecidableEq

theorem Digest.dot_notMem (h : Digest) : '.' ∉ h.text.toList := by
  intro hmem
  rcases h.hex _ hmem with hd | hd
  · cases hd
  · simp at hd

theorem grantFile_toList (h : Digest) :
    (grantFile h).toList = h.text.toList ++ '.' :: "json".toList := by
  rw [grantFile, String.toList_append]
  rfl

theorem issuedFile_toList (h : Digest) :
    (issuedFile h).toList = ("issued-".toList ++ h.text.toList) ++ '.' :: "json".toList := by
  rw [issuedFile, String.toList_append, String.toList_append]
  rfl

theorem recordFile_toList (h : Digest) :
    (recordFile h).toList = ("issued-".toList ++ h.text.toList) ++ '.' :: "issued.json".toList := by
  rw [recordFile, String.toList_append, String.toList_append]
  rfl

theorem issued_dot_notMem (h : Digest) : '.' ∉ "issued-".toList ++ h.text.toList := by
  rw [List.mem_append]
  rintro (hmem | hmem)
  · revert hmem
    decide
  · exact h.dot_notMem hmem

theorem grantFile_injective {h h' : Digest} (heq : grantFile h = grantFile h') : h = h' := by
  have hlist := congrArg String.toList heq
  rw [grantFile_toList, grantFile_toList, List.append_left_inj] at hlist
  exact Digest.ext (String.toList_inj.mp hlist)

theorem recordFile_injective {h h' : Digest} (heq : recordFile h = recordFile h') : h = h' := by
  have hlist := congrArg String.toList heq
  rw [recordFile_toList, recordFile_toList, List.append_left_inj, List.append_right_inj] at hlist
  exact Digest.ext (String.toList_inj.mp hlist)

theorem grantFile_ne_recordFile (h h' : Digest) : grantFile h ≠ recordFile h' := by
  intro heq
  have hlist := congrArg String.toList heq
  rw [grantFile_toList, recordFile_toList] at hlist
  have hsplit := (List.append_cons_inj_of_notMem h.dot_notMem (by decide)).mp hlist
  exact absurd hsplit.2.2 (by decide)

theorem issuedFile_ne_recordFile (h h' : Digest) : issuedFile h ≠ recordFile h' := by
  intro heq
  have hlist := congrArg String.toList heq
  rw [issuedFile_toList, recordFile_toList] at hlist
  have hsplit :=
    (List.append_cons_inj_of_notMem (issued_dot_notMem h) (by decide)).mp hlist
  exact absurd hsplit.2.2 (by decide)

theorem issuedFile_ne_grantFile (h h' : Digest) : issuedFile h ≠ grantFile h' := by
  intro heq
  have hlist := congrArg String.toList heq
  rw [issuedFile_toList, grantFile_toList] at hlist
  have hsplit := (List.append_cons_inj_of_notMem (issued_dot_notMem h) (by decide)).mp hlist
  have hi : 'i' ∈ h'.text.toList := by
    rw [← hsplit.1]
    exact List.mem_append_left _ (by decide)
  rcases h'.hex _ hi with hd | hd
  · cases hd
  · simp at hd

theorem endsWith_recordFile (h : Digest) : Js.endsWith (recordFile h) ".issued.json" = true :=
  Js.endsWith_append _ _

theorem not_endsWith_grantFile (h : Digest) : Js.endsWith (grantFile h) ".issued.json" = false := by
  rw [Bool.eq_false_iff]
  intro hends
  obtain ⟨front, hfront⟩ := Js.endsWith_iff.mp hends
  have hlist : h.text.toList ++ '.' :: "json".toList = front ++ '.' :: "issued.json".toList := by
    rw [← grantFile_toList]
    exact hfront.symm
  have hsplit := (List.append_cons_inj_of_notMem h.dot_notMem (by decide)).mp hlist
  exact absurd hsplit.2.2 (by decide)

structure Directory where
  files : OrderedMap String JsonFile
  /-- the lock files of grants, with the time at which they were made -/
  locks : OrderedMap Digest ℕ
  work : OrderedMap (WorkFile × Digest) String
  /-- the files that are written before they get a name of `files`, by that name and the process -/
  partials : List (String × ℕ)

namespace Directory

def empty : Directory := ⟨.empty, .empty, .empty, []⟩

def grant? (d : Directory) (tokenHash : Digest) : Option GrantRecord :=
  match d.files.get? (grantFile tokenHash) with
  | some (.grant record) => some record
  | _ => none

/-- The record in a file whose name ends in `.issued.json`. -/
def issued? (d : Directory) (file : String) : Option IssuedRecord :=
  match d.files.get? file with
  | some (.issued record) => some record
  | _ => none

/-- The names that the loops over the directory do not skip. -/
def recordFiles (d : Directory) : List String :=
  d.files.keys.filter (Js.endsWith · ".issued.json")

def setFile (d : Directory) (file : String) (content : JsonFile) : Directory :=
  { d with files := d.files.set file content }

def addPartial (d : Directory) (file : String) (pid : ℕ) : Directory :=
  { d with partials := (file, pid) :: d.partials }

def clearPartial (d : Directory) (file : String) (pid : ℕ) : Directory :=
  { d with partials := d.partials.filter fun e => e ≠ (file, pid) }

def setWork (d : Directory) (kind : WorkFile) (csrHash : Digest) (text : String) : Directory :=
  { d with work := d.work.set (kind, csrHash) text }

def removeWork (d : Directory) (kind : WorkFile) (csrHash : Digest) : Directory :=
  { d with work := d.work.delete (kind, csrHash) }

def setLock (d : Directory) (tokenHash : Digest) (mtime : ℕ) : Directory :=
  { d with locks := d.locks.set tokenHash mtime }

def removeLock (d : Directory) (tokenHash : Digest) : Directory :=
  { d with locks := d.locks.delete tokenHash }

/-- `isClientFingerprintAuthorizedForHub`; `hubId` is `""` when it is not given. -/
def isAuthorized (d : Directory) (enabled : Bool) (fingerprint256 hubId : String) : Bool :=
  enabled && d.recordFiles.any fun file =>
    (d.issued? file).any fun record =>
      record.fingerprint256 = fingerprint256 && (hubId = "" || record.hubId = hubId) &&
        !record.revoked

end Directory

/-! ## Processes -/

/-- The request of a redeem, and the hash of its grant. -/
structure RedeemCall where
  request : EnrollmentRequest
  tokenHash : Digest
deriving DecidableEq

/-- The next file operation of a redeem. -/
inductive RedeemPc where
  | lookup
  | lock
  | stale
  | takeover
  | relock
  | read
  | findIssued (record : GrantRecord)
  | writeCsr (record : GrantRecord)
  | writeExt (record : GrantRecord)
  | writeSrl (record : GrantRecord)
  | sign (record : GrantRecord)
  | readCert (record : GrantRecord)
  | writeRecord (record : GrantRecord) (issued : IssuedRecord)
  | renameRecord (record : GrantRecord) (issued : IssuedRecord)
  | clearRecord (record : GrantRecord) (response : Option CertificateResponse)
  | cleanup (record : GrantRecord) (response : Option CertificateResponse) (left : List WorkFile)
  | writeGrant (record : GrantRecord) (response : CertificateResponse)
  | renameGrant (record : GrantRecord) (response : CertificateResponse)
  | clearGrant (record : GrantRecord) (response : Option CertificateResponse)
  | unlock (response : Option (Digest × CertificateResponse))
deriving DecidableEq

inductive Pc where
  | idle
  | writeApproval (record : GrantRecord)
  | renameApproval (record : GrantRecord)
  | clearApproval (record : GrantRecord)
  | redeem (call : RedeemCall) (pc : RedeemPc)
  | readIssued (fingerprint256 : String) (files : List String)
  | writeRevoked (file : String) (record : IssuedRecord) (files : List String)
  | renameRevoked (file : String) (record : IssuedRecord) (files : List String)
  | clearRevoked (file : String) (fingerprint256 : String) (written : Bool) (files : List String)
deriving DecidableEq

/-- What has been done, for good. -/
inductive Event where
  /-- a grant has been stored for an approved request -/
  | approved (record : GrantRecord)
  /-- `openssl` has signed a certificate for a CSR -/
  | signed (csrHash : Digest) (certificatePem : String)
  /-- a certificate has been stored, under a grant -/
  | issued (grant : GrantRecord) (record : IssuedRecord)
  /-- a revoke has marked the stored certificate, or has returned -/
  | revoked (fingerprint256 : String)
  /-- `redeem` has returned a certificate, for a grant with this CSR -/
  | redeemed (call : RedeemCall) (csrHash : Digest) (response : CertificateResponse)
deriving DecidableEq

/-- What a step of a process leaves. -/
structure Outcome where
  directory : Directory
  pc : Pc
  events : List Event

section Steps

variable (crypto : Crypto) (authority : Authority) (now pid : ℕ)

/-- The checks on the record of a grant, up to the validation of the CSR. -/
def acceptsGrant (call : RedeemCall) (record : GrantRecord) : Bool :=
  now < record.expiresAt && record.csrHash = crypto.hash call.request.csrPem &&
    record.hubId = call.request.hubId && record.nonce = call.request.nonce &&
      record.sans = call.request.sans &&
        crypto.validateCsr call.request.csrPem call.request.hubId

def dayMs : ℕ := 24 * 60 * 60 * 1000

/-- The validity of a new certificate in days. -/
def leafDays : ℕ :=
  min (authority.caValidToMs - now) (authority.leafValidityMs.getD (365 * dayMs)) / dayMs

def issuedRecord (call : RedeemCall) (pem : String) : IssuedRecord where
  fingerprint256 := crypto.fingerprint256 pem
  hubId := call.request.hubId
  revoked := false
  response :=
    { hubId := call.request.hubId
      certificatePem := pem
      caFingerprint256 := authority.caFingerprint256
      expiresAt := crypto.validTo pem }

def consumedRecord (record : GrantRecord) (response : CertificateResponse) : GrantRecord :=
  { record with
    consumed := true
    issuedFingerprint256 := some (crypto.fingerprint256 response.certificatePem)
    issuedResponse := some response }

/-- `writeFileSync` of a work file with the flag `wx`; its failure ends in the cleanup. -/
def writeWork (d : Directory) (call : RedeemCall) (record : GrantRecord) (kind : WorkFile)
    (text : String) (next : RedeemPc) : Outcome :=
  if d.work.has (kind, record.csrHash) then
    ⟨d, .redeem call (.cleanup record none [.csr, .cert, .ext, .srl]), []⟩
  else ⟨d.setWork kind record.csrHash text, .redeem call next, []⟩

/-- One file operation of `redeem`. -/
def stepRedeem (d : Directory) (call : RedeemCall) : RedeemPc → Outcome
  | .lookup =>
    if (d.files.has (grantFile call.tokenHash)) then ⟨d, .redeem call .lock, []⟩
    else ⟨d, .idle, []⟩
  | .lock =>
    if d.locks.has call.tokenHash then ⟨d, .redeem call .stale, []⟩
    else ⟨d.setLock call.tokenHash now, .redeem call .read, []⟩
  | .stale =>
    match d.locks.get? call.tokenHash with
    | none => ⟨d, .idle, []⟩
    | some mtime =>
      if 5 * 60 * 1000 < now - mtime then ⟨d, .redeem call .takeover, []⟩ else ⟨d, .idle, []⟩
  | .takeover => ⟨d.removeLock call.tokenHash, .redeem call .relock, []⟩
  | .relock =>
    if d.locks.has call.tokenHash then ⟨d, .idle, []⟩
    else ⟨d.setLock call.tokenHash now, .redeem call .read, []⟩
  | .read =>
    match d.grant? call.tokenHash with
    | none => ⟨d, .redeem call (.unlock none), []⟩
    | some record =>
      if record.consumed then
        ⟨d, .redeem call (.unlock (record.issuedResponse.map fun r => (record.csrHash, r))), []⟩
      else if acceptsGrant crypto now call record then
        ⟨d, .redeem call (.findIssued record), []⟩
      else ⟨d, .redeem call (.unlock none), []⟩
  | .findIssued record =>
    match d.files.get? (issuedFile record.csrHash) with
    | some (.issued issued) => ⟨d, .redeem call (.writeGrant record issued.response), []⟩
    | some (.grant _) => ⟨d, .redeem call (.unlock none), []⟩
    | none => ⟨d, .redeem call (.writeCsr record), []⟩
  | .writeCsr record => writeWork d call record .csr call.request.csrPem (.writeExt record)
  | .writeExt record => writeWork d call record .ext call.request.hubId (.writeSrl record)
  | .writeSrl record =>
    writeWork d call record .srl ""
      (if leafDays authority now < 1 then .cleanup record none [.csr, .cert, .ext, .srl]
        else .sign record)
  -- `openssl` has failed
  | .sign record => ⟨d, .redeem call (.cleanup record none [.csr, .cert, .ext, .srl]), []⟩
  | .readCert record =>
    match d.work.get? (.cert, record.csrHash) with
    | none => ⟨d, .redeem call (.cleanup record none [.csr, .cert, .ext, .srl]), []⟩
    | some pem =>
      if crypto.meetsConstraints pem && crypto.validTo pem ≤ authority.caValidToMs then
        ⟨d, .redeem call (.writeRecord record (issuedRecord crypto authority call pem)), []⟩
      else ⟨d, .redeem call (.cleanup record none [.csr, .cert, .ext, .srl]), []⟩
  | .writeRecord record issued =>
    if (recordFile record.csrHash, pid) ∈ d.partials then
      ⟨d, .redeem call (.clearRecord record none), []⟩
    else
      ⟨d.addPartial (recordFile record.csrHash) pid, .redeem call (.renameRecord record issued),
        []⟩
  | .renameRecord record issued =>
    ⟨(d.clearPartial (recordFile record.csrHash) pid).setFile (recordFile record.csrHash)
        (.issued issued),
      .redeem call (.clearRecord record (some issued.response)), [.issued record issued]⟩
  | .clearRecord record response =>
    ⟨d.clearPartial (recordFile record.csrHash) pid,
      .redeem call (.cleanup record response [.csr, .cert, .ext, .srl]), []⟩
  | .cleanup record response (kind :: left) =>
    ⟨d.removeWork kind record.csrHash, .redeem call (.cleanup record response left), []⟩
  | .cleanup record (some response) [] => ⟨d, .redeem call (.writeGrant record response), []⟩
  | .cleanup _ none [] => ⟨d, .redeem call (.unlock none), []⟩
  | .writeGrant record response =>
    if (grantFile call.tokenHash, pid) ∈ d.partials then
      ⟨d, .redeem call (.clearGrant record none), []⟩
    else
      ⟨d.addPartial (grantFile call.tokenHash) pid, .redeem call (.renameGrant record response),
        []⟩
  | .renameGrant record response =>
    ⟨(d.clearPartial (grantFile call.tokenHash) pid).setFile (grantFile call.tokenHash)
        (.grant (consumedRecord crypto record response)),
      .redeem call (.clearGrant record (some response)), []⟩
  | .clearGrant record response =>
    ⟨d.clearPartial (grantFile call.tokenHash) pid,
      .redeem call (.unlock (response.map fun r => (record.csrHash, r))), []⟩
  | .unlock none => ⟨d.removeLock call.tokenHash, .idle, []⟩
  | .unlock (some (csrHash, response)) =>
    ⟨d.removeLock call.tokenHash, .idle, [.redeemed call csrHash response]⟩

def stepProcess (d : Directory) : Pc → Outcome
  | .idle => ⟨d, .idle, []⟩
  | .writeApproval record =>
    if (grantFile record.tokenHash, pid) ∈ d.partials then ⟨d, .clearApproval record, []⟩
    else ⟨d.addPartial (grantFile record.tokenHash) pid, .renameApproval record, []⟩
  | .renameApproval record =>
    ⟨(d.clearPartial (grantFile record.tokenHash) pid).setFile (grantFile record.tokenHash)
        (.grant record), .clearApproval record, [.approved record]⟩
  | .clearApproval record => ⟨d.clearPartial (grantFile record.tokenHash) pid, .idle, []⟩
  | .redeem call pc => stepRedeem crypto authority now pid d call pc
  | .readIssued fingerprint256 [] => ⟨d, .idle, [.revoked fingerprint256]⟩
  | .readIssued fingerprint256 (file :: files) =>
    match d.issued? file with
    | some record =>
      if record.fingerprint256 = fingerprint256 then ⟨d, .writeRevoked file record files, []⟩
      else ⟨d, .readIssued fingerprint256 files, []⟩
    | none => ⟨d, .readIssued fingerprint256 files, []⟩
  | .writeRevoked file record files =>
    if (file, pid) ∈ d.partials then
      ⟨d, .clearRevoked file record.fingerprint256 false files, []⟩
    else ⟨d.addPartial file pid, .renameRevoked file record files, []⟩
  | .renameRevoked file record files =>
    ⟨(d.clearPartial file pid).setFile file (.issued { record with revoked := true }),
      .clearRevoked file record.fingerprint256 true files, [.revoked record.fingerprint256]⟩
  | .clearRevoked file fingerprint256 written files =>
    ⟨d.clearPartial file pid, if written then .readIssued fingerprint256 files else .idle, []⟩

end Steps

/-! ## Runs -/

structure Enrollment where
  now : ℕ
  directory : Directory
  procs : ℕ → Pc
  log : List Event

inductive Action where
  /-- the clock shows another time -/
  | time (now : ℕ)
  | approve (pid : ℕ) (request : EnrollmentRequest) (operatorApproval token : String)
  | redeem (pid : ℕ) (request : EnrollmentRequest) (grant : String)
  /-- the directory is listed in some order -/
  | revoke (pid : ℕ) (fingerprint256 : String) (files : List String)
  | run (pid : ℕ)
  /-- `openssl` signs a certificate -/
  | sign (pid : ℕ) (certificatePem : String)
  | crash (pid : ℕ)

namespace Enrollment

def start : Enrollment := ⟨0, .empty, fun _ => .idle, []⟩

def setPc (s : Enrollment) (pid : ℕ) (pc : Pc) : Enrollment :=
  { s with procs := fun q => if q = pid then pc else s.procs q }

def apply (s : Enrollment) (pid : ℕ) (o : Outcome) : Enrollment :=
  { s.setPc pid o.pc with directory := o.directory, log := s.log ++ o.events }

def grantRecord (crypto : Crypto) (ttl now : ℕ) (request : EnrollmentRequest) (token : String) :
    GrantRecord where
  tokenHash := crypto.hash token
  csrHash := crypto.hash request.csrPem
  hubId := request.hubId
  sans := request.sans
  nonce := request.nonce
  expiresAt := now + ttl
  consumed := false
  issuedFingerprint256 := none
  issuedResponse := none

variable (crypto : Crypto) (authority : ℕ → Authority)

def next (s : Enrollment) : Action → Enrollment
  | .time now => { s with now }
  | .approve pid request operatorApproval token =>
    if s.procs pid = .idle ∧ (authority pid).enabled = true ∧
        (authority pid).operatorApproval ≠ "" ∧
        operatorApproval = (authority pid).operatorApproval ∧ validateRequest request = true ∧
        crypto.validateCsr request.csrPem request.hubId = true then
      s.setPc pid (.writeApproval (grantRecord crypto (authority pid).grantTtlMs s.now request
        token))
    else s
  | .redeem pid request grant =>
    if s.procs pid = .idle ∧ (authority pid).enabled = true ∧ validateRequest request = true then
      s.setPc pid (.redeem ⟨request, crypto.hash grant⟩ .lookup)
    else s
  | .revoke pid fingerprint256 files =>
    if s.procs pid = .idle ∧ files.Perm s.directory.recordFiles then
      s.setPc pid (.readIssued fingerprint256 files)
    else s
  | .run pid => s.apply pid (stepProcess crypto (authority pid) s.now pid s.directory (s.procs pid))
  | .sign pid pem =>
    match s.procs pid with
    | .redeem call (.sign record) =>
      if s.directory.work.has (.csr, record.csrHash) ∧
          s.directory.work.has (.ext, record.csrHash) ∧
          s.directory.work.has (.srl, record.csrHash) then
        s.apply pid ⟨s.directory.setWork .cert record.csrHash pem,
          .redeem call (.readCert record), [.signed record.csrHash pem]⟩
      else s
    | _ => s
  | .crash pid => s.setPc pid .idle

def system : System Enrollment Action := .ofFun start (next crypto authority)

end Enrollment

end TransformHub.Manager.CsrEnrollment
