import TransformHub.Manager.CsrIssuance

/-!
# The binding of a redeem to its grant

One call of `redeem`, on any directory and with any readings of the clock.
-/

namespace TransformHub.Manager.CsrEnrollment

/-- The request is the one that the grant was made for. -/
def GrantRecord.Binds (crypto : Crypto) (record : GrantRecord) (request : EnrollmentRequest) :
    Prop :=
  record.csrHash = crypto.hash request.csrPem ∧ record.hubId = request.hubId ∧
    record.nonce = request.nonce ∧ record.sans = request.sans

namespace Enrollment

section Calls

variable (crypto : Crypto) (authority : ℕ → Authority) (pid : ℕ)

/-- The next file operation of the process, at the time `now`; `pem` is what `openssl` signs, if it
does. -/
def callStep (pem : Option String) (s : Enrollment) (now : ℕ) : Enrollment :=
  let s := s.next crypto authority (.time now)
  match s.procs pid, pem with
  | .redeem _ (.sign _), some pem => s.next crypto authority (.sign pid pem)
  | _, _ => s.next crypto authority (.run pid)

/-- A call of `redeem`, with the readings of the clock at its file operations. -/
def redeemCall (s : Enrollment) (request : EnrollmentRequest) (grant : String)
    (pem : Option String) (clock : List ℕ) : Enrollment :=
  clock.foldl (callStep crypto authority pid pem)
    (s.next crypto authority (.redeem pid request grant))

end Calls

def Yields (s s' : Enrollment) (call : RedeemCall) (response : CertificateResponse) : Prop :=
  ∃ events csrHash, s'.log = s.log ++ events ∧ .redeemed call csrHash response ∈ events

/-- What is stored is as before, but for the lock of the grant. -/
structure Unchanged (d d' : Directory) (tokenHash : Digest) : Prop where
  files : d'.files = d.files
  work : d'.work = d.work
  partials : d'.partials = d.partials
  locks : ∀ h, h ≠ tokenHash → d'.locks.get? h = d.locks.get? h

/-- The request is the one of the stored grant, which has not expired at some time of the call, or
has been redeemed before. -/
def Entitled (crypto : Crypto) (s : Enrollment) (request : EnrollmentRequest) (grant : String)
    (clock : List ℕ) : Prop :=
  ∃ record, s.directory.grant? (crypto.hash grant) = some record ∧ record.Binds crypto request ∧
    ((∃ now ∈ clock, now < record.expiresAt) ∨
      record.consumed = true ∧ record.issuedResponse.isSome = true)

/-- A call yields a certificate for the request of the grant only, and every other call fails and
changes nothing. -/
structure RedeemBinds (crypto : Crypto) (authority : ℕ → Authority) (pid : ℕ) (s : Enrollment)
    (request : EnrollmentRequest) (grant : String) : Prop where
  yields : ∀ pem clock response,
    Yields s (redeemCall crypto authority pid s request grant pem clock)
      ⟨request, crypto.hash grant⟩ response →
    ∃ record, s.directory.grant? (crypto.hash grant) = some record ∧
      record.Binds crypto request ∧ ((∃ now ∈ clock, now < record.expiresAt) ∨
        record.consumed = true ∧ record.issuedResponse = some response)
  fails : ∀ pem clock, ¬ Entitled crypto s request grant clock →
    let s' := redeemCall crypto authority pid s request grant pem clock
    s'.log = s.log ∧ Unchanged s.directory s'.directory (crypto.hash grant) ∧
      (7 ≤ clock.length → s'.procs pid = .idle)

/-! ## Up to the check -/

/-- How many file operations are left until a call that is refused has ended. -/
def RedeemPc.left : RedeemPc → ℕ
  | .lookup => 7
  | .lock => 6
  | .stale => 5
  | .takeover => 4
  | .relock => 3
  | .read => 2
  | _ => 1

theorem RedeemPc.left_pos (pc : RedeemPc) : 1 ≤ RedeemPc.left pc := by
  unfold RedeemPc.left
  split <;> omega

/-- Up to the check of the grant, or after it when the call is refused. -/
def RedeemPc.early : RedeemPc → Bool
  | .lookup | .lock | .stale | .takeover | .relock | .read | .unlock none => true
  | _ => false

/-- A call of `redeem` that has not issued anything, on the way to the grant or back from it. -/
structure Refused (pid : ℕ) (s t : Enrollment) (call : RedeemCall) (left : ℕ) : Prop where
  log : t.log = s.log
  directory : Unchanged s.directory t.directory call.tokenHash
  pc : t.procs pid = .idle ∨
    ∃ pc, t.procs pid = .redeem call pc ∧ RedeemPc.early pc = true ∧ RedeemPc.left pc ≤ left

/-- A call of `redeem` that hands out what a consumed grant has stored. -/
structure Replayed (pid : ℕ) (s t : Enrollment) (call : RedeemCall) (csrHash : Digest)
    (response : CertificateResponse) : Prop where
  files : t.directory.files = s.directory.files
  pc : t.procs pid = .redeem call (.unlock (some (csrHash, response))) ∧ t.log = s.log ∨
    t.procs pid = .idle ∧ t.log = s.log ++ [.redeemed call csrHash response]

variable {crypto : Crypto} {authority : ℕ → Authority} {pid : ℕ} {s t : Enrollment}
  {call : RedeemCall}

theorem Unchanged.refl (d : Directory) (h : Digest) : Unchanged d d h :=
  ⟨rfl, rfl, rfl, fun _ _ => rfl⟩

theorem Unchanged.setLock {d d' : Directory} {h : Digest} (hd : Unchanged d d' h) (now : ℕ) :
    Unchanged d (d'.setLock h now) h :=
  { hd with
    locks := by
      intro g hg
      rw [Directory.setLock, OrderedMap.get?_set_of_ne _ (Ne.symm hg)]
      exact hd.locks g hg }

theorem Unchanged.removeLock {d d' : Directory} {h : Digest} (hd : Unchanged d d' h) :
    Unchanged d (d'.removeLock h) h :=
  { hd with
    locks := by
      intro g hg
      rw [Directory.removeLock, OrderedMap.get?_delete_of_ne _ (Ne.symm hg)]
      exact hd.locks g hg }

theorem callStep_eq (pem : Option String) (now : ℕ)
    (h : ∀ call record, t.procs pid ≠ .redeem call (.sign record)) :
    callStep crypto authority pid pem t now = ({ t with now } : Enrollment).apply pid
      (stepProcess crypto (authority pid) now pid t.directory (t.procs pid)) := by
  show (match t.procs pid, pem with
    | .redeem _ (.sign _), some pem => _
    | _, _ => _) = _
  split
  · next call record pem' hpc => exact absurd hpc (h call record)
  · rfl

theorem callStep_idle {pem : Option String} {now : ℕ} (h : t.procs pid = .idle) :
    callStep crypto authority pid pem t now = ({ t with now } : Enrollment).apply pid
      ⟨t.directory, .idle, []⟩ := by
  rw [callStep_eq pem now (fun call record hnot => by rw [h] at hnot; cases hnot), h]
  rfl

theorem callStep_redeem {pem : Option String} {now : ℕ} {pc : RedeemPc}
    (h : t.procs pid = .redeem call pc) (hpc : ∀ record, pc ≠ .sign record) :
    callStep crypto authority pid pem t now = ({ t with now } : Enrollment).apply pid
      (stepRedeem crypto (authority pid) now pid t.directory call pc) := by
  rw [callStep_eq, h]
  · rfl
  · intro call' record hnot
    rw [h, Pc.redeem.injEq] at hnot
    exact hpc record hnot.2

/-! ## One step -/

theorem Refused.apply {now left : ℕ} {o : Outcome} (h : Refused pid s t call left)
    (hevents : o.events = []) (hdirectory : Unchanged s.directory o.directory call.tokenHash)
    (hpc : o.pc = .idle ∨ ∃ pc, o.pc = .redeem call pc ∧ RedeemPc.early pc = true ∧
      RedeemPc.left pc ≤ left - 1) :
    Refused pid s (({ t with now } : Enrollment).apply pid o) call (left - 1) where
  log := by
    show t.log ++ o.events = s.log
    rw [hevents, List.append_nil, h.log]
  directory := hdirectory
  pc := by
    rw [apply_procs, if_pos rfl]
    exact hpc

theorem Refused.step {now left : ℕ} (h : Refused pid s t call left) (pem : Option String)
    (hread : 2 ≤ left → t.procs pid = .redeem call .read →
      stepRedeem crypto (authority pid) now pid t.directory call .read =
        ⟨t.directory, .redeem call (.unlock none), []⟩) :
    Refused pid s (callStep crypto authority pid pem t now) call (left - 1) := by
  have hd := h.directory
  rcases h.pc with hpc | ⟨pc, hpc, hearly, hleft⟩
  · rw [callStep_idle hpc]
    exact h.apply rfl hd (.inl rfl)
  rw [callStep_redeem hpc (by rintro record rfl; cases hearly)]
  cases pc with
  | lookup =>
    have hleft : 7 ≤ left := hleft
    rw [stepRedeem]
    split
    · exact h.apply rfl hd (.inr ⟨.lock, rfl, rfl, by show 6 ≤ left - 1; omega⟩)
    · exact h.apply rfl hd (.inl rfl)
  | lock =>
    have hleft : 6 ≤ left := hleft
    rw [stepRedeem]
    split
    · exact h.apply rfl hd (.inr ⟨.stale, rfl, rfl, by show 5 ≤ left - 1; omega⟩)
    · exact h.apply rfl (hd.setLock now) (.inr ⟨.read, rfl, rfl, by show 2 ≤ left - 1; omega⟩)
  | stale =>
    have hleft : 5 ≤ left := hleft
    rw [stepRedeem]
    split
    · exact h.apply rfl hd (.inl rfl)
    · split
      · exact h.apply rfl hd (.inr ⟨.takeover, rfl, rfl, by show 4 ≤ left - 1; omega⟩)
      · exact h.apply rfl hd (.inl rfl)
  | takeover =>
    have hleft : 4 ≤ left := hleft
    exact h.apply rfl hd.removeLock (.inr ⟨.relock, rfl, rfl, by show 3 ≤ left - 1; omega⟩)
  | relock =>
    have hleft : 3 ≤ left := hleft
    rw [stepRedeem]
    split
    · exact h.apply rfl hd (.inl rfl)
    · exact h.apply rfl (hd.setLock now) (.inr ⟨.read, rfl, rfl, by show 2 ≤ left - 1; omega⟩)
  | read =>
    have hleft : 2 ≤ left := hleft
    rw [hread hleft hpc]
    exact h.apply rfl hd (.inr ⟨.unlock none, rfl, rfl, by show 1 ≤ left - 1; omega⟩)
  | unlock response =>
    cases response with
    | none => exact h.apply rfl hd.removeLock (.inl rfl)
    | some _ => cases hearly
  | _ => cases hearly

theorem grant?_congr {d d' : Directory} (hfiles : d'.files = d.files) (tokenHash : Digest) :
    d'.grant? tokenHash = d.grant? tokenHash := by
  rw [Directory.grant?, hfiles, Directory.grant?]

theorem Replayed.step {now left : ℕ} {record : GrantRecord} {response : CertificateResponse}
    (hget : s.directory.grant? call.tokenHash = some record) (hconsumed : record.consumed = true)
    (hresponse : record.issuedResponse = some response) (pem : Option String)
    (h : Refused pid s t call left ∨ Replayed pid s t call record.csrHash response) :
    Refused pid s (callStep crypto authority pid pem t now) call (left - 1) ∨
      Replayed pid s (callStep crypto authority pid pem t now) call record.csrHash response := by
  rcases h with h | h
  · by_cases hpc : t.procs pid = .redeem call .read
    · right
      rw [callStep_redeem hpc (by rintro record hnot; cases hnot), stepRedeem,
        grant?_congr h.directory.files, hget]
      dsimp only
      rw [if_pos hconsumed, hresponse]
      refine ⟨h.directory.files, .inl ⟨?_, ?_⟩⟩
      · rw [apply_procs, if_pos rfl]
        rfl
      · show t.log ++ [] = s.log
        rw [List.append_nil, h.log]
    · exact .inl (h.step pem fun _ hnot => absurd hnot hpc)
  · right
    rcases h.pc with ⟨hpc, hlog⟩ | ⟨hpc, hlog⟩
    · rw [callStep_redeem hpc (by rintro record hnot; cases hnot)]
      refine ⟨h.files, .inr ⟨?_, ?_⟩⟩
      · rw [apply_procs, if_pos rfl]
        rfl
      · show t.log ++ _ = _
        rw [hlog]
        rfl
    · rw [callStep_idle hpc]
      refine ⟨h.files, .inr ⟨?_, ?_⟩⟩
      · rw [apply_procs, if_pos rfl]
      · show t.log ++ [] = _
        rw [List.append_nil, hlog]

/-! ## Calls -/

theorem Refused.calls (pem : Option String) (clock : List ℕ) {left : ℕ}
    (h : Refused pid s t call left)
    (hread : 2 ≤ left → ∀ now ∈ clock, ∀ d : Directory, d.files = s.directory.files →
      stepRedeem crypto (authority pid) now pid d call .read =
        ⟨d, .redeem call (.unlock none), []⟩) :
    Refused pid s (clock.foldl (callStep crypto authority pid pem) t) call
      (left - clock.length) := by
  induction clock generalizing t left with
  | nil => exact h
  | cons now clock ih =>
    rw [List.foldl_cons, List.length_cons, Nat.add_comm, ← Nat.sub_sub]
    apply ih
    · exact h.step pem fun hleft _ => hread hleft now List.mem_cons_self _ h.directory.files
    · intro hleft now' hnow
      exact hread (by omega) now' (List.mem_cons_of_mem _ hnow)

theorem Replayed.calls {record : GrantRecord} {response : CertificateResponse}
    (hget : s.directory.grant? call.tokenHash = some record) (hconsumed : record.consumed = true)
    (hresponse : record.issuedResponse = some response) (pem : Option String) (clock : List ℕ)
    {left : ℕ}
    (h : Refused pid s t call left ∨ Replayed pid s t call record.csrHash response) :
    Refused pid s (clock.foldl (callStep crypto authority pid pem) t) call
        (left - clock.length) ∨
      Replayed pid s (clock.foldl (callStep crypto authority pid pem) t) call record.csrHash
        response := by
  induction clock generalizing t left with
  | nil => exact h
  | cons now clock ih =>
    rw [List.foldl_cons, List.length_cons, Nat.add_comm, ← Nat.sub_sub]
    exact ih (Replayed.step hget hconsumed hresponse pem h)

theorem refused_start (hidle : s.procs pid = .idle) (request : EnrollmentRequest) (grant : String) :
    ∃ left, Refused pid s (s.next crypto authority (.redeem pid request grant))
        ⟨request, crypto.hash grant⟩ left ∧ left ≤ 7 ∧
      (2 ≤ left → (authority pid).enabled = true ∧ validateRequest request = true) := by
  simp only [next]
  split
  · next hstart =>
      refine ⟨7, ⟨rfl, Unchanged.refl _ _, .inr ⟨.lookup, ?_, rfl, Nat.le_refl 7⟩⟩,
        Nat.le_refl 7, ?_⟩
      · rw [setPc_procs, if_pos rfl]
      · exact fun _ => hstart.2
  · exact ⟨0, ⟨rfl, Unchanged.refl _ _, .inl hidle⟩, by omega, fun hnot => by omega⟩

theorem Replayed.response {csrHash : Digest} {response response' : CertificateResponse}
    (h : Replayed pid s t call csrHash response) (hyields : Yields s t call response') :
    response' = response := by
  obtain ⟨events, csrHash', hlog, hmem⟩ := hyields
  rcases h.pc with ⟨-, hsame⟩ | ⟨-, hone⟩
  · rw [hsame, List.self_eq_append_right] at hlog
    rw [hlog] at hmem
    cases hmem
  · rw [hone, List.append_right_inj] at hlog
    rw [← hlog, List.mem_singleton, Event.redeemed.injEq] at hmem
    exact hmem.2.2

theorem Refused.not_yields {left : ℕ} {response : CertificateResponse}
    (h : Refused pid s t call left) : ¬ Yields s t call response := by
  rintro ⟨events, csrHash, hlog, hmem⟩
  rw [h.log, List.self_eq_append_right] at hlog
  rw [hlog] at hmem
  cases hmem

theorem stepRedeem_read_refused {request : EnrollmentRequest} {grant : String} {clock : List ℕ}
    {now : ℕ} {d : Directory} {a : Authority} (hnow : now ∈ clock)
    (hentitled : ¬ Entitled crypto s request grant clock)
    (hbinds : ∀ record, s.directory.grant? (crypto.hash grant) = some record →
      record.consumed = true → record.issuedResponse.isSome = true → record.Binds crypto request)
    (hfiles : d.files = s.directory.files) :
    stepRedeem crypto a now pid d ⟨request, crypto.hash grant⟩ .read =
      ⟨d, .redeem ⟨request, crypto.hash grant⟩ (.unlock none), []⟩ := by
  rw [stepRedeem, grant?_congr hfiles]
  split
  · rfl
  next record hget =>
  split
  · next hconsumed =>
      cases hresponse : record.issuedResponse with
      | none => rfl
      | some response =>
        have hsome : record.issuedResponse.isSome = true := by rw [hresponse]; rfl
        have hbound := hbinds record hget hconsumed hsome
        exact absurd ⟨record, hget, hbound, .inr ⟨hconsumed, hsome⟩⟩ hentitled
  · apply if_neg
    intro haccepts
    rw [acceptsGrant] at haccepts
    simp only [Bool.and_eq_true, decide_eq_true_eq] at haccepts
    obtain ⟨⟨⟨⟨⟨hexpires, hcsr⟩, hhub⟩, hnonce⟩, hsans⟩, -⟩ := haccepts
    exact hentitled ⟨record, hget, ⟨hcsr, hhub, hnonce, hsans⟩, .inl ⟨now, hnow, hexpires⟩⟩

theorem foldl_callStep_none (now n : ℕ) (h : t.now = now) :
    (List.replicate n now).foldl (callStep crypto authority pid none) t =
      (List.replicate n (Action.run pid)).foldl (next crypto authority) t := by
  induction n generalizing t with
  | zero => rfl
  | succ n ih =>
    rw [List.replicate_succ, List.replicate_succ, List.foldl_cons, List.foldl_cons]
    have hstep : callStep crypto authority pid none t now =
        t.next crypto authority (.run pid) := by
      subst h
      show (match t.procs pid, (none : Option String) with
        | .redeem _ (.sign _), some pem => _
        | _, _ => _) = _
      split
      · next hnone => cases hnone
      · rfl
    rw [hstep]
    exact ih h

theorem yields_of_consumed {request : EnrollmentRequest} {grant : String} {record : GrantRecord}
    {response : CertificateResponse} (hidle : s.procs pid = .idle)
    (henabled : (authority pid).enabled = true) (hvalid : validateRequest request = true)
    (hget : s.directory.grant? (crypto.hash grant) = some record)
    (hconsumed : record.consumed = true) (hresponse : record.issuedResponse = some response) :
    ∃ clock, Yields s (redeemCall crypto authority pid s request grant none clock)
      ⟨request, crypto.hash grant⟩ response := by
  -- a time at which the lock is to be had
  have hfree : ∃ now, s.directory.Free now (crypto.hash grant) := by
    cases hlock : s.directory.locks.get? (crypto.hash grant) with
    | none =>
      refine ⟨0, fun mtime hmtime => ?_⟩
      rw [hlock] at hmtime
      cases hmtime
    | some mtime =>
      refine ⟨mtime + (5 * 60 * 1000 + 1), fun mtime' hmtime => ?_⟩
      rw [hlock] at hmtime
      cases hmtime
      omega
  obtain ⟨now, hfree⟩ := hfree
  have hcall : s.next crypto authority (.redeem pid request grant) =
      s.setPc pid (.redeem ⟨request, crypto.hash grant⟩ .lookup) :=
    if_pos ⟨hidle, henabled, hvalid⟩
  have hconsumed : s.directory.Consumed (crypto.hash grant) record.csrHash response :=
    ⟨record, Directory.grant?_eq_some.mp hget, hconsumed, rfl, hresponse⟩
  refine ⟨List.replicate 7 now, [.redeemed ⟨request, crypto.hash grant⟩ record.csrHash response],
    record.csrHash, ?_, List.mem_singleton_self _⟩
  rw [redeemCall, hcall]
  -- the first operation sets the clock
  show ((List.replicate 7 now).foldl (callStep crypto authority pid none)
    ({ s.setPc pid (.redeem ⟨request, crypto.hash grant⟩ .lookup) with now } : Enrollment)).log = _
  have hstart : ({ s.setPc pid (.redeem ⟨request, crypto.hash grant⟩ .lookup) with now } :
      Enrollment) = ({ s with now } : Enrollment).apply pid
        ⟨s.directory, .redeem ⟨request, crypto.hash grant⟩ .lookup, []⟩ := by
    simp only [apply, setPc, List.append_nil]
  rw [foldl_callStep_none now 7 rfl, hstart]
  exact retry_of_consumed (s := { s with now }) ⟨request, crypto.hash grant⟩ hconsumed hfree

/-- A call is bound to its grant exactly if the certificate of a consumed grant is for the
request. -/
theorem redeem_binds_iff (crypto : Crypto) (authority : ℕ → Authority) (pid : ℕ) (s : Enrollment)
    (request : EnrollmentRequest) (grant : String) (hidle : s.procs pid = .idle) :
    RedeemBinds crypto authority pid s request grant ↔
      ((authority pid).enabled = true → validateRequest request = true →
        ∀ record, s.directory.grant? (crypto.hash grant) = some record → record.consumed = true →
          record.issuedResponse.isSome = true → record.Binds crypto request) := by
  constructor
  · intro h henabled hvalid record hget hconsumed hsome
    obtain ⟨response, hresponse⟩ := Option.isSome_iff_exists.mp hsome
    obtain ⟨clock, hyields⟩ :=
      yields_of_consumed hidle henabled hvalid hget hconsumed hresponse
    obtain ⟨record', hget', hbinds, -⟩ := h.yields none clock response hyields
    rw [hget, Option.some.injEq] at hget'
    rwa [hget']
  intro hbinds
  obtain ⟨left, hstart, hleft, hruns⟩ : ∃ left,
      Refused pid s (s.next crypto authority (.redeem pid request grant))
        ⟨request, crypto.hash grant⟩ left ∧ left ≤ 7 ∧
      (2 ≤ left → (authority pid).enabled = true ∧ validateRequest request = true) :=
    refused_start hidle request grant
  have hrefused : ∀ pem clock, ¬ Entitled crypto s request grant clock →
      Refused pid s (redeemCall crypto authority pid s request grant pem clock)
        ⟨request, crypto.hash grant⟩ (left - clock.length) := by
    intro pem clock hentitled
    refine hstart.calls pem clock ?_
    intro htwo now hnow d hfiles
    obtain ⟨henabled, hvalid⟩ := hruns htwo
    exact stepRedeem_read_refused hnow hentitled (hbinds henabled hvalid) hfiles
  constructor
  case yields =>
    intro pem clock response hyields
    by_cases hentitled : Entitled crypto s request grant clock
    · obtain ⟨record, hget, hbound, htime | ⟨hconsumed, hsome⟩⟩ := hentitled
      · exact ⟨record, hget, hbound, .inl htime⟩
      · -- a repeat returns the certificate that is stored
        obtain ⟨stored, hstored⟩ := Option.isSome_iff_exists.mp hsome
        refine ⟨record, hget, hbound, .inr ⟨hconsumed, ?_⟩⟩
        rcases Replayed.calls hget hconsumed hstored pem clock (.inl hstart) with h | h
        · exact absurd hyields h.not_yields
        · rw [hstored]
          exact congrArg some (h.response hyields).symm
    · exact absurd hyields (hrefused pem clock hentitled).not_yields
  case fails =>
    intro pem clock hentitled
    have h := hrefused pem clock hentitled
    refine ⟨h.log, h.directory, ?_⟩
    intro hlength
    refine h.pc.resolve_right ?_
    rintro ⟨pc, -, -, hpc⟩
    have hpos := RedeemPc.left_pos pc
    omega

/-! ## A request with another binding -/

def otherRequest : EnrollmentRequest where
  version := PROTOCOL_VERSION
  hubId := "other"
  csrPem := "-----BEGIN CERTIFICATE REQUEST-----other"
  sans := ["other"]
  nonce := "ffeeddccbbaa99887766554433221100"

def redeemedGrant : GrantRecord :=
  consumedRecord sampleCrypto
    (grantRecord sampleCrypto sampleAuthority.grantTtlMs 0 sampleRequest "g")
    (issuedRecord sampleCrypto sampleAuthority ⟨sampleRequest, hexDigest "g"⟩ "cert").response

theorem grant?_issuedOnce :
    issuedOnce.directory.grant? (sampleCrypto.hash "g") = some redeemedGrant := by
  decide +kernel

theorem idle_issuedOnce : issuedOnce.procs 0 = .idle := by decide +kernel

/-- A repeat by the hub of the grant is bound to it. -/
theorem redeem_binds_iff_repeat :
    RedeemBinds sampleCrypto (fun _ => sampleAuthority) 0 issuedOnce sampleRequest "g" := by
  apply (redeem_binds_iff sampleCrypto (fun _ => sampleAuthority) 0 issuedOnce sampleRequest "g"
    idle_issuedOnce).mpr
  intro _ _ record hget _ _
  rw [grant?_issuedOnce, Option.some.injEq] at hget
  rw [← hget]
  exact ⟨rfl, rfl, rfl, rfl⟩

/-- Another hub gets the certificate of a consumed grant. -/
theorem consumed_grant_not_bound :
    ¬ RedeemBinds sampleCrypto (fun _ => sampleAuthority) 0 issuedOnce otherRequest "g" := by
  intro h
  have hvalid : validateRequest otherRequest = true := by decide +kernel
  obtain ⟨clock, hyields⟩ : ∃ clock, Yields issuedOnce
      (redeemCall sampleCrypto (fun _ => sampleAuthority) 0 issuedOnce otherRequest "g" none clock)
      ⟨otherRequest, sampleCrypto.hash "g"⟩
      (issuedRecord sampleCrypto sampleAuthority ⟨sampleRequest, hexDigest "g"⟩ "cert").response :=
    yields_of_consumed idle_issuedOnce rfl hvalid grant?_issuedOnce rfl rfl
  obtain ⟨record, hget, ⟨-, hhub, -, -⟩, -⟩ := h.yields none clock _ hyields
  rw [grant?_issuedOnce, Option.some.injEq] at hget
  rw [← hget] at hhub
  exact absurd hhub (by decide)

end Enrollment

end TransformHub.Manager.CsrEnrollment
