import TransformHub.Manager.CsrAuthorization

/-!
# The lock files of grants

Which process is between the creation of the lock file of a grant and its removal, in every
interleaving of file operations, crashes and takeovers of old locks.
-/

namespace TransformHub.Manager.CsrEnrollment

open OrderedMap

/-! ## Lock files and their creators -/

/-- The process is between the creation of the lock file and its removal. -/
def RedeemPc.locked : RedeemPc → Bool
  | .lookup | .lock | .stale | .takeover | .relock => false
  | _ => true

namespace Pc

/-- The grant whose lock file the process has created and not removed. -/
def lockedGrant : Pc → Option Digest
  | .redeem call pc => if pc.locked then some call.tokenHash else none
  | _ => none

/-- The grant whose lock file the next operation creates. -/
def lockCreated (d : Directory) : Pc → Option Digest
  | .redeem call .lock | .redeem call .relock =>
    if d.locks.has call.tokenHash then none else some call.tokenHash
  | _ => none

/-- The grant whose lock file the next operation removes. -/
def lockRemoved : Pc → Option Digest
  | .redeem call .takeover | .redeem call (.unlock _) => some call.tokenHash
  | _ => none

end Pc

structure LockRun where
  enrollment : Enrollment
  /-- the process that has created the lock file and has not crashed since; not in the code -/
  creator : Digest → Option ℕ

namespace LockRun

/-- No process is in a call; the directory is any, with the lock files of processes that have
crashed. -/
def start (now : ℕ) (d : Directory) : LockRun := ⟨⟨now, d, fun _ => .idle, []⟩, fun _ => none⟩

section

variable (crypto : Crypto) (authority : ℕ → Authority) (s : LockRun)

/-- The creators after a file operation of a process. -/
def creatorAfter (pid : ℕ) : Digest → Option ℕ :=
  match (s.enrollment.procs pid).lockCreated s.enrollment.directory with
  | some h => fun g => if g = h then some pid else s.creator g
  | none =>
    match (s.enrollment.procs pid).lockRemoved with
    | some h => fun g => if g = h then none else s.creator g
    | none => s.creator

def next (a : Action) : LockRun where
  enrollment := s.enrollment.next crypto authority a
  creator :=
    match a with
    | .run pid => s.creatorAfter pid
    | .crash pid => fun g => if s.creator g = some pid then none else s.creator g
    | _ => s.creator

end

/-- At most one process has the lock of a grant. -/
def Exclusive (s : LockRun) : Prop :=
  ∀ p q h, (s.enrollment.procs p).lockedGrant = some h → (s.enrollment.procs q).lockedGrant = some h →
    p = q

/-- A lock file that a process removes has been created by no other live process. -/
def RemovesOwn (s : LockRun) : Action → Prop
  | .run pid => ∀ h, (s.enrollment.procs pid).lockRemoved = some h →
      ∀ q, s.creator h = some q → q = pid
  | _ => True

/-- When an old lock file is taken over, the file at its name is of a process that has crashed, or
there is none. -/
def TakesOverCrashed (s : LockRun) : Action → Prop
  | .run pid => ∀ call, s.enrollment.procs pid = .redeem call .takeover →
      s.creator call.tokenHash = none
  | _ => True

end LockRun

/-! ## Steps -/

/-- What one file operation does to the lock files. -/
inductive LockEffect (d : Directory) (pc : Pc) (o : Outcome) : Prop
  | created (h : Digest) (created : pc.lockCreated d = some h) (before : d.locks.has h = false)
      (locks : ∀ g, o.directory.locks.has g = (decide (g = h) || d.locks.has g))
      (unlocked : pc.lockedGrant = none) (locked : o.pc.lockedGrant = some h)
  | removed (h : Digest) (created : pc.lockCreated d = none) (removed : pc.lockRemoved = some h)
      (locks : ∀ g, o.directory.locks.has g = (!decide (g = h) && d.locks.has g))
      (unlocked : o.pc.lockedGrant = none)
  | kept (created : pc.lockCreated d = none) (removed : pc.lockRemoved = none)
      (locks : o.directory.locks = d.locks) (locked : o.pc.lockedGrant = pc.lockedGrant)

section Steps

variable {crypto : Crypto} {authority : Authority} {now pid : ℕ} {d : Directory}

theorem has_set (d : Directory) (h g : Digest) (now : ℕ) :
    (d.setLock h now).locks.has g = (decide (g = h) || d.locks.has g) := by
  unfold Directory.setLock has
  rw [get?_set]
  by_cases heq : h = g
  · simp [heq]
  · simp [heq, Ne.symm heq]

theorem has_delete (d : Directory) (h g : Digest) :
    (d.removeLock h).locks.has g = (!decide (g = h) && d.locks.has g) := by
  unfold Directory.removeLock has
  rw [get?_delete]
  by_cases heq : h = g
  · simp [heq]
  · simp [heq, Ne.symm heq]

theorem writeWork_lockEffect {call : RedeemCall} {pc : RedeemPc} (record : GrantRecord)
    (kind : WorkFile) (text : String) {next : RedeemPc} (hpc : pc.locked = true)
    (hcreated : (Pc.redeem call pc).lockCreated d = none)
    (hremoved : (Pc.redeem call pc).lockRemoved = none) (hnext : next.locked = true) :
    LockEffect d (.redeem call pc) (writeWork d call record kind text next) := by
  unfold writeWork
  split_ifs
  · refine .kept hcreated hremoved rfl ?_
    simp only [Pc.lockedGrant, hpc]
    rfl
  · refine .kept hcreated hremoved rfl ?_
    simp only [Pc.lockedGrant, hpc, hnext]

theorem create_lockEffect {call : RedeemCall} {pc : RedeemPc} {busy : Pc}
    (hpc : pc.locked = false) (hbusy : busy.lockedGrant = none)
    (hcreated : (Pc.redeem call pc).lockCreated d =
      if d.locks.has call.tokenHash then none else some call.tokenHash)
    (hremoved : (Pc.redeem call pc).lockRemoved = none) :
    LockEffect d (.redeem call pc)
      (if d.locks.has call.tokenHash then ⟨d, busy, []⟩
        else ⟨d.setLock call.tokenHash now, .redeem call .read, []⟩) := by
  have hunlocked : (Pc.redeem call pc).lockedGrant = none := by simp [Pc.lockedGrant, hpc]
  split_ifs with hhas
  · rw [if_pos hhas] at hcreated
    exact .kept hcreated hremoved rfl (hbusy.trans hunlocked.symm)
  · rw [if_neg hhas] at hcreated
    exact .created call.tokenHash hcreated (Bool.eq_false_iff.mpr hhas) (has_set d _ · now) hunlocked
      rfl

theorem stepRedeem_lockEffect (call : RedeemCall) (pc : RedeemPc) :
    LockEffect d (.redeem call pc) (stepRedeem crypto authority now pid d call pc) := by
  cases pc with
  | lock | relock => exact create_lockEffect rfl rfl rfl rfl
  | takeover => exact .removed call.tokenHash rfl rfl (has_delete d _) rfl
  | unlock response =>
    cases response with
    | none | some entry => exact .removed call.tokenHash rfl rfl (has_delete d _) rfl
  | cleanup record response left =>
    cases left with
    | cons kind left => exact .kept rfl rfl rfl rfl
    | nil => cases response <;> exact .kept rfl rfl rfl rfl
  | writeCsr record | writeExt record => exact writeWork_lockEffect record _ _ rfl rfl rfl rfl
  | writeSrl record =>
    refine writeWork_lockEffect record _ _ rfl rfl rfl ?_
    split_ifs <;> rfl
  | _ =>
    simp only [stepRedeem]
    repeat' split
    all_goals exact .kept rfl rfl rfl rfl

theorem stepProcess_lockEffect (pc : Pc) :
    LockEffect d pc (stepProcess crypto authority now pid d pc) := by
  cases pc with
  | redeem call pc => exact stepRedeem_lockEffect call pc
  | readIssued fingerprint256 files =>
    cases files with
    | nil => exact .kept rfl rfl rfl rfl
    | cons file files =>
      simp only [stepProcess]
      repeat' split
      all_goals exact .kept rfl rfl rfl rfl
  | _ =>
    simp only [stepProcess]
    repeat' split
    all_goals exact .kept rfl rfl rfl rfl

end Steps

namespace LockRun

variable {crypto : Crypto} {authority : ℕ → Authority} {s : LockRun}

/-- The processes that are between creation and removal of a lock file are those that have created
it. -/
structure Sound (s : LockRun) : Prop where
  locked : ∀ p h, (s.enrollment.procs p).lockedGrant = some h → s.creator h = some p
  exists_of_creator : ∀ p h, s.creator h = some p → s.enrollment.directory.locks.has h = true
  created : ∀ p h, s.creator h = some p → (s.enrollment.procs p).lockedGrant = some h

theorem sound_start (now : ℕ) (d : Directory) : (start now d).Sound where
  locked := nofun
  exists_of_creator := nofun
  created := nofun

theorem Sound.exclusive (h : s.Sound) : s.Exclusive := by
  intro p q g hp hq
  have hcreators := (h.locked p g hp).symm.trans (h.locked q g hq)
  exact Option.some.inj hcreators

theorem Sound.removesOwn_iff (h : s.Sound) (a : Action) :
    s.RemovesOwn a ↔ s.TakesOverCrashed a := by
  cases a with
  | run pid =>
    constructor
    · intro hown call hpc
      cases hcreator : s.creator call.tokenHash with
      | none => rfl
      | some q =>
        have hq := hown call.tokenHash (by rw [hpc]; rfl) q hcreator
        -- the process that takes over has no lock
        have hlocked := h.created q call.tokenHash hcreator
        rw [hq, hpc] at hlocked
        cases hlocked
    · intro hcrashed g hremoved q hcreator
      have hlocked := h.created q g hcreator
      cases hpc : s.enrollment.procs pid with
      | redeem call pc =>
        rw [hpc] at hremoved
        cases pc with
        | takeover =>
          cases hremoved
          rw [hcrashed call hpc] at hcreator
          cases hcreator
        | unlock response =>
          cases hremoved
          have hpid := h.locked pid call.tokenHash (by rw [hpc]; rfl)
          exact Option.some.inj (hcreator.symm.trans hpid)
        | _ => cases hremoved
      | _ =>
        rw [hpc] at hremoved
        cases hremoved
  | _ => exact Iff.rfl

theorem Sound.quiet (h : s.Sound) {s' : LockRun}
    (hprocs : ∀ p, (s'.enrollment.procs p).lockedGrant = (s.enrollment.procs p).lockedGrant)
    (hlocks : s'.enrollment.directory.locks = s.enrollment.directory.locks)
    (hcreator : s'.creator = s.creator) : s'.Sound where
  locked := by
    intro p g hlocked
    rw [hprocs] at hlocked
    rw [hcreator]
    exact h.locked p g hlocked
  exists_of_creator := by
    intro p g hcreated
    rw [hcreator] at hcreated
    rw [hlocks]
    exact h.exists_of_creator p g hcreated
  created := by
    intro p g hcreated
    rw [hcreator] at hcreated
    rw [hprocs]
    exact h.created p g hcreated

theorem lockedGrant_setPc {e : Enrollment} {pid : ℕ} {pc : Pc}
    (hpc : pc.lockedGrant = (e.procs pid).lockedGrant) (p : ℕ) :
    ((e.setPc pid pc).procs p).lockedGrant = (e.procs p).lockedGrant := by
  rw [Enrollment.setPc_procs]
  split_ifs with heq
  · rw [heq]
    exact hpc
  · rfl

theorem grant_of_lockRemoved {pc : Pc} {g h : Digest} (hremoved : pc.lockRemoved = some h)
    (hlocked : pc.lockedGrant = some g) : g = h := by
  cases pc with
  | redeem call pc =>
    cases pc with
    | takeover => cases hlocked
    | unlock response =>
      cases hremoved
      cases hlocked
      rfl
    | _ => cases hremoved
  | _ => cases hremoved

theorem Sound.run (h : s.Sound) {pid : ℕ} (hcrashed : s.TakesOverCrashed (.run pid)) :
    (s.next crypto authority (.run pid)).Sound := by
  have heffect : LockEffect s.enrollment.directory (s.enrollment.procs pid)
      (stepProcess crypto (authority pid) s.enrollment.now pid s.enrollment.directory
        (s.enrollment.procs pid)) := stepProcess_lockEffect _
  have hown : s.RemovesOwn (.run pid) := (h.removesOwn_iff _).mpr hcrashed
  have hself : (s.next crypto authority (.run pid)).enrollment.procs pid =
      (stepProcess crypto (authority pid) s.enrollment.now pid s.enrollment.directory
        (s.enrollment.procs pid)).pc := if_pos rfl
  have hother : ∀ p, p ≠ pid → (s.next crypto authority (.run pid)).enrollment.procs p =
      s.enrollment.procs p := fun p hp => if_neg hp
  cases heffect with
  | created g created before locks unlocked locked =>
    have hcreator : (s.next crypto authority (.run pid)).creator =
        fun g' => if g' = g then some pid else s.creator g' := by
      show s.creatorAfter pid = _
      rw [creatorAfter, created]
    have hfresh : ∀ p, s.creator g ≠ some p := by
      intro p hp
      have hhas := h.exists_of_creator p g hp
      rw [before] at hhas
      cases hhas
    refine ⟨fun p g' hlocked => ?_, fun p g' hcreated => ?_, fun p g' hcreated => ?_⟩
    · rw [hcreator]
      by_cases hp : p = pid
      · rw [hp, hself, locked] at hlocked
        cases hlocked
        rw [hp]
        exact if_pos rfl
      · rw [hother p hp] at hlocked
        have hkept := h.locked p g' hlocked
        have hne : g' ≠ g := by
          rintro rfl
          exact hfresh p hkept
        exact (if_neg hne).trans hkept
    · rw [hcreator] at hcreated
      refine (locks g').trans ?_
      by_cases hg : g' = g
      · simp [hg]
      · have hkept : s.creator g' = some p := by simpa [hg] using hcreated
        simp [h.exists_of_creator p g' hkept]
    · rw [hcreator] at hcreated
      by_cases hg : g' = g
      · have hp : pid = p := by simpa [hg] using hcreated
        rw [← hp, hself, hg]
        exact locked
      · have hkept : s.creator g' = some p := by simpa [hg] using hcreated
        have hlocked := h.created p g' hkept
        have hp : p ≠ pid := by
          rintro rfl
          rw [unlocked] at hlocked
          cases hlocked
        rw [hother p hp]
        exact hlocked
  | removed g created removed locks unlocked =>
    have hcreator : (s.next crypto authority (.run pid)).creator =
        fun g' => if g' = g then none else s.creator g' := by
      show s.creatorAfter pid = _
      rw [creatorAfter, created]
      simp only [removed]
    refine ⟨fun p g' hlocked => ?_, fun p g' hcreated => ?_, fun p g' hcreated => ?_⟩
    · by_cases hp : p = pid
      · rw [hp, hself, unlocked] at hlocked
        cases hlocked
      · rw [hother p hp] at hlocked
        have hkept := h.locked p g' hlocked
        have hne : g' ≠ g := by
          rintro rfl
          exact hp (hown g' removed p hkept)
        rw [hcreator]
        exact (if_neg hne).trans hkept
    · rw [hcreator] at hcreated
      refine (locks g').trans ?_
      by_cases hg : g' = g
      · simp [hg] at hcreated
      · have hkept : s.creator g' = some p := by simpa [hg] using hcreated
        simp [hg, h.exists_of_creator p g' hkept]
    · rw [hcreator] at hcreated
      by_cases hg : g' = g
      · simp [hg] at hcreated
      · have hkept : s.creator g' = some p := by simpa [hg] using hcreated
        have hlocked := h.created p g' hkept
        have hp : p ≠ pid := by
          rintro rfl
          exact hg (grant_of_lockRemoved removed hlocked)
        rw [hother p hp]
        exact hlocked
  | kept created removed locks locked =>
    refine h.quiet (fun p => ?_) locks ?_
    · by_cases hp : p = pid
      · rw [hp, hself]
        exact locked
      · rw [hother p hp]
    · show s.creatorAfter pid = _
      rw [creatorAfter, created]
      simp only [removed]

theorem Sound.crash (h : s.Sound) (pid : ℕ) : (s.next crypto authority (.crash pid)).Sound := by
  have hcreator : ∀ g q, (s.next crypto authority (.crash pid)).creator g = some q ↔
      s.creator g = some q ∧ q ≠ pid := by
    intro g q
    show (if s.creator g = some pid then none else s.creator g) = some q ↔ _
    split_ifs with heq
    · rw [heq]
      constructor
      · exact nofun
      · rintro ⟨hsome, hne⟩
        exact absurd (Option.some.inj hsome).symm hne
    · constructor
      · intro hsome
        refine ⟨hsome, ?_⟩
        rintro rfl
        exact heq hsome
      · exact fun hsome => hsome.1
  have hprocs : ∀ p, ((s.next crypto authority (.crash pid)).enrollment.procs p).lockedGrant =
      if p = pid then none else (s.enrollment.procs p).lockedGrant := by
    intro p
    show ((s.enrollment.setPc pid .idle).procs p).lockedGrant = _
    rw [Enrollment.setPc_procs]
    split_ifs <;> rfl
  refine ⟨fun p g hlocked => ?_, fun p g hcreated => ?_, fun p g hcreated => ?_⟩
  · rw [hprocs] at hlocked
    split_ifs at hlocked with heq
    exact (hcreator g p).mpr ⟨h.locked p g hlocked, heq⟩
  · exact h.exists_of_creator p g ((hcreator g p).mp hcreated).1
  · obtain ⟨hcreated, hne⟩ := (hcreator g p).mp hcreated
    rw [hprocs, if_neg hne]
    exact h.created p g hcreated

theorem Sound.next (h : s.Sound) {a : Action} (hcrashed : s.TakesOverCrashed a) :
    (s.next crypto authority a).Sound := by
  cases a with
  | time now => exact h.quiet (fun _ => rfl) rfl rfl
  | run pid => exact h.run hcrashed
  | crash pid => exact h.crash pid
  | approve pid request operatorApproval token | redeem pid request grant
  | revoke pid fingerprint256 files =>
    refine h.quiet (fun p => ?_) ?_ rfl
    · simp only [LockRun.next, Enrollment.next]
      split_ifs with hidle
      · exact lockedGrant_setPc (by rw [hidle.1]; rfl) p
      · rfl
    · simp only [LockRun.next, Enrollment.next]
      split_ifs <;> rfl
  | sign pid pem =>
    simp only [LockRun.next, Enrollment.next]
    split
    next call record hpc =>
      split_ifs
      · exact h.quiet (lockedGrant_setPc (by rw [hpc]; rfl)) rfl rfl
      · exact h.quiet (fun _ => rfl) rfl rfl
    next => exact h.quiet (fun _ => rfl) rfl rfl

/-! ## Runs -/

/-- In exactly those runs in which only lock files of crashed processes are taken over, no two
processes have the lock of a grant at once, and no process removes a lock file that another live one
has created. -/
theorem locks_exclusive_iff (crypto : Crypto) (authority : ℕ → Authority) (now : ℕ) (d : Directory)
    (as : List Action) :
    System.Always (LockRun.next crypto authority) Exclusive (start now d) as ∧
        System.Meets (LockRun.next crypto authority) RemovesOwn (start now d) as ↔
      System.Meets (LockRun.next crypto authority) TakesOverCrashed (start now d) as := by
  have hmeets : System.Meets (LockRun.next crypto authority) RemovesOwn (start now d) as ↔
      System.Meets (LockRun.next crypto authority) TakesOverCrashed (start now d) as :=
    System.meets_congr (I := Sound) (fun s a hsound => hsound.removesOwn_iff a)
      (fun s a hsound hcrashed => hsound.next hcrashed) (sound_start now d) as
  constructor
  · intro hsafe
    exact hmeets.mp hsafe.2
  · intro hcrashed
    refine ⟨?_, hmeets.mpr hcrashed⟩
    refine System.always_of_meets (I := Sound) (fun s a hsound _ hstep => ?_) (sound_start now d)
      (sound_start now d).exclusive as hcrashed
    exact ⟨hsound.next hstep, (hsound.next hstep).exclusive⟩

/-- The steps up to the check of an old lock file. -/
def checkSteps (pid : ℕ) : List Action :=
  .redeem pid sampleRequest "g" :: List.replicate 3 (.run pid)

/-- A process has crashed with the lock. Two others find it too old; the second removes the lock
file that the first has created, and both sign. -/
def takeoverSteps : List Action :=
  approveSteps "g" ++ [.redeem 0 sampleRequest "g", .run 0, .run 0, .crash 0, .time 400000] ++
    checkSteps 1 ++ checkSteps 2 ++ [.run 1, .run 1, .run 2, .run 2]

theorem takeover_not_exclusive :
    ¬ System.Always (LockRun.next sampleCrypto fun _ => sampleAuthority) Exclusive (start 0 .empty)
      takeoverSteps := by
  intro hall
  have hlast := System.always_last hall
  exact absurd (hlast 1 2 (hexDigest "g") (by decide +kernel) (by decide +kernel)) (by decide)

end LockRun

end TransformHub.Manager.CsrEnrollment
