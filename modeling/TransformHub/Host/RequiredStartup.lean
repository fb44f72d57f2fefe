import TransformHub.Host.CsiDispatcherSteps

/-!
# Required startup entries

Failures of required instances against restart attempts, relaunches and requests to stop the Host.
-/

namespace TransformHub.Host.Instances

open OrderedMap

/-! ## Accounts -/

/-- What an entry has for restarts, and what has become of it. -/
structure Ledger where
  restartLimit : ℕ
  restartAttemptsRemaining : ℕ
  account : Account
deriving DecidableEq

def RequiredStartupEntry.ledger (entry : RequiredStartupEntry) : Ledger :=
  ⟨entry.restartLimit, entry.restartAttemptsRemaining, entry.account⟩

namespace Ledger

variable (l : Ledger)

def observe : Ledger :=
  { l with account := { l.account with failed := true, failures := l.account.failures + 1 } }

/-- A failure takes a restart attempt, or asks the Host to stop. -/
def charge : Ledger :=
  if 0 < l.restartAttemptsRemaining then
    { l with
      restartAttemptsRemaining := l.restartAttemptsRemaining - 1
      account := { l.account with restarts := l.account.restarts + 1 } }
  else { l with account := { l.account with stopRequests := l.account.stopRequests + 1 } }

def launch : Ledger :=
  { l with account := { l.account with launches := l.account.launches + 1, failed := false } }

/-- Every failure has taken one restart attempt, for which the entry has been launched again or is
going to be, or has asked the Host to stop, once and with no attempts left. -/
structure Balanced (scheduled : ℕ) (stopping : Bool) : Prop where
  failures : l.account.failures = l.account.restarts + l.account.stopRequests
  attempts : l.account.restarts + l.restartAttemptsRemaining = l.restartLimit
  stopRequests : l.account.stopRequests ≤ 1
  exhausted : 0 < l.account.stopRequests → l.restartAttemptsRemaining = 0
  launches : stopping = false → l.account.launches + scheduled = l.account.restarts + 1

/-- After a failure a launch is scheduled, or the Host has been asked to stop. -/
def Settled (scheduled : ℕ) (stopping : Bool) : Prop :=
  stopping = false → scheduled + l.account.stopRequests = l.account.failed.toNat

def relaunches : ℕ := if 0 < l.restartAttemptsRemaining then 1 else 0

variable {l} {n : ℕ} {stopping : Bool}

theorem Balanced.observe_charge (h : l.Balanced n false) (hs : l.Settled n false)
    (hfailed : l.account.failed = false) :
    l.observe.charge.Balanced (n + l.relaunches) false ∧
      l.observe.charge.Settled (n + l.relaunches) false := by
  obtain ⟨hfailures, hattempts, hstop, hexhausted, hlaunches⟩ := h
  have hsettled := hs rfl
  have hlaunches := hlaunches rfl
  rw [hfailed] at hsettled
  unfold charge relaunches observe
  dsimp only
  split_ifs with hleft
  all_goals
    refine ⟨⟨?_, ?_, ?_, ?_, ?_⟩, ?_⟩ <;> simp only [Settled, Bool.toNat_true, Bool.toNat_false] at * <;>
      omega

theorem Balanced.not_observe (h : l.Balanced n stopping) : ¬ l.observe.Balanced n stopping := by
  intro h'
  have hfailures := h.failures
  have hfailures' := h'.failures
  simp only [observe] at hfailures'
  omega

theorem Balanced.not_charge {m : ℕ} (h : l.Balanced n stopping) :
    ¬ l.charge.Balanced m stopping := by
  intro h'
  have hfailures := h.failures
  have hfailures' := h'.failures
  unfold charge at hfailures'
  split_ifs at hfailures' <;> simp only at hfailures' <;> omega

theorem Balanced.not_skip (h : l.Balanced (n + 1) false) : ¬ l.Balanced n false := by
  intro h'
  have hlaunches := h.launches rfl
  have hlaunches' := h'.launches rfl
  omega

theorem Balanced.launch (h : l.Balanced (n + 1) stopping) (hs : l.Settled (n + 1) stopping) :
    l.launch.Balanced n stopping ∧ l.launch.Settled n stopping := by
  obtain ⟨hfailures, hattempts, hstop, hexhausted, hlaunches⟩ := h
  refine ⟨⟨hfailures, hattempts, hstop, hexhausted, fun hgo => ?_⟩, fun hgo => ?_⟩
  · have hlaunches := hlaunches hgo
    simp only [Ledger.launch]
    omega
  · have hsettled := hs hgo
    have hle := Bool.toNat_le l.account.failed
    simp only [Ledger.launch, Bool.toNat_false]
    omega

end Ledger

namespace HostState

/-! ## What a step books -/

section Books

variable (s : HostState)

def ledger? (key : String) : Option Ledger :=
  (s.requiredStartupEntries.get? key).map RequiredStartupEntry.ledger

/-- The entry for which a launch is observed to have failed. -/
def observedKey (launch : Option (String × ℕ)) : Option String :=
  match launch with
  | none => none
  | some (key, n) =>
    match s.requiredStartupEntries.get? key with
    | none => none
    | some entry =>
      if n = entry.account.launches ∧ entry.account.failed = false ∧ s.stopping = false then
        some key
      else none

/-- The entry that `handleRequiredStartupFailure` charges. -/
def chargeable (key : String) : Option String :=
  if s.requiredStartupEntries.has key && !s.stopping then some key else none

/-- The entry that is charged with the exit of an instance. -/
def chargedKey (instanceId : String) : Option String :=
  (s.requiredStartupEntriesByInstanceId.get? instanceId).bind s.chargeable

end Books

/-- The accounts of all entries are balanced. -/
def Balanced (s : HostState) : Prop :=
  ∀ key l, s.ledger? key = some l → l.Balanced (s.immediates.count key) s.stopping

structure Settled (s : HostState) : Prop where
  entry : ∀ key l, s.ledger? key = some l → l.Settled (s.immediates.count key) s.stopping
  noEntry : ∀ key, s.ledger? key = none → s.immediates.count key = 0

structure SameBooks (s s' : HostState) : Prop where
  ledger : ∀ key, s'.ledger? key = s.ledger? key
  immediates : s'.immediates = s.immediates
  stopping : s'.stopping = s.stopping

/-- One entry is observed to have failed, or none, and one is charged, or none. -/
structure Booked (s s' : HostState) (observed charged : Option String) : Prop where
  stopping : s'.stopping = s.stopping
  observedEntry : ∀ key, observed = some key →
    s.stopping = false ∧ ∃ l, s.ledger? key = some l ∧ l.account.failed = false
  chargedEntry : ∀ key, charged = some key → s.stopping = false ∧ ∃ l, s.ledger? key = some l
  ledger : ∀ key, s'.ledger? key = ((s.ledger? key).map fun l =>
    if observed = some key then l.observe else l).map fun l =>
      if charged = some key then l.charge else l
  scheduled : ∀ key l, s.ledger? key = some l → s'.immediates.count key =
    s.immediates.count key + if charged = some key then l.relaunches else 0
  noEntry : ∀ key, s.ledger? key = none → s'.immediates.count key = s.immediates.count key

variable {s s' s'' : HostState} {observed charged : Option String}

namespace SameBooks

theorem refl (s : HostState) : s.SameBooks s := ⟨fun _ => rfl, rfl, rfl⟩

theorem trans (h : s.SameBooks s') (h' : s'.SameBooks s'') : s.SameBooks s'' where
  ledger := fun key => (h'.ledger key).trans (h.ledger key)
  immediates := h'.immediates.trans h.immediates
  stopping := h'.stopping.trans h.stopping

theorem booked (h : s.SameBooks s') : s.Booked s' none none where
  stopping := h.stopping
  observedEntry := fun _ hkey => nomatch hkey
  chargedEntry := fun _ hkey => nomatch hkey
  ledger := fun key => by simp [h.ledger key]
  scheduled := fun key l _ => by simp [h.immediates]
  noEntry := fun key _ => by rw [h.immediates]

end SameBooks

theorem SameStartup.sameBooks (h : s.SameStartup s') : s.SameBooks s' where
  ledger := fun key => by rw [ledger?, ledger?, h.entries]
  immediates := h.immediates
  stopping := h.stopping

namespace Booked

theorem after_same (h : s.SameBooks s') (h' : s'.Booked s'' observed charged) :
    s.Booked s'' observed charged where
  stopping := h'.stopping.trans h.stopping
  observedEntry := fun key hkey => by
    rw [← h.stopping, ← h.ledger key]
    exact h'.observedEntry key hkey
  chargedEntry := fun key hkey => by
    rw [← h.stopping, ← h.ledger key]
    exact h'.chargedEntry key hkey
  ledger := fun key => by rw [h'.ledger key, h.ledger key]
  scheduled := fun key l hl => by
    rw [h'.scheduled key l ((h.ledger key).trans hl), h.immediates]
  noEntry := fun key hl => by rw [h'.noEntry key ((h.ledger key).trans hl), h.immediates]

theorem before_same (h : s.Booked s' observed charged) (h' : s'.SameBooks s'') :
    s.Booked s'' observed charged where
  stopping := h'.stopping.trans h.stopping
  observedEntry := h.observedEntry
  chargedEntry := h.chargedEntry
  ledger := fun key => (h'.ledger key).trans (h.ledger key)
  scheduled := fun key l hl => by rw [h'.immediates, h.scheduled key l hl]
  noEntry := fun key hl => by rw [h'.immediates, h.noEntry key hl]

theorem observe_charge (h : s.Booked s' observed none) (h' : s'.Booked s'' none charged) :
    s.Booked s'' observed charged where
  stopping := h'.stopping.trans h.stopping
  observedEntry := h.observedEntry
  chargedEntry := fun key hkey => by
    obtain ⟨hgo, l, hl⟩ := h'.chargedEntry key hkey
    refine ⟨h.stopping ▸ hgo, ?_⟩
    rw [h.ledger key] at hl
    cases hget : s.ledger? key with
    | none => simp [hget] at hl
    | some l' => exact ⟨l', rfl⟩
  ledger := fun key => by
    rw [h'.ledger key, h.ledger key]
    cases s.ledger? key with
    | none => rfl
    | some l => simp
  scheduled := fun key l hl => by
    have hl' := h.ledger key
    rw [hl, Option.map_some, Option.map_some] at hl'
    have hcount := h'.scheduled key _ hl'
    rw [h.scheduled key l hl] at hcount
    rw [hcount]
    simp only [reduceCtorEq, if_false, Nat.add_zero]
    congr 1
    split_ifs <;> rfl
  noEntry := fun key hl => by
    have hl' := h.ledger key
    rw [hl, Option.map_none, Option.map_none] at hl'
    rw [h'.noEntry key hl', h.noEntry key hl]

theorem balance (h : s.Booked s' observed observed) (hb : s.Balanced) (hs : s.Settled) :
    s'.Balanced ∧ s'.Settled := by
  have hentry : ∀ key l', s'.ledger? key = some l' →
      l'.Balanced (s'.immediates.count key) s'.stopping ∧
        l'.Settled (s'.immediates.count key) s'.stopping := by
    intro key l' hl'
    rw [h.ledger key] at hl'
    cases hl : s.ledger? key with
    | none => simp [hl] at hl'
    | some l =>
      rw [hl, Option.map_some, Option.map_some, Option.some_inj] at hl'
      rw [← hl', h.scheduled key l hl, h.stopping]
      by_cases hkey : observed = some key
      · obtain ⟨hgo, l₀, hl₀, hfailed⟩ := h.observedEntry key hkey
        cases hl.symm.trans hl₀
        have hbefore := hb key l hl
        have hsettled := hs.entry key l hl
        rw [hgo] at hbefore hsettled ⊢
        rw [if_pos hkey, if_pos hkey, if_pos hkey]
        exact hbefore.observe_charge hsettled hfailed
      · rw [if_neg hkey, if_neg hkey, if_neg hkey]
        exact ⟨hb key l hl, hs.entry key l hl⟩
  refine ⟨fun key l' hl' => (hentry key l' hl').1, fun key l' hl' => (hentry key l' hl').2, ?_⟩
  intro key hl'
  rw [h.ledger key, Option.map_map, Option.map_eq_none_iff] at hl'
  rw [h.noEntry key hl']
  exact hs.noEntry key hl'

/-- The accounts are balanced after a step exactly if the entry that is observed to have failed is
the one that is charged. -/
theorem balanced_iff (h : s.Booked s' observed charged) (hb : s.Balanced) (hs : s.Settled) :
    s'.Balanced ↔ observed = charged := by
  constructor
  · intro hb'
    by_contra hne
    cases hobserved : observed with
    | some key =>
      -- a failure is dropped
      obtain ⟨-, l, hl, -⟩ := h.observedEntry key hobserved
      have hne' : charged ≠ some key := fun hcharged => hne (hobserved.trans hcharged.symm)
      have hl' := h.ledger key
      have hcount := h.scheduled key l hl
      rw [hl, Option.map_some, Option.map_some, if_pos hobserved, if_neg hne'] at hl'
      rw [if_neg hne', Nat.add_zero] at hcount
      have hbalanced := hb' key _ hl'
      rw [hcount, h.stopping] at hbalanced
      exact (hb key l hl).not_observe hbalanced
    | none =>
      cases hcharged : charged with
      | none => exact hne (hobserved.trans hcharged.symm)
      | some key =>
        -- an entry is charged for nothing
        obtain ⟨-, l, hl⟩ := h.chargedEntry key hcharged
        have hne' : observed ≠ some key := fun hkey => hne (hkey.trans hcharged.symm)
        have hl' := h.ledger key
        rw [hl, Option.map_some, Option.map_some, if_neg hne', if_pos hcharged] at hl'
        have hbalanced := hb' key _ hl'
        rw [h.stopping] at hbalanced
        exact (hb key l hl).not_charge hbalanced
  · rintro rfl
    exact (h.balance hb hs).1

end Booked

/-! ## What the functions book -/

section Functions

theorem ledger?_set {key key' : String} {entry : RequiredStartupEntry}
    {entries : OrderedMap String RequiredStartupEntry} :
    ((entries.set key entry).get? key').map RequiredStartupEntry.ledger =
      if key = key' then some entry.ledger else (entries.get? key').map RequiredStartupEntry.ledger := by
  rw [get?_set]
  split_ifs <;> rfl

section

variable {key : String} {entry entry' : RequiredStartupEntry}
  (hget : s.requiredStartupEntries.get? key = some entry)
  (hentries : s'.requiredStartupEntries = s.requiredStartupEntries.set key entry')
include hget hentries

theorem sameBooks_of_set (hledger : entry'.ledger = entry.ledger)
    (himmediates : s'.immediates = s.immediates) (hstopping : s'.stopping = s.stopping) :
    s.SameBooks s' where
  ledger := fun key' => by
    rw [ledger?, hentries, ledger?_set, hledger]
    split_ifs with hkey
    · rw [ledger?, ← hkey, hget]
      rfl
    · rfl
  immediates := himmediates
  stopping := hstopping

theorem booked_of_set (hgo : s.stopping = false) (hstopping : s'.stopping = s.stopping)
    (hobserved : ∀ key', observed = some key' → key' = key ∧ entry.account.failed = false)
    (hcharged : ∀ key', charged = some key' → key' = key)
    (hledger : entry'.ledger =
      let l := if observed = some key then entry.ledger.observe else entry.ledger
      if charged = some key then l.charge else l)
    (hself : s'.immediates.count key =
      s.immediates.count key + if charged = some key then entry.ledger.relaunches else 0)
    (hothers : ∀ key', key' ≠ key → s'.immediates.count key' = s.immediates.count key') :
    s.Booked s' observed charged := by
  have hl : s.ledger? key = some entry.ledger := by rw [ledger?, hget]; rfl
  refine ⟨hstopping, ?_, ?_, ?_, ?_, ?_⟩
  · intro key' hkey'
    obtain ⟨rfl, hfailed⟩ := hobserved key' hkey'
    exact ⟨hgo, _, hl, hfailed⟩
  · intro key' hkey'
    cases hcharged key' hkey'
    exact ⟨hgo, _, hl⟩
  · intro key'
    rw [ledger?, hentries, ledger?_set]
    by_cases hkey : key = key'
    · subst hkey
      rw [if_pos rfl, hl, hledger]
      rfl
    · have hno : observed ≠ some key' := fun h => hkey (hobserved key' h).1.symm
      have hnc : charged ≠ some key' := fun h => hkey (hcharged key' h).symm
      rw [if_neg hkey, ← ledger?]
      cases s.ledger? key' with
      | none => rfl
      | some l => rw [Option.map_some, Option.map_some, if_neg hno, if_neg hnc]
  · intro key' l hl'
    by_cases hkey : key' = key
    · subst hkey
      cases hl.symm.trans hl'
      exact hself
    · have hnc : charged ≠ some key' := fun h => hkey (hcharged key' h)
      rw [hothers key' hkey, if_neg hnc, Nat.add_zero]
  · intro key' hl'
    refine hothers key' ?_
    rintro rfl
    rw [hl] at hl'
    cases hl'

end

variable (s)

theorem sameBooks_updateEntry (key : String) {f : RequiredStartupEntry → RequiredStartupEntry}
    (hf : ∀ entry, (f entry).ledger = entry.ledger) : s.SameBooks (s.updateEntry key f) := by
  unfold updateEntry
  cases hget : s.requiredStartupEntries.get? key with
  | none => exact .refl s
  | some entry => exact sameBooks_of_set hget rfl (hf entry) rfl rfl

theorem sameBooks_track (key instanceId : String) :
    s.SameBooks (s.trackRequiredStartupInstance key instanceId) := by
  unfold trackRequiredStartupInstance
  cases hget : s.requiredStartupEntries.get? key with
  | none => exact .refl s
  | some entry => exact sameBooks_of_set hget rfl rfl rfl rfl

theorem sameBooks_clearTracking (key : String) :
    s.SameBooks (s.clearRequiredStartupInstanceTracking key) := by
  unfold clearRequiredStartupInstanceTracking
  cases hget : s.requiredStartupEntries.get? key with
  | none => exact .refl s
  | some entry =>
    dsimp only
    split
    · exact .refl s
    · exact sameBooks_of_set hget rfl rfl rfl rfl

theorem entry_of_entryByInstanceId {instanceId key : String} {entry : RequiredStartupEntry}
    (h : s.entryByInstanceId instanceId = some (key, entry)) :
    s.requiredStartupEntriesByInstanceId.get? instanceId = some key ∧
      s.requiredStartupEntries.get? key = some entry := by
  unfold entryByInstanceId at h
  split at h
  · cases h
  · rename_i key' hkey'
    obtain ⟨entry', hentry', heq⟩ := Option.map_eq_some_iff.mp h
    cases heq
    exact ⟨hkey', hentry'⟩

theorem sameBooks_take (instanceId : String) :
    s.SameBooks (s.takeRequiredStartupEntryByInstanceId instanceId) := by
  unfold takeRequiredStartupEntryByInstanceId
  cases htake : s.entryByInstanceId instanceId with
  | none => exact ⟨fun _ => rfl, rfl, rfl⟩
  | some taken =>
    obtain ⟨key, entry⟩ := taken
    dsimp only
    split_ifs
    · exact sameBooks_of_set (s.entry_of_entryByInstanceId htake).2 rfl rfl rfl rfl
    · exact ⟨fun _ => rfl, rfl, rfl⟩

theorem booked_observeFailure (launch : Option (String × ℕ)) :
    s.Booked (s.observeFailure launch) (s.observedKey launch) none := by
  unfold observeFailure observedKey updateEntry
  cases launch with
  | none => exact (SameBooks.refl s).booked
  | some launch =>
    obtain ⟨key, n⟩ := launch
    dsimp only
    cases hget : s.requiredStartupEntries.get? key with
    | none => exact (SameBooks.refl s).booked
    | some entry =>
      dsimp only
      split_ifs with hobserved
      · obtain ⟨-, hfailed, hgo⟩ := hobserved
        refine booked_of_set hget rfl hgo rfl ?_ (fun _ hkey => nomatch hkey) ?_ ?_ fun _ _ => rfl
        · rintro key' ⟨⟩
          exact ⟨rfl, hfailed⟩
        · simp [RequiredStartupEntry.ledger, Ledger.observe]
        · simp
      · have hsame : s.SameBooks { s with
            requiredStartupEntries := s.requiredStartupEntries.set key entry } :=
          sameBooks_of_set hget rfl rfl rfl rfl
        exact hsame.booked

theorem booked_handleRequiredStartupFailure (key : String) :
    s.Booked (s.handleRequiredStartupFailure key) none (s.chargeable key) := by
  unfold handleRequiredStartupFailure chargeable has
  cases hget : s.requiredStartupEntries.get? key with
  | none => exact (SameBooks.refl s).booked
  | some entry =>
    dsimp only
    by_cases hstop : s.stopping = true
    · rw [if_pos hstop, hstop]
      exact (SameBooks.refl s).booked
    · have hgo : s.stopping = false := by simpa using hstop
      rw [if_neg hstop, Option.isSome_some, hgo, Bool.not_false, Bool.and_true, if_pos rfl]
      have hcharged : ∀ key', some key = some key' → key' = key := fun _ h => (Option.some_inj.mp h).symm
      split_ifs with hleft
      · refine booked_of_set hget rfl hgo hgo.symm (fun _ hkey => nomatch hkey) hcharged ?_ ?_ ?_
        · simp [RequiredStartupEntry.ledger, Ledger.charge, hleft]
        · simp [RequiredStartupEntry.ledger, Ledger.relaunches, hleft]
        · intro key' hkey
          simp [Ne.symm hkey]
      · refine booked_of_set hget rfl hgo hgo.symm (fun _ hkey => nomatch hkey) hcharged ?_ ?_ ?_
        · simp [RequiredStartupEntry.ledger, Ledger.charge, hleft]
        · simp [RequiredStartupEntry.ledger, Ledger.relaunches, hleft]
        · exact fun _ _ => rfl

theorem SameBooks.chargeable (h : s.SameBooks s') (key : String) :
    s'.chargeable key = s.chargeable key := by
  have hhas : s'.requiredStartupEntries.has key = s.requiredStartupEntries.has key := by
    have hledger := congrArg Option.isSome (h.ledger key)
    rw [ledger?, ledger?, Option.isSome_map, Option.isSome_map] at hledger
    exact hledger
  rw [HostState.chargeable, HostState.chargeable, hhas, h.stopping]

theorem SameBooks.observedKey (h : s.SameBooks s') (launch : Option (String × ℕ)) :
    s'.observedKey launch = s.observedKey launch := by
  cases launch with
  | none => rfl
  | some launch =>
    obtain ⟨key, n⟩ := launch
    have hledger := h.ledger key
    unfold HostState.observedKey
    dsimp only
    rw [ledger?, ledger?] at hledger
    cases hget : s.requiredStartupEntries.get? key with
    | none =>
      rw [hget, Option.map_none, Option.map_eq_none_iff] at hledger
      rw [hledger]
    | some entry =>
      rw [hget, Option.map_some] at hledger
      obtain ⟨entry', hget', heq⟩ := Option.map_eq_some_iff.mp hledger
      have haccount : entry'.account = entry.account := congrArg Ledger.account heq
      rw [hget']
      dsimp only
      rw [haccount, h.stopping]

theorem entryByInstanceId_eq_none {instanceId : String}
    (h : s.entryByInstanceId instanceId = none) :
    s.chargedKey instanceId = none := by
  unfold entryByInstanceId at h
  unfold chargedKey
  cases hby : s.requiredStartupEntriesByInstanceId.get? instanceId with
  | none => rfl
  | some key =>
    rw [hby] at h
    have hget := Option.map_eq_none_iff.mp h
    rw [Option.bind_some, HostState.chargeable, has, hget]
    rfl

theorem booked_handleExit (instanceId : String) :
    s.Booked (s.handleRequiredStartupInstanceExit instanceId) none (s.chargedKey instanceId) := by
  unfold handleRequiredStartupInstanceExit
  split_ifs with hstop
  · have hnone : s.chargedKey instanceId = none := by
      unfold chargedKey HostState.chargeable
      rw [hstop]
      cases s.requiredStartupEntriesByInstanceId.get? instanceId with
      | none => rfl
      | some key => simp
    rw [hnone]
    exact (SameBooks.refl s).booked
  · have htake := s.sameBooks_take instanceId
    cases hentry : s.entryByInstanceId instanceId with
    | none =>
      rw [s.entryByInstanceId_eq_none hentry]
      exact htake.booked
    | some taken =>
      obtain ⟨key, entry⟩ := taken
      have hkey : s.chargedKey instanceId =
          (s.takeRequiredStartupEntryByInstanceId instanceId).chargeable key := by
        rw [htake.chargeable, chargedKey, (s.entry_of_entryByInstanceId hentry).1, Option.bind_some]
      rw [hkey]
      exact (booked_handleRequiredStartupFailure _ key).after_same htake

theorem booked_launchFails (launch : String × ℕ) :
    s.Booked (s.launchFails launch) (s.observedKey (some launch)) (s.chargeable launch.1) := by
  have hobserve := s.booked_observeFailure (some launch)
  have hclear := sameBooks_clearTracking (s.observeFailure (some launch)) launch.1
  have hfailure := booked_handleRequiredStartupFailure
    ((s.observeFailure (some launch)).clearRequiredStartupInstanceTracking launch.1) launch.1
  have hchargeable : (s.observeFailure (some launch)).chargeable launch.1 = s.chargeable launch.1 := by
    have hhas : (s.observeFailure (some launch)).requiredStartupEntries.has launch.1 =
        s.requiredStartupEntries.has launch.1 := by
      have hledger := congrArg Option.isSome (hobserve.ledger launch.1)
      rw [ledger?, ledger?, Option.isSome_map, Option.isSome_map, Option.isSome_map,
        Option.isSome_map] at hledger
      exact hledger
    rw [chargeable, chargeable, hhas, hobserve.stopping]
  rw [hclear.chargeable, hchargeable] at hfailure
  exact (hobserve.observe_charge (hfailure.after_same hclear)).before_same
    (sameBooks_updateEntry _ launch.1 fun _ => rfl)

theorem sameBooks_launchSucceeds (key instanceId : String) :
    s.SameBooks (s.launchSucceeds key instanceId) :=
  (s.sameBooks_track key instanceId).trans (sameBooks_updateEntry _ key fun _ => rfl)

variable {s} in
theorem Booked.firstFailure {key : String} {l : Ledger} (hl : s.ledger? key = some l)
    (hfailed : l.account.failed = false) (hgo : s.stopping = false) :
    s.Booked (s.launchFails (key, l.account.launches)) (some key) (some key) := by
  obtain ⟨entry, hget, rfl⟩ := Option.map_eq_some_iff.mp hl
  have hobserved : s.observedKey (some (key, entry.ledger.account.launches)) = some key := by
    unfold observedKey
    dsimp only
    rw [hget]
    exact if_pos ⟨rfl, hfailed, hgo⟩
  have hchargeable : s.chargeable key = some key := by
    rw [HostState.chargeable, has, hget, hgo]
    rfl
  have hfails := s.booked_launchFails (key, entry.ledger.account.launches)
  rw [hobserved, hchargeable] at hfails
  exact hfails

variable {s} in
theorem exists_launched {key : String} {entry : RequiredStartupEntry}
    (hget : s.requiredStartupEntries.get? key = some entry) (hgo : s.stopping = false)
    (hlaunching : entry.launching = false) :
    ∃ (s₁ : HostState) (failed : Option String),
      (∀ key', s₁.ledger? key' = if key = key' then some entry.ledger.launch else s.ledger? key') ∧
      s₁.immediates = s.immediates ∧ s₁.stopping = s.stopping ∧
      s₁.Booked (s.launchRequiredStartupEntry key) failed failed := by
  obtain ⟨s₁, hs₁⟩ : ∃ s₁ : HostState, s₁ = (s.updateEntry key fun entry =>
      { entry with
        launching := true
        account := { entry.account with
          launches := entry.account.launches + 1
          failed := false } }).trackRequiredStartupInstance key entry.stableInstanceId := ⟨_, rfl⟩
  have htrack := sameBooks_track (s.updateEntry key fun entry =>
      { entry with
        launching := true
        account := { entry.account with
          launches := entry.account.launches + 1
          failed := false } }) key entry.stableInstanceId
  rw [← hs₁] at htrack
  unfold updateEntry at htrack
  rw [hget] at htrack
  have hledger : ∀ key', s₁.ledger? key' =
      if key = key' then some entry.ledger.launch else s.ledger? key' := by
    intro key'
    rw [htrack.ledger key', ledger?, ledger?_set]
    rfl
  have hself : s₁.ledger? key = some entry.ledger.launch := by rw [hledger key, if_pos rfl]
  have hgo₁ : s₁.stopping = false := htrack.stopping.trans hgo
  have hfails : ∀ s₂ : HostState, s₁.SameBooks s₂ →
      s₁.Booked (s₂.launchFails (key, entry.account.launches + 1)) (some key) (some key) := by
    intro s₂ hsame
    refine Booked.after_same hsame (Booked.firstFailure (l := entry.ledger.launch) ?_ rfl ?_)
    · rw [hsame.ledger key, hself]
    · exact hsame.stopping.trans hgo₁
  have hstart : ∀ payload launch, s₁.SameBooks (s₁.startRunner payload launch) :=
    fun payload launch => (s₁.sameStartup_startRunner payload launch).sameBooks
  unfold launchRequiredStartupEntry
  rw [hget]
  dsimp only
  rw [if_neg (by simp [hgo, hlaunching]), ← hs₁]
  split_ifs with hconflict hreserve
  · exact ⟨s₁, some key, hledger, htrack.immediates, htrack.stopping, hfails s₁ (.refl s₁)⟩
  · exact ⟨s₁, none, hledger, htrack.immediates, htrack.stopping, (hstart _ _).booked⟩
  · exact ⟨s₁, some key, hledger, htrack.immediates, htrack.stopping, hfails _ (hstart _ _)⟩

end Functions

/-! ## Steps -/

theorem launched_balance {key : String} {entry : RequiredStartupEntry}
    (hget : s.requiredStartupEntries.get? key = some entry) (hgo : s.stopping = false)
    (hlaunching : entry.launching = false)
    (hself : entry.ledger.launch.Balanced (s.immediates.count key) s.stopping ∧
      entry.ledger.launch.Settled (s.immediates.count key) s.stopping)
    (hothers : ∀ key' l, key ≠ key' → s.ledger? key' = some l →
      l.Balanced (s.immediates.count key') s.stopping ∧
        l.Settled (s.immediates.count key') s.stopping)
    (hnoEntry : ∀ key', s.ledger? key' = none → s.immediates.count key' = 0) :
    HostState.Balanced (s.launchRequiredStartupEntry key) ∧
      (s.launchRequiredStartupEntry key).Settled := by
  obtain ⟨s₁, failed, hledger, himmediates, hstopping, hbooked⟩ := exists_launched hget hgo hlaunching
  have hentry : ∀ key' l, s₁.ledger? key' = some l →
      l.Balanced (s₁.immediates.count key') s₁.stopping ∧
        l.Settled (s₁.immediates.count key') s₁.stopping := by
    intro key' l hl
    rw [hledger key'] at hl
    rw [himmediates, hstopping]
    split_ifs at hl with hkey
    · cases hl
      exact hkey ▸ hself
    · exact hothers key' l hkey hl
  refine hbooked.balance (fun key' l hl => (hentry key' l hl).1)
    ⟨fun key' l hl => (hentry key' l hl).2, fun key' hl => ?_⟩
  rw [hledger key'] at hl
  rw [himmediates]
  split_ifs at hl with hkey
  exact hnoEntry key' hl

variable (s) in
/-- The launch that is scheduled next finds no other launch of the entry. -/
def LaunchFree : Prop :=
  ∀ key ∈ s.immediates.head?, ∀ entry ∈ s.requiredStartupEntries.get? key,
    s.stopping = false → entry.launching = false

theorem Balanced.immediate_iff (hb : s.Balanced) (hs : s.Settled) :
    (HostState.Balanced (s.next .immediate) ↔ s.LaunchFree) ∧
      (s.LaunchFree → (s.next .immediate).Settled) := by
  unfold LaunchFree
  simp only [next]
  cases himm : s.immediates with
  | nil => exact ⟨iff_of_true hb (by simp), fun _ => hs⟩
  | cons key immediates =>
    dsimp only
    have hcount : ∀ key', s.immediates.count key' =
        immediates.count key' + if key == key' then 1 else 0 := by
      intro key'
      rw [himm, List.count_cons]
    have hlt : ∀ key', s.immediates.count key' = 0 → immediates.count key' = 0 := by
      intro key' hzero
      have := hcount key'
      omega
    cases hget : s.requiredStartupEntries.get? key with
    | none =>
      have hzero := hs.noEntry key (by rw [ledger?, hget]; rfl)
      rw [himm, List.count_cons_self] at hzero
      cases hzero
    | some entry =>
      have hledger : s.ledger? key = some entry.ledger := by rw [ledger?, hget]; rfl
      have hself := hcount key
      rw [if_pos (beq_self_eq_true key)] at hself
      cases hgo : s.stopping with
      | true =>
        -- the Host is stopping, and there is no other launch
        have hskip : HostState.launchRequiredStartupEntry { s with immediates := immediates }
            key = { s with immediates := immediates } := by
          unfold launchRequiredStartupEntry
          dsimp only
          rw [hget]
          exact if_pos (by simp [hgo])
        rw [hgo] at hskip
        rw [hskip]
        refine ⟨iff_of_true (fun key' l hl => ?_) (by simp), fun _ => ⟨fun key' l hl hgo' => ?_,
          fun key' hl => hlt key' (hs.noEntry key' hl)⟩⟩
        · obtain ⟨hfailures, hattempts, hstop, hexhausted, -⟩ := hb key' l hl
          exact ⟨hfailures, hattempts, hstop, hexhausted, fun hgo' => by cases hgo'⟩
        · cases hgo'
      | false =>
        cases hlaunching : entry.launching with
        | true =>
          have hskip : HostState.launchRequiredStartupEntry
              { s with immediates := immediates } key = { s with immediates := immediates } := by
            unfold launchRequiredStartupEntry
            dsimp only
            rw [hget]
            exact if_pos (by simp [hlaunching])
          rw [hgo] at hskip
          rw [hskip]
          have hbefore := hb key entry.ledger hledger
          rw [hself, hgo] at hbefore
          refine ⟨iff_of_false (fun hbalanced => ?_) (by simp [hget, hlaunching]),
            fun hfree => ?_⟩
          · exact hbefore.not_skip (hbalanced key entry.ledger hledger)
          · rw [hfree key (by simp) entry (by simp [hget]) rfl] at hlaunching
            cases hlaunching
        | false =>
          have hbefore := hb key entry.ledger hledger
          have hsettled := hs.entry key entry.ledger hledger
          rw [hself] at hbefore hsettled
          have hlaunched := launched_balance (s := { s with immediates := immediates })
            hget hgo hlaunching (hbefore.launch hsettled) (fun key' l hne hl => ?_)
            fun key' hl => hlt key' (hs.noEntry key' hl)
          · rw [hgo] at hlaunched
            exact ⟨iff_of_true hlaunched.1 (by simp [hget, hlaunching]), fun _ => hlaunched.2⟩
          · have hother := hcount key'
            rw [if_neg (by simpa using hne), Nat.add_zero] at hother
            show l.Balanced (immediates.count key') s.stopping ∧
              l.Settled (immediates.count key') s.stopping
            rw [← hother]
            exact ⟨hb key' l hl, hs.entry key' l hl⟩

theorem Balanced.performStartup (hb : s.Balanced) (hs : s.Settled) (key : String)
    (payload : StartPayload) (restartLimit : ℕ) :
    HostState.Balanced (s.performStartup key payload restartLimit) ∧
      (s.performStartup key payload restartLimit).Settled := by
  unfold HostState.performStartup
  split_ifs with hskip
  · exact ⟨hb, hs⟩
  · simp only [Bool.or_eq_true, not_or, Bool.not_eq_true] at hskip
    have hnone : s.ledger? key = none := by
      have hhas := hskip.1.1
      rw [has, Option.isSome_eq_false_iff, Option.isNone_iff_eq_none] at hhas
      rw [ledger?, hhas]
      rfl
    have hzero := hs.noEntry key hnone
    have hget : (s.requiredStartupEntries.set key (.create payload restartLimit)).get? key =
        some (.create payload restartLimit) := get?_set_self _ _ _
    have hothers : ∀ key' l, key ≠ key' →
        ((s.requiredStartupEntries.set key (.create payload restartLimit)).get? key').map
          RequiredStartupEntry.ledger = some l → s.ledger? key' = some l := by
      intro key' l hne hl
      rw [ledger?_set, if_neg hne] at hl
      exact hl
    have hnoEntry : ∀ key',
        ((s.requiredStartupEntries.set key (.create payload restartLimit)).get? key').map
          RequiredStartupEntry.ledger = none → s.immediates.count key' = 0 := by
      intro key' hl
      rw [ledger?_set] at hl
      split_ifs at hl
      exact hs.noEntry key' hl
    cases hgo : s.stopping with
    | false =>
      have hlaunched := launched_balance (s := { s with
        requiredStartupEntries := s.requiredStartupEntries.set key (.create payload restartLimit) })
        hget hgo rfl ?_ (fun key' l hne hl => ?_) hnoEntry
      · rw [hgo] at hlaunched
        exact hlaunched
      · show Ledger.Balanced _ (s.immediates.count key) s.stopping ∧
          Ledger.Settled _ (s.immediates.count key) s.stopping
        rw [hzero]
        refine ⟨⟨rfl, Nat.zero_add _, Nat.zero_le _, fun hpos => ?_, fun _ => rfl⟩, fun _ => rfl⟩
        exact absurd hpos (Nat.lt_irrefl 0)
      · exact ⟨hb key' l (hothers key' l hne hl), hs.entry key' l (hothers key' l hne hl)⟩
    | true =>
      have hstop : HostState.launchRequiredStartupEntry { s with
          requiredStartupEntries := s.requiredStartupEntries.set key
            (.create payload restartLimit) } key = { s with
          requiredStartupEntries := s.requiredStartupEntries.set key
            (.create payload restartLimit) } := by
        unfold launchRequiredStartupEntry
        dsimp only
        rw [hget]
        exact if_pos (by simp [hgo])
      rw [hgo] at hstop
      rw [hstop]
      refine ⟨fun key' l hl => ?_, ⟨fun key' l hl hgo' => (by cases hgo'), hnoEntry⟩⟩
      by_cases hkey : key = key'
      · rw [ledger?, ledger?_set, if_pos hkey, Option.some_inj] at hl
        rw [← hl]
        refine ⟨rfl, Nat.zero_add _, Nat.zero_le _, fun hpos => ?_, fun hgo' => by cases hgo'⟩
        exact absurd hpos (Nat.lt_irrefl 0)
      · have hbefore := hb key' l (hothers key' l hkey hl)
        rw [hgo] at hbefore
        exact hbefore

variable (s) in
/-- The entry that is charged when an instance terminates: what another controller of the store is
tracked for is not. -/
def exitKey (ref : ℕ) (c : CSIController) : Option String :=
  if s.instancesStore.get? c.id = some ref then s.chargedKey c.id else none

theorem booked_onTerminated {ref : ℕ} {c : CSIController} (hc : s.controllers[ref]? = some c)
    (hterminated : c.terminated = false) :
    s.Booked (s.onTerminated ref) (s.observedKey c.launch) (s.exitKey ref c) := by
  have hupdate := (s.sameStartup_updateController ref fun c => { c with terminated := true }).sameBooks
  have hobserve := booked_observeFailure
    (s.updateController ref fun c => { c with terminated := true }) c.launch
  have hstart : s.onTerminated ref = (((s.updateController ref fun c =>
      { c with terminated := true }).observeFailure c.launch).handleDispatcherTerminatedEvent ref c) := by
    unfold onTerminated
    rw [hc]
    exact if_neg (by simp [hterminated])
  have hstore : ((s.updateController ref fun c => { c with terminated := true }).observeFailure
      c.launch).instancesStore = s.instancesStore := by
    unfold observeFailure updateEntry
    split
    · rfl
    · split <;> rfl
  have hby : ((s.updateController ref fun c => { c with terminated := true }).observeFailure
      c.launch).requiredStartupEntriesByInstanceId = s.requiredStartupEntriesByInstanceId := by
    unfold observeFailure updateEntry
    split
    · rfl
    · split <;> rfl
  have hchargeable : ∀ key, ((s.updateController ref fun c =>
      { c with terminated := true }).observeFailure c.launch).chargeable key = s.chargeable key := by
    intro key
    have hledger := congrArg Option.isSome (hobserve.ledger key)
    rw [ledger?, ledger?, Option.isSome_map, Option.isSome_map, Option.isSome_map,
      Option.isSome_map] at hledger
    unfold chargeable has
    rw [hledger, hobserve.stopping]
    rfl
  rw [hstart]
  refine Booked.after_same hupdate (Booked.observe_charge hobserve ?_)
  unfold handleDispatcherTerminatedEvent exitKey
  rw [hstore]
  split_ifs with hstored
  · have hcleanup := sameStartup_cleanup ((s.updateController ref fun c =>
      { c with terminated := true }).observeFailure c.launch) c.id
    have hexit := booked_handleExit (((s.updateController ref fun c =>
      { c with terminated := true }).observeFailure c.launch).cleanupRequiredStartupInstance c.id) c.id
    have hkey : (((s.updateController ref fun c => { c with terminated := true }).observeFailure
        c.launch).cleanupRequiredStartupInstance c.id).chargedKey c.id = s.chargedKey c.id := by
      unfold chargedKey
      rw [hcleanup.byInstanceId, hby]
      congr 1
      funext key
      rw [hcleanup.sameBooks.chargeable, hchargeable]
    rw [hkey] at hexit
    exact hexit.after_same hcleanup.sameBooks
  · exact (SameBooks.refl _).booked

/-! ## Runs -/

variable (s) in
/-- A step charges the entry of which it observes a failure, and no other: an exit is charged to the
entry of the launch that has not failed yet, and so is a start that fails; what follows the message
on an end charges nothing; and no launch is skipped while the Host is running. -/
def KeepsBalance : Action → Prop
  | .initFails k => ∀ start ∈ s.startAt k [.initializing], ∀ launch ∈ start.launch,
      s.observedKey (some launch) = s.chargeable launch.1
  | .startFails k => ∀ start ∈ s.startAt k [.dispatching, .connecting, .established],
      ∀ launch ∈ start.launch, s.observedKey (some launch) = s.chargeable launch.1
  | .terminated ref => ∀ c ∈ s.controllers[ref]?, c.terminated = false →
      s.observedKey c.launch = s.exitKey ref c
  | .endSent i => ∀ ref ∈ s.ending[i]?, ∀ c ∈ s.controllers[ref]?, s.chargedKey c.id = none
  | .immediate => s.LaunchFree
  | _ => True

theorem Balanced.startFails_iff (hb : s.Balanced) (hs : s.Settled) (hsame : s.SameBooks s')
    (start : Start) :
    (HostState.Balanced (s'.startFails start) ↔
        ∀ launch ∈ start.launch, s.observedKey (some launch) = s.chargeable launch.1) ∧
      ((∀ launch ∈ start.launch, s.observedKey (some launch) = s.chargeable launch.1) →
        (s'.startFails start).Settled) := by
  unfold startFails
  cases hlaunch : start.launch with
  | none =>
    obtain ⟨hb', hs'⟩ := hsame.booked.balance hb hs
    exact ⟨iff_of_true hb' (by simp), fun _ => hs'⟩
  | some launch =>
    have hfails := (s'.booked_launchFails launch).after_same hsame
    rw [hsame.observedKey, hsame.chargeable] at hfails
    have hiff := hfails.balanced_iff hb hs
    simp only [Option.mem_some_iff, forall_eq']
    refine ⟨hiff, fun hkeys => ?_⟩
    rw [hkeys] at hfails
    exact (hfails.balance hb hs).2

theorem Balanced.next (hb : s.Balanced) (hs : s.Settled) (a : Action) :
    (HostState.Balanced (s.next a) ↔ s.KeepsBalance a) ∧
      (s.KeepsBalance a → (s.next a).Settled) := by
  have hsame : ∀ {s' : HostState}, s.SameBooks s' →
      (s'.Balanced ↔ True) ∧ (True → s'.Settled) := by
    intro s' h
    obtain ⟨hb', hs'⟩ := h.booked.balance hb hs
    exact ⟨iff_true_intro hb', fun _ => hs'⟩
  -- a step that is a no-op
  have hnoop : ∀ {p : Prop}, p → (s.Balanced ↔ p) ∧ (p → s.Settled) :=
    fun hp => ⟨iff_of_true hb hp, fun _ => hs⟩
  have hbooked : ∀ {s' : HostState} {observed charged : Option String},
      s.Booked s' observed charged →
      (s'.Balanced ↔ observed = charged) ∧ (observed = charged → s'.Settled) := by
    intro s' observed charged h
    refine ⟨h.balanced_iff hb hs, ?_⟩
    rintro rfl
    exact (h.balance hb hs).2
  cases a with
  | addSequence | deleteSequence | connection => exact hsame ⟨fun _ => rfl, rfl, rfl⟩
  | startRunner payload => exact hsame (s.sameStartup_startRunner payload none).sameBooks
  | performStartup key payload restartLimit =>
    obtain ⟨hb', hs'⟩ := hb.performStartup hs key payload restartLimit
    exact ⟨iff_true_intro hb', fun _ => hs'⟩
  | initialized k =>
    simp only [HostState.next]
    split
    · exact hnoop trivial
    · exact hsame ⟨fun _ => rfl, rfl, rfl⟩
  | initFails k =>
    simp only [HostState.next, KeepsBalance]
    cases s.startAt k [.initializing] with
    | none => exact hnoop (by simp)
    | some start =>
      have hstage : s.SameBooks (s.setStage k .settled) := ⟨fun _ => rfl, rfl, rfl⟩
      simpa using hb.startFails_iff hs hstage start
  | dispatched k =>
    simp only [HostState.next]
    split
    · exact hnoop trivial
    · exact hsame ⟨fun _ => rfl, rfl, rfl⟩
  | ready k =>
    simp only [HostState.next]
    split
    · exact hnoop trivial
    · rename_i start hstart
      have hstage : s.SameBooks (s.setStage k .settled) := ⟨fun _ => rfl, rfl, rfl⟩
      refine hsame (hstage.trans ?_)
      unfold startSucceeds
      split
      · exact .refl _
      · exact sameBooks_launchSucceeds _ _ _
  | startFails k =>
    simp only [HostState.next, KeepsBalance]
    cases s.startAt k [.dispatching, .connecting, .established] with
    | none => exact hnoop (by simp)
    | some start =>
      have hrelease : s.SameBooks ((s.setStage k .settled).releaseStart start.payload) :=
        ⟨fun _ => rfl, rfl, rfl⟩
      simpa using hb.startFails_iff hs hrelease start
  | ping ref accepted => exact hsame (s.sameStartup_onPing ref accepted).sameBooks
  | terminated ref =>
    simp only [HostState.next, KeepsBalance]
    cases hc : s.controllers[ref]? with
    | none =>
      have hnone : s.onTerminated ref = s := by simp only [onTerminated, hc]
      rw [hnone]
      exact hnoop (by simp)
    | some c =>
      cases hterminated : c.terminated with
      | true =>
        have hnone : s.onTerminated ref = s := by
          simp only [onTerminated, hc, hterminated]
          rfl
        rw [hnone]
        exact hnoop (by simp [hterminated])
      | false =>
        have hexit := hbooked (booked_onTerminated hc hterminated)
        simpa [hterminated] using hexit
  | ended ref => exact hsame (s.sameStartup_onEnd ref).sameBooks
  | fetched i =>
    simp only [HostState.next]
    split
    · exact hnoop trivial
    · rename_i ref hget
      have hsend := sameStartup_sendInstanceInfo { s with fetching := s.fetching.eraseIdx i } ref
        false
      exact hsame (SameStartup.sameBooks { hsend with })
  | endSent i =>
    simp only [HostState.next, KeepsBalance]
    cases hget : s.ending[i]? with
    | none => exact hnoop (by simp)
    | some ref =>
      have hrest : s.SameBooks { s with ending := s.ending.eraseIdx i } :=
        ⟨fun _ => rfl, rfl, rfl⟩
      dsimp only
      cases hc : s.controllers[ref]? with
      | none => simpa [hc] using hsame hrest
      | some c =>
        have hexit := hbooked ((booked_handleExit _ c.id).after_same hrest)
        have hkey : HostState.chargedKey { s with ending := s.ending.eraseIdx i } c.id =
            s.chargedKey c.id := rfl
        rw [hkey] at hexit
        simpa [hc, eq_comm] using hexit
  | immediate => exact hb.immediate_iff hs
  | stop =>
    refine ⟨iff_true_intro fun key l hl => ?_,
      fun _ => ⟨fun key l hl hgo => (by cases hgo), hs.noEntry⟩⟩
    obtain ⟨hfailures, hattempts, hstop, hexhausted, -⟩ := hb key l hl
    exact ⟨hfailures, hattempts, hstop, hexhausted, fun hgo => by cases hgo⟩

/-- The accounts of the required entries stay balanced over a run exactly if every failure of a
launch is charged once, and no launch that is due is skipped. -/
theorem balanced_iff_keepsBalance (as : List Action) :
    System.Always HostState.next HostState.Balanced new as ↔
      System.Meets HostState.next KeepsBalance new as := by
  have hnew : new.Balanced := fun key l hl => nomatch hl
  have hsettled : new.Settled := ⟨fun key l hl => (nomatch hl), fun _ _ => rfl⟩
  exact System.always_iff_meets (I := HostState.Settled) (A := fun _ => True)
    (fun _ a _ hs hb => (hb.next hs a).1) (fun _ a _ hs hb hok => (hb.next hs a).2 hok) hsettled hnew
    as fun _ _ => trivial

/-- An instance exits while the Host waits for it to be ready. The exit is charged, the relaunch comes
while the entry is still being launched, and the failed launch is charged again. -/
theorem requiredEntry_chargedTwice : ¬ ∀ as :
    List Action, (as.foldl HostState.next new).Balanced := by
  intro h
  have hbalanced := h [.addSequence "sequence",
    .performStartup "key" ⟨"instance", "sequence", none⟩ 2, .initialized 0, .dispatched 0,
    .ping 0 true, .terminated 0, .immediate, .startFails 0]
  have hfailures := (hbalanced "key" ⟨2, 0, ⟨1, true, 1, 2, 0⟩⟩ (by decide +kernel)).failures
  exact absurd hfailures (by decide)

end HostState

end TransformHub.Host.Instances
