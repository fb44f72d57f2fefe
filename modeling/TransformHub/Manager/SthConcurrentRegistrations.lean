import TransformHub.Manager.SthRegistrationRun

/-!
# Overlapping registrations of a hub

Registrations of one hub that wait for `init` at the same time.
-/

namespace TransformHub.Manager.SthRegistration

open SthInfo ManagerState OrderedMap

/-- The Manager with the controllers whose `init` has come to its end; these are not in the code. -/
structure Registrations where
  manager : ManagerState
  succeeded : List ℕ

namespace Registrations

def start : Registrations := ⟨.start, []⟩

def next (s : Registrations) (a : Action) : Registrations where
  manager := s.manager.next a
  succeeded :=
    match a with
    | .initResolved k =>
      if (s.manager.registrations.get? k).isSome then k :: s.succeeded else s.succeeded
    | _ => s.succeeded

/-- A registration of the hub waits for `init`. -/
def Pending (m : ManagerState) (id : HostId) (k : ℕ) (reg : Registration) : Prop :=
  m.registrations.get? k = some reg ∧ (m.controllers k).id = id

/-- The hub is not deleted through the API, and a registration of it that fails finds its own
controller connected: none that was begun later has taken its place. -/
def TakesBackOwn (id : HostId) (s : Registrations) : Action → Prop
  | .initFailed k => ∀ reg, Pending s.manager id k reg → s.manager.sthConnectionStore.get? id = some k
  | .delete hub _ _ => hub ≠ id
  | _ => True

/-- The controllers that wait for `init`, from the connection down, each with the one that it has
replaced, to the first that does not wait. -/
def Line (m : ManagerState) (id : HostId) : Option ℕ → List ℕ → Option ℕ → Prop
  | top, [], bottom => top = bottom
  | top, k :: ks, bottom =>
    top = some k ∧ ∃ reg, Pending m id k reg ∧ Line m id (reg.map Prod.fst) ks bottom

/-- What stands below the connection of a hub. -/
structure Standing (s : Registrations) (id : HostId) (waiting : List ℕ) (last : Option ℕ) : Prop where
  line : Line s.manager id (s.manager.sthConnectionStore.get? id) waiting last
  descending : waiting.Pairwise (· > ·)
  /-- the line ends at one that has succeeded -/
  bottom : ∀ k, last = some k → k ∈ s.succeeded ∧ (s.manager.controllers k).id = id
  succeeded : ∀ k ∈ s.succeeded, (s.manager.controllers k).id = id → ∃ l, last = some l ∧ k ≤ l
  above : ∀ k ∈ waiting, ∀ l, last = some l → l < k
  /-- a registration that waits and is not in line has been overtaken -/
  overtaken : ∀ k reg, Pending s.manager id k reg → k ∉ waiting → ∃ l, last = some l ∧ k < l

structure Inv (s : Registrations) (id : HostId) : Prop where
  kept : s.manager.Kept
  settled : ∀ k ∈ s.succeeded, k < s.manager.controllerCount ∧ s.manager.registrations.get? k = none
  removals : ∀ removal ∈ s.manager.removals, removal.id ≠ id
  standing : ∃ waiting last, s.Standing id waiting last

/-! ## Other steps -/

/-- Nothing happens to the registrations of a hub. -/
structure Untouched (m m' : ManagerState) (id : HostId) : Prop where
  controllerCount : m.controllerCount ≤ m'.controllerCount
  ids : ∀ k < m.controllerCount, (m'.controllers k).id = (m.controllers k).id
  connection : m'.sthConnectionStore.get? id = m.sthConnectionStore.get? id
  pending : ∀ k reg, Pending m' id k reg ↔ Pending m id k reg
  registrations : ∀ k < m.controllerCount, m.registrations.get? k = none → m'.registrations.get? k = none

variable {m m' m'' : ManagerState} {id : HostId} {s : Registrations} {k : ℕ}

/-- The connections and the registrations are the same. -/
structure SameLinks (m m' : ManagerState) : Prop where
  controllerCount : m'.controllerCount = m.controllerCount
  ids : ∀ k, (m'.controllers k).id = (m.controllers k).id
  connection : m'.sthConnectionStore = m.sthConnectionStore
  registrations : m'.registrations = m.registrations
  removals : m'.removals = m.removals

namespace SameLinks

theorem refl (m : ManagerState) : SameLinks m m := ⟨rfl, fun _ => rfl, rfl, rfl, rfl⟩

theorem trans (h : SameLinks m m') (h' : SameLinks m' m'') : SameLinks m m'' where
  controllerCount := h'.controllerCount.trans h.controllerCount
  ids := fun k => (h'.ids k).trans (h.ids k)
  connection := h'.connection.trans h.connection
  registrations := h'.registrations.trans h.registrations
  removals := h'.removals.trans h.removals

theorem updateController (m : ManagerState) (k : ℕ) {f : STHController → STHController}
    (hf : ∀ sth, (f sth).id = sth.id) : SameLinks m (m.updateController k f) := by
  refine ⟨rfl, fun j => ?_, rfl, rfl, rfl⟩
  simp only [ManagerState.updateController]
  split_ifs with hj
  · rw [hj, hf]
  · rfl

theorem handleEmission (m : ManagerState) (k : ℕ) (emission : Emission) :
    SameLinks m (m.handleEmission k emission) := by
  cases emission with
  | load => exact updateController m k (f := fun sth => { sth with healthy := true }) fun _ => rfl
  | topicRemove topicName | «instance» inst =>
    simp only [ManagerState.handleEmission]
    split <;> exact ⟨rfl, fun _ => rfl, rfl, rfl, rfl⟩
  | _ => exact ⟨rfl, fun _ => rfl, rfl, rfl, rfl⟩

theorem disconnect (m : ManagerState) (k : ℕ) (reason : DisconnectReason) :
    SameLinks m (m.disconnect k reason) := by
  unfold ManagerState.disconnect
  split
  · exact refl m
  · have hupdate := updateController m k (f := fun sth => { sth with disconnectReason := some reason })
      fun _ => rfl
    exact { hupdate with }

theorem routeLost (m : ManagerState) (domain : String) : SameLinks m (m.routeLost domain) := by
  have hfold : ∀ (ks : List ℕ) (m' : ManagerState), SameLinks m' (ks.foldl (fun m k =>
      if (m.controllers k).routeDomain = domain then
        (m.updateController k fun sth => { sth with healthy := false }).cleanupHubState
          (m.controllers k).id
      else m) m') := by
    intro ks
    induction ks with
    | nil => exact fun m' => refl m'
    | cons k ks ih =>
      intro m'
      rw [List.foldl_cons]
      split_ifs
      · have hupdate := updateController m' k (f := fun sth => { sth with healthy := false })
          fun _ => rfl
        have hcleaned : SameLinks m' ((m'.updateController k fun sth =>
            { sth with healthy := false }).cleanupHubState (m'.controllers k).id) := { hupdate with }
        exact hcleaned.trans (ih _)
      · exact ih m'
  exact hfold _ m

theorem untouched (h : SameLinks m m') (id : HostId) : Untouched m m' id where
  controllerCount := h.controllerCount.ge
  ids := fun k _ => h.ids k
  connection := by rw [h.connection]
  pending := fun k reg => by rw [Pending, Pending, h.registrations, h.ids]
  registrations := fun k _ hnone => by rw [h.registrations, hnone]

end SameLinks

theorem Line.congr {top last : Option ℕ} {waiting : List ℕ} (h : Line m id top waiting last)
    (hpending : ∀ k ∈ waiting, ∀ reg, Pending m id k reg → Pending m' id k reg) :
    Line m' id top waiting last := by
  induction waiting generalizing top with
  | nil => exact h
  | cons k ks ih =>
    obtain ⟨htop, reg, hreg, hrest⟩ := h
    exact ⟨htop, reg, hpending k (List.mem_cons_self ..) reg hreg,
      ih hrest fun j hj => hpending j (List.mem_cons_of_mem _ hj)⟩

theorem Line.split {top last : Option ℕ} {before after : List ℕ}
    (h : Line m id top (before ++ k :: after) last) : Line m id top before (some k) := by
  induction before generalizing top with
  | nil => exact h.1
  | cons j before ih =>
    obtain ⟨htop, reg, hreg, hrest⟩ := h
    exact ⟨htop, reg, hreg, ih hrest⟩

theorem Inv.untouched (h : s.Inv id) (hkept : m'.Kept) (hu : Untouched s.manager m' id)
    (hremovals : ∀ removal ∈ m'.removals, removal.id ≠ id) :
    Inv ⟨m', s.succeeded⟩ id := by
  obtain ⟨waiting, last, hline, hdescending, hlast, hsucceeded, habove, hovertaken⟩ := h.standing
  have hids : ∀ k ∈ s.succeeded, (m'.controllers k).id = (s.manager.controllers k).id :=
    fun k hk => hu.ids k (h.settled k hk).1
  refine ⟨hkept, fun k hk => ?_, hremovals, waiting, last, ?_, hdescending, fun k hk => ?_,
    fun k hk hid => ?_, habove, fun k reg hreg => ?_⟩
  · obtain ⟨hlt, hnone⟩ := h.settled k hk
    exact ⟨hlt.trans_le hu.controllerCount, hu.registrations k hlt hnone⟩
  · rw [hu.connection]
    exact hline.congr fun k _ reg hreg => (hu.pending k reg).mpr hreg
  · obtain ⟨hmem, hid⟩ := hlast k hk
    exact ⟨hmem, (hids k hmem).trans hid⟩
  · exact hsucceeded k hk ((hids k hk).symm.trans hid)
  · exact hovertaken k reg ((hu.pending k reg).mp hreg)

theorem Inv.foreign (h : s.Inv id) (hlt : k < s.manager.controllerCount)
    (hnone : s.manager.registrations.get? k = none) (hid : (s.manager.controllers k).id ≠ id) :
    Inv ⟨s.manager, k :: s.succeeded⟩ id := by
  obtain ⟨waiting, last, hline, hdescending, hbottom, hsucceeded, habove, hovertaken⟩ := h.standing
  refine ⟨h.kept, fun j hj => ?_, h.removals, waiting, last, hline, hdescending, fun j hj => ?_,
    fun j hj hid' => ?_, habove, hovertaken⟩
  · rcases List.mem_cons.mp hj with rfl | hj
    · exact ⟨hlt, hnone⟩
    · exact h.settled j hj
  · exact ⟨List.mem_cons_of_mem _ (hbottom j hj).1, (hbottom j hj).2⟩
  · rcases List.mem_cons.mp hj with rfl | hj
    · exact absurd hid' hid
    · exact hsucceeded j hj hid'

/-! ## Steps of the registrations -/

theorem untouched_register (hkept : m.Kept) {hub : HostId} (hne : hub ≠ id) (domain : String)
    (self : Bool) : Untouched m (m.handleSthRegistration hub domain self) id := by
  have hreg := m.registers_handleSthRegistration hub domain self
  refine ⟨by rw [hreg.controllerCount]; omega, fun k hk => by rw [hreg.controllers k hk],
    by rw [hreg.connection, get?_set_of_ne _ hne], fun k reg => ?_, fun k hk hnone => ?_⟩
  · unfold Pending
    rw [hreg.registrations, get?_set]
    split_ifs with hnew
    · -- the new one is of the other hub
      subst hnew
      rw [hreg.id_new]
      refine iff_of_false (fun hpending => hne hpending.2) fun hpending => ?_
      exact Nat.lt_irrefl _ (hkept.pending _ _ hpending.1).1
    · refine and_congr_right fun hget => ?_
      rw [hreg.controllers k (hkept.pending _ _ hget).1]
  · rw [hreg.registrations, get?_set_of_ne _ hk.ne', hnone]

theorem Inv.register (h : s.Inv id) (domain : String) (self : Bool) :
    (s.next (.register id domain self)).Inv id := by
  have hreg := s.manager.registers_handleSthRegistration id domain self
  obtain ⟨waiting, last, hline, hdescending, hbottom, hsucceeded, habove, hovertaken⟩ := h.standing
  -- whatever waits is older than the new one
  have hwaiting : ∀ {top : Option ℕ} {ks : List ℕ}, Line s.manager id top ks last →
      ∀ k ∈ ks, k < s.manager.controllerCount := by
    intro top ks hks
    induction ks generalizing top with
    | nil => simp
    | cons j ks ih =>
      obtain ⟨-, reg, hpending, hrest⟩ := hks
      intro k hk
      rcases List.mem_cons.mp hk with rfl | hk
      · exact (h.kept.pending _ _ hpending.1).1
      · exact ih hrest k hk
  have hold : ∀ k < s.manager.controllerCount, ∀ reg,
      Pending (s.manager.handleSthRegistration id domain self) id k reg ↔ Pending s.manager id k reg := by
    intro k hk reg
    unfold Pending
    rw [hreg.registrations, get?_set_of_ne _ hk.ne', hreg.controllers k hk]
  have hnew : Pending (s.manager.handleSthRegistration id domain self) id s.manager.controllerCount
      (s.manager.replaces id) :=
    ⟨by rw [hreg.registrations, get?_set_self], hreg.id_new⟩
  refine ⟨h.kept.next (.register id domain self), fun k hk => ?_, ?_,
    s.manager.controllerCount :: waiting, last, ⟨?_, ?_, fun k hk => ?_, fun k hk hid => ?_, ?_, ?_⟩⟩
  · obtain ⟨hlt, hnone⟩ := h.settled k hk
    show k < (s.manager.handleSthRegistration id domain self).controllerCount ∧
      (s.manager.handleSthRegistration id domain self).registrations.get? k = none
    rw [hreg.controllerCount, hreg.registrations, get?_set_of_ne _ hlt.ne']
    exact ⟨by omega, hnone⟩
  · show ∀ removal ∈ (s.manager.handleSthRegistration id domain self).removals, removal.id ≠ id
    rw [hreg.removals]
    exact h.removals
  · refine ⟨?_, s.manager.replaces id, hnew, ?_⟩
    · show (s.manager.handleSthRegistration id domain self).sthConnectionStore.get? id = _
      rw [hreg.connection, get?_set_self]
    · have htop : (s.manager.replaces id).map Prod.fst = s.manager.sthConnectionStore.get? id := by
        unfold replaces
        rw [Option.map_map]
        exact Option.map_id'
      rw [htop]
      exact hline.congr fun k hk reg hpending => (hold k (hwaiting hline k hk) reg).mpr hpending
  · exact List.pairwise_cons.mpr ⟨hwaiting hline, hdescending⟩
  · obtain ⟨hmem, hid⟩ := hbottom k hk
    refine ⟨hmem, ?_⟩
    show ((s.manager.handleSthRegistration id domain self).controllers k).id = id
    rw [hreg.controllers k (h.settled k hmem).1]
    exact hid
  · refine hsucceeded k hk ?_
    have hcontroller := hreg.controllers k (h.settled k hk).1
    rw [← hcontroller]
    exact hid
  · intro k hk l hl
    rcases List.mem_cons.mp hk with rfl | hk
    · exact (h.settled l (hbottom l hl).1).1
    · exact habove k hk l hl
  · intro k reg hpending hnot
    rw [List.mem_cons, not_or] at hnot
    have hlt : k < s.manager.controllerCount := by
      have hle := (h.kept.next (.register id domain self)).pending k reg hpending.1
      have hcount : (s.manager.next (.register id domain self)).controllerCount =
          s.manager.controllerCount + 1 := hreg.controllerCount
      have hne := hnot.1
      omega
    exact hovertaken k reg ((hold k hlt reg).mp hpending) hnot.2

theorem resolved_frame (m : ManagerState) (k : ℕ) :
    (m.initResolved k).controllerCount = m.controllerCount ∧
      (∀ j, ((m.initResolved k).controllers j).id = (m.controllers j).id) ∧
      (m.initResolved k).sthConnectionStore = m.sthConnectionStore ∧
      (∀ j, (m.initResolved k).registrations.get? j =
        if k = j then none else m.registrations.get? j) ∧
      (m.initResolved k).removals = m.removals := by
  unfold initResolved
  cases hget : m.registrations.get? k with
  | none =>
    refine ⟨rfl, fun _ => rfl, rfl, fun j => ?_, rfl⟩
    split_ifs with hj
    · rw [← hj, hget]
    · rfl
  | some reg =>
    cases reg with
    | none => exact ⟨rfl, fun _ => rfl, rfl, fun j => get?_delete _ _ _, rfl⟩
    | some replaced =>
      refine ⟨rfl, fun j => ?_, rfl, fun j => get?_delete _ _ _, rfl⟩
      simp only [updateController]
      split_ifs with hj
      · rw [hj]
      · rfl

theorem Inv.initResolved (h : s.Inv id) (k : ℕ) : (s.next (.initResolved k)).Inv id := by
  obtain ⟨hcount, hids, hstore, hregistrations, hremovals⟩ := resolved_frame s.manager k
  have hkept : (s.manager.initResolved k).Kept := h.kept.next (.initResolved k)
  have hpending : ∀ j reg, Pending (s.manager.initResolved k) id j reg ↔
      k ≠ j ∧ Pending s.manager id j reg := by
    intro j reg
    unfold Pending
    rw [hregistrations, hids]
    split_ifs with hj <;> simp [hj]
  by_cases hwaits : ∃ reg, Pending s.manager id k reg
  · obtain ⟨reg, hreg⟩ := hwaits
    have hnext : s.next (.initResolved k) = ⟨s.manager.initResolved k, k :: s.succeeded⟩ := by
      unfold Registrations.next
      dsimp only
      rw [hreg.1]
      rfl
    rw [hnext]
    obtain ⟨waiting, last, hline, hdescending, hbottom, hsucceeded, habove, hovertaken⟩ := h.standing
    have hsettled : ∀ j ∈ k :: s.succeeded, j < (s.manager.initResolved k).controllerCount ∧
        (s.manager.initResolved k).registrations.get? j = none := by
      intro j hj
      rw [hcount, hregistrations]
      rcases List.mem_cons.mp hj with rfl | hj
      · exact ⟨(h.kept.pending _ _ hreg.1).1, if_pos rfl⟩
      · rw [(h.settled j hj).2, ite_self]
        exact ⟨(h.settled j hj).1, rfl⟩
    refine ⟨hkept, hsettled, fun removal hmem => h.removals removal (hremovals ▸ hmem), ?_⟩
    by_cases hmem : k ∈ waiting
    · -- the line ends there now
      obtain ⟨before, after, rfl⟩ := List.append_of_mem hmem
      obtain ⟨hbefore, hrest, hlt⟩ := List.pairwise_append.mp hdescending
      have hnot : k ∉ before := fun hk => Nat.lt_irrefl _ (hlt k hk k (List.mem_cons_self ..))
      refine ⟨before, some k, ?_, hbefore, fun l hl => ?_, fun j hj hid => ⟨k, rfl, ?_⟩,
        fun j hj l hl => ?_, fun j reg hj hout => ⟨k, rfl, ?_⟩⟩
      · show Line (s.manager.initResolved k) id
          ((s.manager.initResolved k).sthConnectionStore.get? id) before (some k)
        rw [hstore]
        refine hline.split.congr fun j hj reg hreg => (hpending j reg).mpr ⟨?_, hreg⟩
        rintro rfl
        exact hnot hj
      · cases hl
        exact ⟨List.mem_cons_self .., (hids k).trans hreg.2⟩
      · rcases List.mem_cons.mp hj with rfl | hj
        · exact Nat.le_refl _
        · obtain ⟨l, hl, hle⟩ := hsucceeded j hj ((hids j).symm.trans hid)
          exact hle.trans (habove k hmem l hl).le
      · cases hl
        exact hlt j hj k (List.mem_cons_self ..)
      · obtain ⟨hne, hj⟩ := (hpending j reg).mp hj
        by_cases hin : j ∈ before ++ k :: after
        · rcases List.mem_append.mp hin with hin | hin
          · exact absurd hin hout
          · rcases List.mem_cons.mp hin with rfl | hin
            · exact absurd rfl hne
            · exact (List.pairwise_cons.mp hrest).1 j hin
        · obtain ⟨l, hl, hlt⟩ := hovertaken j reg hj hin
          exact hlt.trans (habove k hmem l hl)
    · -- it has been overtaken
      obtain ⟨l, hl, hkl⟩ := hovertaken k reg hreg hmem
      refine ⟨waiting, last, ?_, hdescending, fun j hj => ?_, fun j hj hid => ?_, habove,
        fun j reg hj hout => ?_⟩
      · show Line (s.manager.initResolved k) id
          ((s.manager.initResolved k).sthConnectionStore.get? id) waiting last
        rw [hstore]
        refine hline.congr fun j hj reg hreg => (hpending j reg).mpr ⟨?_, hreg⟩
        rintro rfl
        exact hmem hj
      · obtain ⟨hj, hid⟩ := hbottom j hj
        exact ⟨List.mem_cons_of_mem _ hj, (hids j).trans hid⟩
      · rcases List.mem_cons.mp hj with rfl | hj
        · exact ⟨l, hl, hkl.le⟩
        · exact hsucceeded j hj ((hids j).symm.trans hid)
      · exact hovertaken j reg ((hpending j reg).mp hj).2 hout
  · -- a registration of another hub, or none
    have hfree : ∀ j reg, Pending s.manager id j reg → k ≠ j := by
      rintro j reg hj rfl
      exact hwaits ⟨reg, hj⟩
    have hu : Untouched s.manager (s.manager.initResolved k) id :=
      { controllerCount := hcount.ge
        ids := fun j _ => hids j
        connection := by rw [hstore]
        pending := fun j reg => (hpending j reg).trans
          ⟨fun hj => hj.2, fun hj => ⟨hfree j reg hj, hj⟩⟩
        registrations := fun j _ hnone => by rw [hregistrations, hnone, ite_self] }
    have hsame : Inv ⟨s.manager.initResolved k, s.succeeded⟩ id :=
      h.untouched hkept hu fun removal hmem => h.removals removal (hremovals ▸ hmem)
    unfold Registrations.next
    dsimp only
    split_ifs with hsome
    · obtain ⟨reg, hreg⟩ := Option.isSome_iff_exists.mp hsome
      refine hsame.foreign ?_ ?_ ?_
      · show k < (s.manager.initResolved k).controllerCount
        rw [hcount]
        exact (h.kept.pending _ _ hreg).1
      · exact (hregistrations k).trans (if_pos rfl)
      · show ((s.manager.initResolved k).controllers k).id ≠ id
        rw [hids]
        exact fun hid => hwaits ⟨reg, hreg, hid⟩
    · exact hsame

theorem failed_frame (hkept : m.Kept) {reg : Registration}
    (hreg : m.registrations.get? k = some reg) :
    (m.initFailed k).controllerCount = m.controllerCount ∧
      (∀ j, ((m.initFailed k).controllers j).id = (m.controllers j).id) ∧
      (∀ id, (m.initFailed k).sthConnectionStore.get? id =
        if (m.controllers k).id = id then reg.map Prod.fst else m.sthConnectionStore.get? id) ∧
      (∀ j, (m.initFailed k).registrations.get? j = if k = j then none else m.registrations.get? j) ∧
      (m.initFailed k).removals = m.removals ∧
      ∀ j, k ≠ j → (m.initFailed k).controllers j = m.controllers j := by
  have hother : ∀ j, k ≠ j → (m.withdrawn k).controllers j = m.controllers j := fun j hne =>
    if_neg hne.symm
  cases reg with
  | none =>
    rw [initFailed_none hreg]
    refine ⟨rfl, m.id_withdrawn k, fun id => ?_, fun j => get?_delete _ _ _, rfl, hother⟩
    rw [connection_withdrawn, get?_delete]
    rfl
  | some replaced =>
    obtain ⟨-, hpending⟩ := hkept.pending k _ hreg
    obtain ⟨-, hid, -⟩ := hpending replaced.1 replaced.2 rfl
    rw [initFailed_some hreg hid]
    refine ⟨rfl, m.id_withdrawn k, fun id => ?_, fun j => get?_delete _ _ _, rfl, hother⟩
    rw [connection_restored, connection_withdrawn, get?_set]
    split_ifs with hkey
    · rfl
    · exact get?_delete_of_ne _ hkey

theorem Inv.initFailed (h : s.Inv id) (k : ℕ) (hok : TakesBackOwn id s (.initFailed k)) :
    (s.next (.initFailed k)).Inv id := by
  have hkept : (s.manager.initFailed k).Kept := h.kept.next (.initFailed k)
  show Inv ⟨s.manager.initFailed k, s.succeeded⟩ id
  cases hreg : s.manager.registrations.get? k with
  | none =>
    have hsame : s.manager.initFailed k = s.manager := by simp only [ManagerState.initFailed, hreg]
    rw [hsame]
    exact h
  | some reg =>
    obtain ⟨hcount, hids, hstore, hregistrations, hremovals, -⟩ := failed_frame h.kept hreg
    have hpending : ∀ j reg, Pending (s.manager.initFailed k) id j reg ↔
        k ≠ j ∧ Pending s.manager id j reg := by
      intro j reg
      unfold Pending
      rw [hregistrations, hids]
      split_ifs with hj <;> simp [hj]
    by_cases hid : (s.manager.controllers k).id = id
    · -- the controller is the connection
      have htop := hok reg ⟨hreg, hid⟩
      obtain ⟨waiting, last, hline, hdescending, hbottom, hsucceeded, habove, hovertaken⟩ :=
        h.standing
      have hline' : ∃ rest, waiting = k :: rest ∧
          Line s.manager id (reg.map Prod.fst) rest last := by
        rw [htop] at hline
        cases waiting with
        | nil =>
          have hk := h.settled k (hbottom k hline.symm).1
          rw [hreg] at hk
          cases hk.2
        | cons j rest =>
          obtain ⟨heq, reg', hreg', hrest⟩ := hline
          cases heq
          cases hreg.symm.trans hreg'.1
          exact ⟨rest, rfl, hrest⟩
      obtain ⟨rest, rfl, hrest⟩ := hline'
      obtain ⟨hbelow, hdescending'⟩ := List.pairwise_cons.mp hdescending
      refine ⟨hkept, fun j hj => ?_, fun removal hmem => h.removals removal (hremovals ▸ hmem),
        rest, last, ?_, hdescending', fun j hj => ?_, fun j hj hid' => ?_, fun j hj l hl => ?_,
        fun j reg hj hout => ?_⟩
      · rw [hcount, hregistrations, (h.settled j hj).2, ite_self]
        exact ⟨(h.settled j hj).1, rfl⟩
      · show Line (s.manager.initFailed k) id ((s.manager.initFailed k).sthConnectionStore.get? id)
          rest last
        rw [hstore, if_pos hid]
        refine hrest.congr fun j hj reg hreg => (hpending j reg).mpr ⟨?_, hreg⟩
        rintro rfl
        exact Nat.lt_irrefl _ (hbelow k hj)
      · exact ⟨(hbottom j hj).1, (hids j).trans (hbottom j hj).2⟩
      · exact hsucceeded j hj ((hids j).symm.trans hid')
      · exact habove j (List.mem_cons_of_mem _ hj) l hl
      · obtain ⟨hne, hj⟩ := (hpending j reg).mp hj
        refine hovertaken j reg hj fun hin => ?_
        rcases List.mem_cons.mp hin with rfl | hin
        · exact hne rfl
        · exact hout hin
    · -- a registration of another hub
      have hu : Untouched s.manager (s.manager.initFailed k) id :=
        { controllerCount := hcount.ge
          ids := fun j _ => hids j
          connection := by rw [hstore, if_neg hid]
          pending := fun j reg => (hpending j reg).trans ⟨fun hj => hj.2, fun hj =>
            ⟨fun heq => hid (heq ▸ hj.2), hj⟩⟩
          registrations := fun j _ hnone => by rw [hregistrations, hnone, ite_self] }
      exact h.untouched hkept hu fun removal hmem => h.removals removal (hremovals ▸ hmem)

/-! ## Runs -/

theorem untouched_delete (m : ManagerState) {hub : HostId} (hne : hub ≠ id)
    (isConnectionActive force : Bool) :
    Untouched m (m.deleteConnection hub isConnectionActive force) id ∧
      ∀ removal ∈ (m.deleteConnection hub isConnectionActive force).removals,
        removal ∈ m.removals ∨ removal.id = hub := by
  unfold deleteConnection
  split
  · exact ⟨(SameLinks.refl m).untouched id, fun _ hmem => .inl hmem⟩
  · rename_i k hget
    split_ifs
    · exact ⟨(SameLinks.refl m).untouched id, fun _ hmem => .inl hmem⟩
    · have hsame := SameLinks.disconnect m k .id_drop
      have hu := hsame.untouched id
      refine ⟨{ hu with }, fun removal hmem => ?_⟩
      rcases List.mem_append.mp hmem with hmem | hmem
      · exact .inl (hsame.removals ▸ hmem)
      · exact .inr (by rw [List.mem_singleton.mp hmem])
    · exact ⟨(SameLinks.refl m).untouched id, fun _ hmem => .inl hmem⟩
    · refine ⟨⟨Nat.le_refl _, fun _ _ => rfl, get?_delete_of_ne _ hne, fun _ _ => Iff.rfl,
        fun _ _ hnone => hnone⟩, fun _ hmem => .inl hmem⟩

theorem untouched_removalDue (hremovals : ∀ removal ∈ m.removals, removal.id ≠ id) (i : ℕ) :
    Untouched m (m.removalDue i) id ∧
      ∀ removal ∈ (m.removalDue i).removals, removal ∈ m.removals := by
  unfold removalDue
  split
  · exact ⟨(SameLinks.refl m).untouched id, fun _ hmem => hmem⟩
  · rename_i removal hget
    have hne := hremovals removal (List.mem_of_getElem? hget)
    exact ⟨⟨Nat.le_refl _, fun _ _ => rfl, get?_delete_of_ne _ hne, fun _ _ => Iff.rfl,
      fun _ _ hnone => hnone⟩, fun _ hmem => List.mem_of_mem_eraseIdx hmem⟩

theorem Inv.next (h : s.Inv id) {a : Action} (hok : TakesBackOwn id s a) : (s.next a).Inv id := by
  have hkept := h.kept.next a
  have hsame : ∀ {m' : ManagerState}, m'.Kept → SameLinks s.manager m' → Inv ⟨m', s.succeeded⟩ id :=
    fun hkept hsame => h.untouched hkept (hsame.untouched id) fun removal hmem =>
      h.removals removal (hsame.removals ▸ hmem)
  cases a with
  | register hub domain self =>
    by_cases hhub : hub = id
    · subst hhub
      exact h.register domain self
    · refine h.untouched hkept (untouched_register h.kept hhub domain self) fun removal hmem => ?_
      have hreg := s.manager.registers_handleSthRegistration hub domain self
      exact h.removals removal (hreg.removals ▸ hmem)
  | initResolved k => exact h.initResolved k
  | initFailed k => exact h.initFailed k hok
  | emit k emission =>
    refine hsame hkept ?_
    simp only [ManagerState.next]
    split_ifs
    · exact .handleEmission _ _ _
    · exact .refl _
  | loadTimeout k =>
    exact hsame hkept (.updateController _ k (f := fun sth => { sth with healthy := false }) fun _ => rfl)
  | disconnect hub reason =>
    refine hsame hkept ?_
    simp only [ManagerState.next]
    split
    · exact .refl _
    · exact .disconnect _ _ _
  | delete hub isConnectionActive force =>
    obtain ⟨hu, hremovals⟩ := untouched_delete s.manager hok isConnectionActive force
    refine h.untouched hkept hu fun removal hmem => ?_
    rcases hremovals removal hmem with hmem | hhub
    · exact h.removals removal hmem
    · rw [hhub]
      exact hok
  | removalDue i =>
    obtain ⟨hu, hremovals⟩ := untouched_removalDue h.removals i
    exact h.untouched hkept hu fun removal hmem => h.removals removal (hremovals removal hmem)
  | routeLost domain => exact hsame hkept (.routeLost _ _)
  | topics action => exact hsame hkept ⟨rfl, fun _ => rfl, rfl, rfl, rfl⟩

theorem inv_start (id : HostId) : start.Inv id where
  kept := kept_start
  settled := fun _ hk => nomatch hk
  removals := fun _ hmem => nomatch hmem
  standing := ⟨[], none, rfl, .nil, fun _ hk => (nomatch hk), fun _ hk => (nomatch hk),
    fun _ hk => (nomatch hk), fun _ _ hpending => nomatch hpending.1⟩

def system : System Registrations Action := .ofFun start next

/-- A registration that fails takes nothing from a controller that has succeeded; and when no
registration of the hub waits, the last one that has succeeded is connected. -/
theorem lastSucceeded_connected (h : system.Reachable (TakesBackOwn id) s) :
    (∀ k, TakesBackOwn id s (.initFailed k) → ∀ j ∈ s.succeeded,
      (s.manager.controllers j).id = id →
        (s.next (.initFailed k)).manager.controllers j = s.manager.controllers j ∧
        (s.manager.sthConnectionStore.get? id = some j →
          (s.next (.initFailed k)).manager.sthConnectionStore.get? id = some j)) ∧
    ((∀ k reg, ¬ Pending s.manager id k reg) →
      ∀ j ∈ s.succeeded, (s.manager.controllers j).id = id →
        (∀ i ∈ s.succeeded, (s.manager.controllers i).id = id → i ≤ j) →
          s.manager.sthConnectionStore.get? id = some j) := by
  have hinv : s.Inv id :=
    h.invariant_ofFun (I := fun s => s.Inv id) (inv_start id) fun s a hs hok => hs.next hok
  constructor
  · intro k hok j hj hid
    show (s.manager.initFailed k).controllers j = _ ∧
      (_ → (s.manager.initFailed k).sthConnectionStore.get? id = some j)
    cases hreg : s.manager.registrations.get? k with
    | none =>
      have hsame : s.manager.initFailed k = s.manager := by simp only [ManagerState.initFailed, hreg]
      rw [hsame]
      exact ⟨rfl, fun hget => hget⟩
    | some reg =>
      obtain ⟨-, -, hstore, -, -, hcontrollers⟩ := failed_frame hinv.kept hreg
      have hne : k ≠ j := by
        rintro rfl
        rw [(hinv.settled k hj).2] at hreg
        cases hreg
      refine ⟨hcontrollers j hne, fun hget => ?_⟩
      rw [hstore, if_neg, hget]
      intro hk
      have htop := hok reg ⟨hreg, hk⟩
      rw [hget] at htop
      exact hne (Option.some_inj.mp htop).symm
  · intro hnone j hj hid hmax
    obtain ⟨waiting, last, hline, -, hbottom, hsucceeded, -, -⟩ := hinv.standing
    cases waiting with
    | nil =>
      obtain ⟨l, hl, hle⟩ := hsucceeded j hj hid
      obtain ⟨hmem, hid'⟩ := hbottom l hl
      have heq : j = l := Nat.le_antisymm hle (hmax l hmem hid')
      rw [heq, ← hl]
      exact hline
    | cons k ks =>
      obtain ⟨-, reg, hreg, -⟩ := hline
      exact absurd hreg (hnone k reg)

/-- What a run can check of the condition. -/
def takesBackOwn (id : HostId) (s : Registrations) : Action → Bool
  | .initFailed k => s.manager.sthConnectionStore.get? id = some k
  | .delete hub _ _ => hub ≠ id
  | _ => true

theorem takesBackOwn_sound {a : Action} (h : takesBackOwn id s a = true) : TakesBackOwn id s a := by
  cases a with
  | initFailed k => exact fun _ _ => of_decide_eq_true h
  | delete hub isConnectionActive force =>
    simp only [takesBackOwn, ne_eq, decide_not, Bool.not_eq_eq_eq_not, Bool.not_true,
      decide_eq_false_iff_not] at h
    exact h
  | _ => trivial

/-- The second of two registrations fails, then the first succeeds. -/
def laterFails : List Action :=
  [.register "hub" "route" true, .register "hub" "route" true, .initFailed 1, .initResolved 0]

theorem laterFails_connected :
    (laterFails.foldl next start).manager.sthConnectionStore.get? "hub" = some 0 := by
  have hchecks : System.checks next (takesBackOwn "hub") start laterFails = true := by decide +kernel
  have hrun : system.Reachable (TakesBackOwn "hub") (laterFails.foldl next start) :=
    .of_checks (fun _ _ => takesBackOwn_sound) (.init rfl) hchecks
  have hnone : (laterFails.foldl next start).manager.registrations.keys = [] := by decide +kernel
  refine (lastSucceeded_connected hrun).2 (fun k reg hreg => ?_) 0 (by decide +kernel)
    (by decide +kernel) fun i hi _ => ?_
  · have hmem := mem_keys_iff.mpr (Option.isSome_of_eq_some hreg.1)
    rw [hnone] at hmem
    cases hmem
  · have hsucceeded : (laterFails.foldl next start).succeeded = [0] := by decide +kernel
    rw [hsucceeded] at hi
    exact (List.mem_singleton.mp hi).le

/-- The first of two registrations fails after the second has succeeded. -/
def earlierFails : List Action :=
  [.register "hub" "route" true, .register "hub" "route" true, .initResolved 1, .initFailed 0]

/-- The controller that has succeeded is not connected any more. -/
theorem earlierFails_disconnects :
    ¬ ∀ (as : List Action) (id : HostId),
      (∀ k reg, ¬ Pending (as.foldl next start).manager id k reg) →
        ∀ j ∈ (as.foldl next start).succeeded,
          ((as.foldl next start).manager.controllers j).id = id →
          (∀ i ∈ (as.foldl next start).succeeded,
            ((as.foldl next start).manager.controllers i).id = id → i ≤ j) →
          (as.foldl next start).manager.sthConnectionStore.get? id = some j := by
  intro hall
  have hnone : (earlierFails.foldl next start).manager.registrations.keys = [] := by decide +kernel
  have hconnected := hall earlierFails "hub" (fun k reg hreg => by
    have hmem := mem_keys_iff.mpr (Option.isSome_of_eq_some hreg.1)
    rw [hnone] at hmem
    cases hmem) 1 (by decide +kernel) (by decide +kernel) (by decide +kernel)
  exact absurd hconnected (by decide +kernel)

end Registrations

end TransformHub.Manager.SthRegistration
