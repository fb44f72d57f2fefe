import TransformHub.Lib.LastWrite
import TransformHub.Host.LocalStorage

/-!
# Convergence of local storage

Every update writes a value into a key, or leaves the key alone, and so does every message to a
runner.
-/

namespace TransformHub.Host.LocalStorage

open OrderedMap

/-! ## Writes of a key -/

namespace Update

/-- The key of `clear` is not used for a value. -/
def Regular (u : Update) : Prop := u.key = CLEAR → u.value = none

instance (u : Update) : Decidable u.Regular := inferInstanceAs (Decidable (_ → _))

def write (u : Update) (key : String) : Option (Option String) :=
  if u.key = CLEAR then some none else if u.key = key then some u.value else none

/-- The order of two updates does not matter for a key. -/
def CommutesAt (u u' : Update) (key : String) : Prop :=
  u.write key = none ∨ u'.write key = none ∨ u.write key = u'.write key

instance (u u' : Update) (key : String) : Decidable (u.CommutesAt u' key) :=
  inferInstanceAs (Decidable (_ ∨ _))

/-- The order of two updates does not matter: they write into different keys, or the same. -/
def Commutes (u u' : Update) : Prop := ∀ key, u.CommutesAt u' key

theorem commutes_iff {u u' : Update} :
    u.Commutes u' ↔ u.CommutesAt u' u.key ∧ u.CommutesAt u' u'.key := by
  refine ⟨fun h => ⟨h _, h _⟩, fun ⟨h, h'⟩ key => ?_⟩
  by_cases hkey : key = u.key ∨ key = u'.key
  · rcases hkey with rfl | rfl
    · exact h
    · exact h'
  · rw [not_or] at hkey
    unfold CommutesAt write
    grind

instance (u u' : Update) : Decidable (u.Commutes u') := decidable_of_iff _ commutes_iff.symm

/-- A storage that was read before the update gives back no other value when it comes after it. -/
def SparedBy (u : Update) (values : OrderedMap String String) : Prop :=
  ∀ e ∈ values.entries, u.write e.1 = none ∨ u.write e.1 = some (some e.2)

instance (u : Update) (values : OrderedMap String String) : Decidable (u.SparedBy values) :=
  inferInstanceAs (Decidable (∀ e ∈ _, _))

theorem get?_persist {u : Update} (hu : u.Regular) (items : OrderedMap String String)
    (key : String) : (u.persist items).get? key = (u.write key).getD (items.get? key) := by
  unfold persist write
  by_cases hclear : u.key = CLEAR
  · simp [hclear, hu hclear]
  · rw [if_neg (fun h => hclear h.1), if_neg hclear]
    cases u.value with
    | none =>
      rw [get?_delete]
      split_ifs <;> rfl
    | some value =>
      rw [get?_set]
      split_ifs <;> rfl

theorem get?_handleBroadcastUpdate (localCache : OrderedMap String (Option String)) (u : Update)
    (key : String) :
    ((handleBroadcastUpdate localCache u).get? key).join =
      (u.write key).getD (localCache.get? key).join := by
  unfold handleBroadcastUpdate write
  by_cases hclear : u.key = CLEAR
  · simp [hclear]
  · rw [if_neg hclear, if_neg hclear, get?_set]
    split_ifs <;> rfl

end Update

/-- What a message writes into a key. -/
def ControlMessage.write : ControlMessage → String → Option (Option String)
  | .storage values, key => (values.get? key).map some
  | .storageUpdate u, key => u.write key

theorem get?_onStorageMessage (localCache : OrderedMap String (Option String))
    (values : OrderedMap String String) (key : String) :
    ((onStorageMessage localCache values).get? key).join =
      ((values.get? key).map some).getD (localCache.get? key).join := by
  rw [onStorageMessage, get?_foldl_set (values.mapValues some).nodup,
    get?_ofEntries_entries, get?_mapValues]
  cases values.get? key <;> rfl

namespace Instance

/-- What the runner will have for a key when its messages are delivered. -/
def outlook (inst : Instance) (key : String) : Option String :=
  (lastWrite (inst.control.map fun message => message.write key)).getD (inst.getItem key)

theorem outlook_push (inst : Instance) (message : ControlMessage) (key : String) :
    (inst.push message).outlook key = (message.write key).getD (inst.outlook key) := by
  rw [outlook, outlook, push, List.map_append, lastWrite_append, List.map_singleton,
    lastWrite_singleton, Option.getD_or]
  rfl

@[simp] theorem outlook_deliver (inst : Instance) (key : String) :
    inst.deliver.outlook key = inst.outlook key := by
  obtain ⟨storage, control, localCache⟩ := inst
  cases control with
  | nil => rfl
  | cons message rest =>
    have hitem : (deliver ⟨storage, message :: rest, localCache⟩).getItem key =
        (message.write key).getD (localCache.get? key).join := by
      cases message with
      | storage values => exact get?_onStorageMessage localCache values key
      | storageUpdate u => exact u.get?_handleBroadcastUpdate localCache key
    have hcontrol : (deliver ⟨storage, message :: rest, localCache⟩).control = rest := by
      cases message <;> rfl
    rw [outlook, outlook, hitem, hcontrol, List.map_cons, lastWrite_cons, Option.getD_or]
    rfl

@[simp] theorem storage_deliver (inst : Instance) : inst.deliver.storage = inst.storage := by
  obtain ⟨storage, _ | ⟨_ | _, rest⟩, localCache⟩ := inst <;> rfl

/-- A storage that the instance read before the `n`-th operation holds nothing that the update of
the operation replaces. -/
def NotBehind (inst : Instance) (n : ℕ) (u : Update) : Prop :=
  match inst.storage with
  | .read effects values => effects ≤ n → u.SparedBy values
  | _ => True

instance (inst : Instance) (n : ℕ) (u : Update) : Decidable (inst.NotBehind n u) := by
  unfold NotBehind
  split <;> infer_instance

end Instance

namespace SharedStorage

/-! ## The invariant -/

section Invariant

variable (s : SharedStorage) (key : String)

/-- What the updates still to be broadcast write into a key. -/
def appliedWrite : Option (Option String) := lastWrite (s.applied.map fun e => e.2.write key)

/-- What those among the first operations write into it. -/
def appliedWriteBefore (effects : ℕ) : Option (Option String) :=
  lastWrite ((s.applied.filter fun e => e.1 < effects).map fun e => e.2.write key)

/-- A runner is going to have for a key what the storage holds. -/
def Agrees (inst : Instance) : Prop :=
  match inst.storage with
  | .reading =>
    -- values set before the instance started are yet to be read
    (s.appliedWrite key).getD (inst.outlook key) = none ∨
      (s.appliedWrite key).getD (inst.outlook key) = s.persisted.get? key
  | .read effects values =>
    effects ≤ s.effects ∧
    (∀ value, s.appliedWriteBefore key effects = some value → values.get? key = value) ∧
    (s.appliedWrite key).getD (((values.get? key).map some).getD (inst.outlook key)) =
      s.persisted.get? key
  | .sent => (s.appliedWrite key).getD (inst.outlook key) = s.persisted.get? key

end Invariant

structure Inv (s : SharedStorage) : Prop where
  monitoring : ∀ id us, s.monitoring.get? id = some us → ∀ u ∈ us, u.Regular
  called : ∀ u ∈ s.called, u.Regular
  numbered : ∀ e ∈ s.applied, e.1 < s.effects
  persisted : ∀ key value, s.appliedWrite key = some value → s.persisted.get? key = value
  agrees : ∀ id inst, s.instanceStore.get? id = some inst → ∀ key, s.Agrees key inst

variable {s : SharedStorage}

theorem Inv.init (items : OrderedMap String String) : (start items).Inv where
  monitoring := by simp [start]
  called := by simp [start]
  numbered := by simp [start]
  persisted := by simp [start, appliedWrite]
  agrees := by simp [start]

theorem Inv.updateInstance (h : s.Inv) {id : String} {f : Instance → Instance}
    (hf : ∀ inst key, s.Agrees key inst → s.Agrees key (f inst)) :
    (s.updateInstance id f).Inv := by
  unfold SharedStorage.updateInstance
  split
  case h_1 => exact h
  case h_2 inst hinst =>
    refine { h with agrees := fun id' inst' hinst' key => ?_ }
    rw [get?_set] at hinst'
    split_ifs at hinst' with hid
    · cases hinst'
      exact hf inst key (h.agrees id inst hinst key)
    · exact h.agrees id' inst' hinst' key

theorem Inv.startInstance (h : s.Inv) (id : String) : (s.startInstance id).Inv := by
  unfold SharedStorage.startInstance
  split_ifs with hhas
  · exact h
  · refine { h with agrees := fun id' inst hinst key => ?_ }
    rw [get?_set] at hinst
    split_ifs at hinst with hid
    · cases hinst
      -- the cache is empty
      show (s.appliedWrite key).getD none = none ∨
        (s.appliedWrite key).getD none = s.persisted.get? key
      cases happlied : s.appliedWrite key with
      | none => exact .inl rfl
      | some value => exact .inr (h.persisted key value happlied).symm
    · exact h.agrees id' inst hinst key

theorem Inv.ended (h : s.Inv) (id : String) :
    ({ s with instanceStore := s.instanceStore.delete id } : SharedStorage).Inv := by
  refine { h with agrees := fun id' inst hinst key => ?_ }
  rw [get?_delete] at hinst
  split_ifs at hinst with hid
  exact h.agrees id' inst hinst key

theorem Inv.send (h : s.Inv) (id : String) {u : Update} (hu : u.Regular) : (s.send id u).Inv := by
  unfold SharedStorage.send
  split_ifs with hhas
  · refine { h with monitoring := fun id' us hus u' hu' => ?_ }
    rw [get?_set] at hus
    split_ifs at hus with hid
    · cases hus
      rcases List.mem_append.mp hu' with hu' | hu'
      · cases hget : s.monitoring.get? id with
        | none => simp [hget] at hu'
        | some us => exact h.monitoring id us hget u' (by simpa [hget] using hu')
      · cases List.mem_singleton.mp hu'
        exact hu
    · exact h.monitoring id' us hus u' hu'
  · exact h

theorem Inv.handle (h : s.Inv) (id : String) : (s.handle id).Inv := by
  unfold SharedStorage.handle
  split
  case h_1 u rest hget =>
    have hregular := List.forall_mem_cons.mp (h.monitoring id _ hget)
    refine { h with monitoring := fun id' us hus => ?_, called := fun u' hu' => ?_ }
    · rw [get?_set] at hus
      split_ifs at hus with hid
      · cases hus
        exact hregular.2
      · exact h.monitoring id' us hus
    · rcases List.mem_append.mp hu' with hu' | hu'
      · exact h.called u' hu'
      · cases List.mem_singleton.mp hu'
        exact hregular.1
  case h_2 => exact h

theorem Inv.fails (h : s.Inv) (i : ℕ) : (s.fails i).Inv :=
  { h with called := fun u hu => h.called u (List.mem_of_mem_eraseIdx hu) }

/-! ### Operations -/

variable (s) in
theorem appliedWrite_append (u : Update) (key : String) :
    lastWrite ((s.applied ++ [(s.effects, u)]).map fun e => e.2.write key) =
      (u.write key).or (s.appliedWrite key) := by
  rw [List.map_append, lastWrite_append, List.map_singleton, lastWrite_singleton, appliedWrite]

theorem Agrees.takesEffect {u : Update} (hu : u.Regular) {called : List Update}
    {inst : Instance} {key : String} (hinst : s.Agrees key inst) :
    SharedStorage.Agrees
      { s with
        called := called
        persisted := u.persist s.persisted
        effects := s.effects + 1
        applied := s.applied ++ [(s.effects, u)] } key inst := by
  unfold Agrees at hinst ⊢
  cases hstorage : inst.storage with
  | reading =>
    simp only [hstorage] at hinst ⊢
    rw [appliedWrite, s.appliedWrite_append, Option.getD_or, u.get?_persist hu]
    cases u.write key with
    | none => exact hinst
    | some value => exact .inr rfl
  | read effects values =>
    simp only [hstorage] at hinst ⊢
    obtain ⟨hle, hbefore, hagree⟩ := hinst
    refine ⟨by omega, ?_, ?_⟩
    · -- the new operation is not among those that were read
      have hfilter : (s.applied ++ [(s.effects, u)]).filter (fun e => e.1 < effects) =
          s.applied.filter fun e => e.1 < effects := by
        have hnot : decide (s.effects < effects) = false := decide_eq_false (by omega)
        rw [List.filter_append, List.filter_singleton, hnot, cond_false, List.append_nil]
      rw [appliedWriteBefore, hfilter]
      exact hbefore
    · rw [appliedWrite, s.appliedWrite_append, Option.getD_or, u.get?_persist hu, hagree]
  | sent =>
    simp only [hstorage] at hinst ⊢
    rw [appliedWrite, s.appliedWrite_append, Option.getD_or, u.get?_persist hu, hinst]

theorem Inv.takesEffect (h : s.Inv) (i : ℕ) : (s.takesEffect i).Inv := by
  unfold SharedStorage.takesEffect
  split
  case h_1 => exact h
  case h_2 u hi =>
    have hu := h.called u (List.mem_of_getElem? hi)
    refine
      { monitoring := h.monitoring
        called := fun u' hu' => h.called u' (List.mem_of_mem_eraseIdx hu')
        numbered := fun e he => ?_
        persisted := fun key value hvalue => ?_
        agrees := fun id inst hinst key => (h.agrees id inst hinst key).takesEffect hu }
    · rcases List.mem_append.mp he with he | he
      · exact Nat.lt_succ_of_lt (h.numbered e he)
      · cases List.mem_singleton.mp he
        exact Nat.lt_succ_self _
    · rw [appliedWrite, s.appliedWrite_append] at hvalue
      rw [u.get?_persist hu]
      cases hwrite : u.write key with
      | some value' =>
        rw [hwrite, Option.some_or, Option.some_inj] at hvalue
        exact hvalue
      | none =>
        rw [hwrite, Option.none_or] at hvalue
        exact h.persisted key value hvalue

/-! ### Broadcasts -/

variable {before after : List (ℕ × Update)}

theorem appliedWrite_broadcast {n : ℕ} {u : Update} (hu : ∀ e ∈ before, u.Commutes e.2)
    (key : String) :
    lastWrite ((before ++ (n, u) :: after).map fun e => e.2.write key) =
      (lastWrite ((before ++ after).map fun e => e.2.write key)).or (u.write key) := by
  rw [List.map_append, List.map_append, List.map_cons]
  apply lastWrite_move
  by_cases hwrite : u.write key = none
  · exact .inl hwrite
  · refine .inr fun w hw => ?_
    obtain ⟨e, he, rfl⟩ := List.mem_map.mp hw
    rcases hu e he key with hnone | hnone | heq
    · exact absurd hnone hwrite
    · exact .inl hnone
    · exact .inr heq.symm

theorem appliedWriteBefore_broadcast {n : ℕ} {u : Update} (hu : ∀ e ∈ before, u.Commutes e.2)
    (key : String) (effects : ℕ) :
    lastWrite (((before ++ (n, u) :: after).filter fun e => e.1 < effects).map
        fun e => e.2.write key) =
      (lastWrite (((before ++ after).filter fun e => e.1 < effects).map fun e => e.2.write key)).or
        (if n < effects then u.write key else none) := by
  rw [List.filter_append, List.filter_append, List.filter_cons]
  split_ifs with hn hn' hn'
  · exact appliedWrite_broadcast (fun e he => hu e (List.mem_of_mem_filter he)) key
  · exact absurd (of_decide_eq_true hn) hn'
  · exact absurd (decide_eq_true hn') hn
  · rw [Option.or_none]

theorem Agrees.storage_after_broadcast {n : ℕ} {u : Update} {key : String} {effects : ℕ}
    {values : OrderedMap String String} {x : Option String} (hu : ∀ e ∈ before, u.Commutes e.2)
    (hspared : effects ≤ n → u.SparedBy values)
    (hbefore : ∀ value, lastWrite (((before ++ (n, u) :: after).filter fun e => e.1 < effects).map fun e => e.2.write key) = some value → values.get? key = value)
    (hnone : lastWrite ((before ++ after).map fun e => e.2.write key) = none)
    (hwrite : u.write key = some x) : ((values.get? key).map some).getD x = x := by
  cases hvalue : values.get? key with
  | none => rfl
  | some v =>
    rw [Option.map_some, Option.getD_some]
    by_cases hn : n < effects
    · -- the operation was among those that were read
      have hrest : lastWrite (((before ++ after).filter fun e => e.1 < effects).map
          fun e => e.2.write key) = none := by
        rw [lastWrite_eq_none_iff] at hnone ⊢
        intro w hw
        obtain ⟨e, he, rfl⟩ := List.mem_map.mp hw
        exact hnone _ (List.mem_map_of_mem (List.mem_of_mem_filter he))
      have hbefore' := hbefore x (by
        rw [appliedWriteBefore_broadcast hu, hrest, if_pos hn, hwrite, Option.none_or])
      rw [← hbefore', hvalue]
    · rcases hspared (Nat.le_of_not_lt hn) (key, v) (mem_entries_iff.mpr hvalue) with
        hno | hsame
      · rw [hwrite] at hno
        cases hno
      · rw [hwrite] at hsame
        exact (Option.some_inj.mp hsame).symm

theorem Agrees.broadcast {n : ℕ} {u : Update} (happlied : s.applied = before ++ (n, u) :: after)
    (hu : ∀ e ∈ before, u.Commutes e.2) {inst : Instance} (hbehind : inst.NotBehind n u)
    {key : String} (hinst : s.Agrees key inst) (store : OrderedMap String Instance) :
    SharedStorage.Agrees { s with applied := before ++ after, instanceStore := store } key
      (inst.push (.storageUpdate u)) := by
  have hmove : s.appliedWrite key =
      (lastWrite ((before ++ after).map fun e => e.2.write key)).or (u.write key) := by
    rw [appliedWrite, happlied, appliedWrite_broadcast hu]
  have hpush : (inst.push (.storageUpdate u)).outlook key =
      (u.write key).getD (inst.outlook key) := inst.outlook_push _ key
  have hstorage' : (inst.push (.storageUpdate u)).storage = inst.storage := rfl
  unfold SharedStorage.Agrees at hinst ⊢
  unfold Instance.NotBehind at hbehind
  rw [hstorage']
  cases hstorage : inst.storage with
  | reading | sent =>
    simp only [hstorage] at hinst ⊢
    rw [hmove, Option.getD_or] at hinst
    rw [appliedWrite, hpush]
    exact hinst
  | read effects values =>
    simp only [hstorage] at hinst hbehind ⊢
    obtain ⟨hle, hbefore, hagree⟩ := hinst
    rw [hmove, Option.getD_or] at hagree
    rw [appliedWriteBefore, happlied] at hbefore
    refine ⟨hle, fun value hvalue => hbefore value ?_, ?_⟩
    · rw [appliedWriteBefore] at hvalue
      rw [appliedWriteBefore_broadcast hu, hvalue, Option.some_or]
    · rw [appliedWrite, hpush, ← hagree]
      cases hrest : lastWrite ((before ++ after).map fun e => e.2.write key) with
      | some value => rfl
      | none =>
        cases hwrite : u.write key with
        | none => rfl
        | some x => exact storage_after_broadcast hu hbehind hbefore hrest hwrite

theorem Inv.broadcastUpdate (h : s.Inv) {i : ℕ}
    (hi : ∀ n u, s.applied[i]? = some (n, u) → (∀ e ∈ s.applied.take i, u.Commutes e.2) ∧
      ∀ inst ∈ s.instanceStore.values, inst.NotBehind n u) : (s.broadcastUpdate i).Inv := by
  unfold SharedStorage.broadcastUpdate
  split
  case h_1 => exact h
  case h_2 n u hget =>
    obtain ⟨hu, hbehind⟩ := hi n u hget
    have hsplit : s.applied = s.applied.take i ++ (n, u) :: s.applied.drop (i + 1) := by
      obtain ⟨hlt, hval⟩ := List.getElem?_eq_some_iff.mp hget
      rw [← hval, ← List.drop_eq_getElem_cons hlt, List.take_append_drop]
    rw [List.eraseIdx_eq_take_drop_succ]
    refine
      { monitoring := h.monitoring
        called := h.called
        numbered := fun e he => h.numbered e ?_
        persisted := fun key value hvalue => ?_
        agrees := fun id inst hinst key => ?_ }
    · rw [hsplit]
      exact List.mem_append.mpr ((List.mem_append.mp he).imp_right (List.mem_cons_of_mem _))
    · rw [appliedWrite] at hvalue
      refine h.persisted key value ?_
      rw [appliedWrite, hsplit, appliedWrite_broadcast hu, hvalue, Option.some_or]
    · rw [get?_mapValues, Option.map_eq_some_iff] at hinst
      obtain ⟨inst, hinst, rfl⟩ := hinst
      exact (h.agrees id inst hinst key).broadcast hsplit hu
        (hbehind inst (mem_values_iff.mpr ⟨id, hinst⟩)) _

/-! ### Starting instances -/

theorem Inv.reads (h : s.Inv) (id : String) : (s.reads id).Inv := by
  refine h.updateInstance fun inst key hinst => ?_
  split
  case h_1 hstorage =>
    simp only [SharedStorage.Agrees, hstorage] at hinst ⊢
    refine ⟨Nat.le_refl _, fun value hvalue => h.persisted key value ?_, ?_⟩
    · -- all operations were read
      have hfilter : (s.applied.filter fun e => e.1 < s.effects) = s.applied :=
        List.filter_eq_self.mpr fun e he => decide_eq_true (h.numbered e he)
      rw [appliedWriteBefore, hfilter] at hvalue
      exact hvalue
    · cases happlied : s.appliedWrite key with
      | some value => exact (h.persisted key value happlied).symm
      | none =>
        cases hvalue : s.persisted.get? key with
        | some value => rfl
        | none =>
          rw [happlied, hvalue, or_self] at hinst
          exact hinst
  case h_2 => exact hinst

theorem Inv.sendFullStorageState (h : s.Inv) (id : String) : (s.sendFullStorageState id).Inv := by
  refine h.updateInstance fun inst key hinst => ?_
  split
  case h_1 effects values hstorage =>
    simp only [SharedStorage.Agrees, hstorage] at hinst ⊢
    rw [← hinst.2.2]
    exact congrArg _ (inst.outlook_push _ key)
  case h_2 => exact hinst

theorem Inv.deliver (h : s.Inv) (id : String) : (s.updateInstance id .deliver).Inv := by
  refine h.updateInstance fun inst key hinst => ?_
  unfold SharedStorage.Agrees at hinst ⊢
  simpa only [Instance.storage_deliver, Instance.outlook_deliver] using hinst

/-! ## Runs -/

/-- A step at which nothing overtakes: a broadcast does not come before that of an earlier operation
with which its update does not commute, and no instance has read a value before the operation that
it has not been sent yet and that the update replaces. -/
def Orderly (s : SharedStorage) : Action → Prop
  | .send _ u => u.Regular
  | .broadcast i =>
    match s.applied[i]? with
    | none => True
    | some (n, u) =>
      (∀ e ∈ s.applied.take i, u.Commutes e.2) ∧
        ∀ inst ∈ s.instanceStore.values, inst.NotBehind n u
  | _ => True

instance (s : SharedStorage) (a : Action) : Decidable (s.Orderly a) := by
  unfold Orderly
  split
  · infer_instance
  · split <;> infer_instance
  · infer_instance

theorem Inv.next (h : s.Inv) {a : Action} (ha : s.Orderly a) : (s.next a).Inv := by
  cases a with
  | start id => exact h.startInstance id
  | ended id => exact h.ended id
  | send id u => exact h.send id ha
  | handle id => exact h.handle id
  | takesEffect i => exact h.takesEffect i
  | fails i => exact h.fails i
  | broadcast i =>
    refine h.broadcastUpdate fun n u hget => ?_
    simpa only [Orderly, hget] using ha
  | reads id => exact h.reads id
  | storageSent id => exact h.sendFullStorageState id
  | deliver id => exact h.deliver id

theorem inv_of_reachable {items : OrderedMap String String}
    (h : (system items).Reachable Orderly s) : s.Inv :=
  h.invariant_ofFun (.init items) fun _ _ hs ha => hs.next ha

/-- All updates are processed, and every runner has got all that it is sent. -/
structure Quiet (s : SharedStorage) : Prop where
  monitoring : ∀ us ∈ s.monitoring.values, us = []
  called : s.called = []
  applied : s.applied = []
  sent : ∀ inst ∈ s.instanceStore.values, inst.storage = .sent
  control : ∀ inst ∈ s.instanceStore.values, inst.control = []

end SharedStorage

end TransformHub.Host.LocalStorage
