import TransformHub.Lib.LastWrite
import TransformHub.Manager.SthRegistrationRun

/-!
# The bulk messages of a hub

`SEQUENCES` and `INSTANCES` of `sth-controller.ts` are emitted entry by entry, and each emission
runs the handlers of `manager.ts`, which may throw.
-/

namespace TransformHub.Manager.SthRegistration

open SthInfo

/-- `forEach` with a callback that may throw: what was done before stays. -/
def forEach {σ α : Type*} (f : σ → α → Except String σ) (s : σ) : List α → σ × Option String
  | [] => (s, none)
  | a :: as =>
    match f s a with
    | .ok s' => forEach f s' as
    | .error e => (s, some e)

inductive SequenceMessageCode where
  | SEQUENCE_CREATED
  | SEQUENCE_DELETED
deriving DecidableEq

/-- An entry without a known status is one with `status = none`. -/
structure SequenceMessageData where
  id : SequenceId
  status : Option SequenceMessageCode
  config : Option SequenceConfig
deriving DecidableEq

def InstanceStatus.GONE : String := "gone"

structure InstanceData where
  id : InstanceId
  status : Option String
  sequence : Option InstanceSequence
  hubId : Option String
  location : Option String
  sequenceId : Option String

inductive InstanceMessageData where
  /-- a value in which nothing can be looked up with `in`, as a message shows it -/
  | primitive (shown : String)
  /-- `{ instance }`, where the instance may be falsy -/
  | wrapped (inst : Option InstanceData)
  | raw (inst : InstanceData)

/-- The payload of a bulk message, whose list may be absent. -/
inductive BulkMessage where
  | sequences (sequences : Option (List (Option SequenceMessageData)))
  | instances (instances : Option (List InstanceMessageData))

/-! ## The handlers -/

def normalizeInstanceEventPayload : InstanceMessageData → Except String (Option InstanceData)
  | .primitive shown => .error ("Cannot use 'in' operator to search for 'instance' in " ++ shown)
  | .wrapped inst => .ok inst
  | .raw inst => .ok (some inst)

/-- The handler of `sequence`; an entry may be `null`. -/
def onSequence (hostId : HostId) (r : STHInfoRegister) :
    Option SequenceMessageData → Except String STHInfoRegister
  | none => .error "Cannot read properties of null (reading 'status')"
  | some sequence =>
    match sequence.status with
    | some .SEQUENCE_CREATED => .ok (r.addSequence hostId sequence.id sequence.config)
    | some .SEQUENCE_DELETED => .ok (r.deleteSequence hostId sequence.id)
    | none => .ok r

/-- `addInstance` of an instance that may have no sequence. -/
def addInstanceData (hostId : HostId) (r : STHInfoRegister) (inst : InstanceData) :
    Except String STHInfoRegister :=
  match inst.sequence with
  | some sequence =>
    r.addInstance hostId ⟨inst.id, sequence, inst.hubId, inst.location, inst.sequenceId⟩
  | none =>
    if r.hostsMap.has hostId then .error "Cannot read properties of undefined (reading 'id')"
    else .error ("Host with id: " ++ hostId ++ " does not exist.")

/-- The handler of `instance`. -/
def onInstance (hostId : HostId) (r : STHInfoRegister) (message : InstanceMessageData) :
    Except String STHInfoRegister :=
  match normalizeInstanceEventPayload message with
  | .error e => .error e
  | .ok none => .ok r
  | .ok (some inst) =>
    if inst.status = some InstanceStatus.GONE then
      match inst.sequence with
      | some sequence => .ok (r.deleteInstance hostId sequence.id inst.id)
      -- no sequence of the map has the key `undefined`
      | none => .ok r
    else addInstanceData hostId r inst

namespace ManagerState

/-- `hostMessageHandler` for the bulk messages, with what it throws. -/
def hostMessageHandler (m : ManagerState) (k : ℕ) : BulkMessage → ManagerState × Option String
  | .sequences none => (m, some "Cannot read properties of undefined (reading 'forEach')")
  | .sequences (some sequences) =>
    let (sthInfoRegister, thrown) :=
      forEach (onSequence (m.controllers k).id) m.sthInfoRegister sequences
    match thrown with
    | some e => ({ m with sthInfoRegister }, some e)
    | none => ({ m with sthInfoRegister }.handleEmission k .sequences, none)
  | .instances instances =>
    let (sthInfoRegister, thrown) :=
      forEach (onInstance (m.controllers k).id) m.sthInfoRegister (instances.getD [])
    match thrown with
    | some e => ({ m with sthInfoRegister }, some e)
    | none => ({ m with sthInfoRegister }.handleEmission k .instances, none)

def isHubInventoryConsumed (m : ManagerState) (hostId : HostId) : Bool :=
  match m.hubInventoryState.get? hostId with
  | none => false
  | some state => state.sequencesReceived && state.instancesReceived

end ManagerState

/-! ## The loop -/

section ForEach

variable {σ α : Type*} {f : σ → α → Except String σ} {g : σ → α → σ} {I : σ → Prop} {ok : α → Prop}

theorem forEach_spec (hok : ∀ s a, I s → ok a → f s a = .ok (g s a) ∧ I (g s a))
    (hthrows : ∀ s a, I s → ¬ ok a → ∃ e, f s a = .error e) {s : σ} (hs : I s) (as : List α) :
    ((forEach f s as).2 = none ↔ ∀ a ∈ as, ok a) ∧
      ((∀ a ∈ as, ok a) → forEach f s as = (as.foldl g s, none) ∧ I (as.foldl g s)) := by
  induction as generalizing s with
  | nil => simp [forEach, hs]
  | cons a as ih =>
    rw [List.forall_mem_cons]
    by_cases ha : ok a
    · obtain ⟨hf, hi⟩ := hok s a hs ha
      obtain ⟨hiff, hfold⟩ := ih hi
      simp only [forEach, hf, List.foldl_cons]
      exact ⟨hiff.trans (iff_and_self.mpr fun _ => ha), fun h => hfold h.2⟩
    · obtain ⟨e, he⟩ := hthrows s a hs ha
      simp only [forEach, he]
      exact ⟨iff_of_false (Option.some_ne_none _) fun h => ha h.1, fun h => absurd h.1 ha⟩

end ForEach

/-! ## What the entries say -/

/-- What an entry says of a sequence: that it is there, or that it is not. -/
def sequenceWord (s : SequenceId) : Option SequenceMessageData → Option Bool
  | some ⟨id, some .SEQUENCE_CREATED, _⟩ => if id = s then some true else none
  | some ⟨id, some .SEQUENCE_DELETED, _⟩ => if id = s then some false else none
  | _ => none

/-- What an entry says of an instance of a sequence. -/
def instanceWord (s : SequenceId) (i : InstanceId) (message : InstanceMessageData) : Option Bool :=
  match normalizeInstanceEventPayload message with
  | .ok (some ⟨id, status, some sequence, _, _, _⟩) =>
    if sequence.id = s ∧ id = i then some (status ≠ some InstanceStatus.GONE) else none
  | _ => none

/-- The last entry about the sequence creates it. -/
def ListsSequence (S : List (Option SequenceMessageData)) (s : SequenceId) : Prop :=
  lastWrite (S.map (sequenceWord s)) = some true

/-- The sequence is listed, and the last entry about the instance does not say that it is gone. -/
def ListsInstance (S : List (Option SequenceMessageData)) (I : List InstanceMessageData)
    (s : SequenceId) (i : InstanceId) : Prop :=
  ListsSequence S s ∧ lastWrite (I.map (instanceWord s i)) = some true

/-- The manager holds of the hub what two bulk messages list and nothing else, and it has taken note
of both. -/
structure ManagerState.Mirrors (m : ManagerState) (hostId : HostId)
    (S : List (Option SequenceMessageData)) (I : List InstanceMessageData) : Prop where
  entities : ∃ seqs, m.sthInfoRegister.view hostId = some seqs ∧
    (∀ s, (seqs s).isSome ↔ ListsSequence S s) ∧
    ∀ s config is, seqs s = some (config, is) →
      some ⟨s, some .SEQUENCE_CREATED, config⟩ ∈ S ∧ ∀ i, i ∈ is ↔ ListsInstance S I s i
  consumed : m.isHubInventoryConsumed hostId = true

/-! ## Sequences -/

section Sequences

/-- What an entry makes of a sequence. -/
def sequenceCell (s : SequenceId) (cell : Option (Option SequenceConfig × Set InstanceId)) :
    Option SequenceMessageData → Option (Option SequenceConfig × Set InstanceId)
  | some ⟨id, some .SEQUENCE_CREATED, config⟩ =>
    if id = s then some (cell.getD (config, ∅)) else cell
  | some ⟨id, some .SEQUENCE_DELETED, _⟩ => if id = s then none else cell
  | _ => cell

variable {S : List (Option SequenceMessageData)} {s : SequenceId}
  {cell : Option (Option SequenceConfig × Set InstanceId)}

theorem isSome_foldl_sequenceCell : (S.foldl (sequenceCell s) cell).isSome =
    (lastWrite (S.map (sequenceWord s))).getD cell.isSome := by
  induction S generalizing cell with
  | nil => rfl
  | cons entry S ih =>
    rw [List.foldl_cons, ih, List.map_cons, lastWrite_cons]
    cases lastWrite (S.map (sequenceWord s)) with
    | some word => rfl
    | none =>
      rw [Option.none_or, Option.getD_none]
      unfold sequenceCell sequenceWord
      split
      · split_ifs <;> rfl
      · split_ifs <;> rfl
      · rfl

theorem foldl_sequenceCell_cases {e : Option SequenceConfig × Set InstanceId}
    (he : S.foldl (sequenceCell s) cell = some e) :
    (cell = some e ∧ ∀ config, some ⟨s, some .SEQUENCE_DELETED, config⟩ ∉ S) ∨
      e.2 = ∅ ∧ some ⟨s, some .SEQUENCE_CREATED, e.1⟩ ∈ S := by
  induction S generalizing cell with
  | nil => exact .inl ⟨he, fun _ => List.not_mem_nil⟩
  | cons entry S ih =>
    rcases ih he with ⟨hcell, hnot⟩ | ⟨hempty, hmem⟩
    · unfold sequenceCell at hcell
      split at hcell
      next id config =>
        split_ifs at hcell with hid
        · subst hid
          cases cell with
          | none =>
            -- the entry has created the sequence
            rw [Option.getD_none, Option.some.injEq] at hcell
            subst hcell
            exact .inr ⟨rfl, List.mem_cons_self⟩
          | some old => exact .inl ⟨hcell, by simpa using hnot⟩
        · exact .inl ⟨hcell, by simpa using hnot⟩
      next id config =>
        split_ifs at hcell with hid
        refine .inl ⟨hcell, fun config' hmem => ?_⟩
        rcases List.mem_cons.mp hmem with heq | hmem
        · simp only [Option.some.injEq, SequenceMessageData.mk.injEq] at heq
          exact hid heq.1.symm
        · exact hnot config' hmem
      next entry' hcreated hdeleted =>
        refine .inl ⟨hcell, fun config' hmem => ?_⟩
        rcases List.mem_cons.mp hmem with heq | hmem
        · exact hdeleted s config' heq.symm
        · exact hnot config' hmem
    · exact .inr ⟨hempty, List.mem_cons_of_mem _ hmem⟩

theorem foldl_sequenceCell_of_not_deleted {e : Option SequenceConfig × Set InstanceId}
    (hnot : ∀ config, some ⟨s, some .SEQUENCE_DELETED, config⟩ ∉ S) :
    S.foldl (sequenceCell s) (some e) = some e := by
  induction S with
  | nil => rfl
  | cons entry S ih =>
    have hcell : sequenceCell s (some e) entry = some e := by
      unfold sequenceCell
      split
      · simp
      next id config =>
        refine if_neg ?_
        rintro rfl
        exact hnot config List.mem_cons_self
      · rfl
    rw [List.foldl_cons, hcell]
    exact ih fun config hmem => hnot config (List.mem_cons_of_mem _ hmem)

/-- The register after an entry that is not `null`. -/
def addEntry (hostId : HostId) (r : STHInfoRegister) : Option SequenceMessageData → STHInfoRegister
  | some ⟨id, some .SEQUENCE_CREATED, config⟩ => r.apply (.addSequence hostId id config)
  | some ⟨id, some .SEQUENCE_DELETED, _⟩ => r.apply (.deleteSequence hostId id)
  | _ => r

theorem onSequence_ok (hostId : HostId) (r : STHInfoRegister) {entry : Option SequenceMessageData}
    (hne : entry ≠ none) : onSequence hostId r entry = .ok (addEntry hostId r entry) := by
  obtain ⟨⟨id, status, config⟩, rfl⟩ := Option.ne_none_iff_exists'.mp hne
  cases status with
  | none => rfl
  | some status => cases status <;> rfl

theorem records_addEntry {r : STHInfoRegister} (hr : r.Records) (hostId : HostId)
    (entry : Option SequenceMessageData) : (addEntry hostId r entry).Records := by
  unfold addEntry
  split
  · exact hr.apply _
  · exact hr.apply _
  · exact hr

theorem view_addEntry {r : STHInfoRegister} (hr : r.Records) (hostId : HostId)
    (entry : Option SequenceMessageData) : (addEntry hostId r entry).view hostId =
      (r.view hostId).map fun seqs s => sequenceCell s (seqs s) entry := by
  unfold addEntry sequenceCell
  split
  · rw [STHInfoRegister.view_apply hr]
    exact if_pos rfl
  · rw [STHInfoRegister.view_apply hr]
    exact if_pos rfl
  · exact Option.map_id'.symm

end Sequences

/-! ## Instances -/

section Instances

/-- What an entry makes of a sequence that is there. -/
def instanceCell (s : SequenceId) (e : Option SequenceConfig × Set InstanceId)
    (message : InstanceMessageData) : Option SequenceConfig × Set InstanceId :=
  match normalizeInstanceEventPayload message with
  | .ok (some ⟨id, status, some sequence, _, _, _⟩) =>
    if sequence.id = s then
      (e.1, if status = some InstanceStatus.GONE then e.2 \ {id} else insert id e.2)
    else e
  | _ => e

/-- The handler of the entry comes to its end when the sequences are those that are `known`. -/
def Usable (known : SequenceId → Prop) (message : InstanceMessageData) : Prop :=
  ∃ payload, normalizeInstanceEventPayload message = .ok payload ∧
    ∀ inst, payload = some inst → inst.status = some InstanceStatus.GONE ∨
      ∃ sequence, inst.sequence = some sequence ∧ known sequence.id

/-- The register after an entry whose handler comes to its end. -/
def addMessage (hostId : HostId) (r : STHInfoRegister) (message : InstanceMessageData) :
    STHInfoRegister :=
  match normalizeInstanceEventPayload message with
  | .ok (some ⟨id, status, some sequence, hubId, location, sequenceId⟩) =>
    if status = some InstanceStatus.GONE then r.apply (.deleteInstance hostId sequence.id id)
    else r.apply (.addInstance hostId ⟨id, sequence, hubId, location, sequenceId⟩)
  | _ => r

variable {I : List InstanceMessageData} {s : SequenceId}
  {e : Option SequenceConfig × Set InstanceId}

theorem instanceCell_fst (message : InstanceMessageData) : (instanceCell s e message).1 = e.1 := by
  unfold instanceCell
  split
  · split_ifs <;> rfl
  · rfl

theorem mem_instanceCell (message : InstanceMessageData) (i : InstanceId) :
    i ∈ (instanceCell s e message).2 ↔
      (instanceWord s i message).elim (i ∈ e.2) (· = true) := by
  unfold instanceCell instanceWord
  split
  next id status sequence _ _ _ _ =>
    by_cases hs : sequence.id = s
    · by_cases hi : id = i
      · subst hi
        by_cases hgone : status = some InstanceStatus.GONE <;> simp [hs, hgone]
      · have hne : i ≠ id := Ne.symm hi
        by_cases hgone : status = some InstanceStatus.GONE <;> simp [hs, hi, hne, hgone]
    · simp [hs]
  · rfl

theorem foldl_instanceCell_fst : (I.foldl (instanceCell s) e).1 = e.1 := by
  induction I generalizing e with
  | nil => rfl
  | cons message I ih => rw [List.foldl_cons, ih, instanceCell_fst]

theorem mem_foldl_instanceCell (i : InstanceId) : i ∈ (I.foldl (instanceCell s) e).2 ↔
    (lastWrite (I.map (instanceWord s i))).elim (i ∈ e.2) (· = true) := by
  induction I generalizing e with
  | nil => rfl
  | cons message I ih =>
    rw [List.foldl_cons, ih, List.map_cons, lastWrite_cons]
    cases lastWrite (I.map (instanceWord s i)) with
    | some word => rfl
    | none => exact mem_instanceCell message i

variable {r : STHInfoRegister} {hostId : HostId}

def Knows (r : STHInfoRegister) (hostId : HostId) (s : SequenceId) : Prop :=
  ((r.view hostId).bind (· s)).isSome

theorem addInstance_spec (inst : Instance) :
    (Knows r hostId inst.sequence.id →
      r.addInstance hostId inst = .ok (r.apply (.addInstance hostId inst))) ∧
    (¬ Knows r hostId inst.sequence.id → ∃ e, r.addInstance hostId inst = .error e) := by
  simp only [Knows, STHInfoRegister.view, STHInfoRegister.apply, STHInfoRegister.addInstance]
  cases hget : r.hostsMap.get? hostId with
  | none => simp
  | some seqs =>
    cases his : seqs.get? inst.sequence.id with
    | none => simp [his]
    | some is => by_cases hhas : is.has inst.id <;> simp [his, hhas, Except.toOption]

theorem onInstance_ok {message : InstanceMessageData}
    (hok : Usable (Knows r hostId) message) :
    onInstance hostId r message = .ok (addMessage hostId r message) := by
  obtain ⟨payload, hpayload, hinst⟩ := hok
  unfold onInstance addMessage
  rw [hpayload]
  cases payload with
  | none => rfl
  | some inst =>
    obtain ⟨id, status, sequence, hubId, location, sequenceId⟩ := inst
    dsimp only
    by_cases hgone : status = some InstanceStatus.GONE
    · rw [if_pos hgone]
      cases sequence with
      | none => rfl
      | some sequence => exact congrArg Except.ok (if_pos hgone).symm
    · obtain hgone' | ⟨sequence', rfl, hknown⟩ := hinst _ rfl
      · exact absurd hgone' hgone
      · rw [if_neg hgone]
        exact ((addInstance_spec _).1 hknown).trans (congrArg Except.ok (if_neg hgone).symm)

theorem onInstance_throws {message : InstanceMessageData}
    (hnot : ¬ Usable (Knows r hostId) message) :
    ∃ e, onInstance hostId r message = .error e := by
  unfold onInstance
  cases hpayload : normalizeInstanceEventPayload message with
  | error e => exact ⟨e, rfl⟩
  | ok payload =>
    cases payload with
    | none => exact absurd ⟨none, hpayload, fun _ h => by cases h⟩ hnot
    | some inst =>
      dsimp only
      by_cases hgone : inst.status = some InstanceStatus.GONE
      · refine absurd ⟨some inst, hpayload, fun inst' heq => .inl ?_⟩ hnot
        cases heq
        exact hgone
      · rw [if_neg hgone]
        unfold addInstanceData
        cases hsequence : inst.sequence with
        | none =>
          dsimp only
          split_ifs <;> exact ⟨_, rfl⟩
        | some sequence =>
          refine (addInstance_spec _).2 fun hknown => hnot ?_
          refine ⟨some inst, hpayload, fun inst' heq => .inr ⟨sequence, ?_, hknown⟩⟩
          cases heq
          exact hsequence

theorem records_addMessage (hr : r.Records) (hostId : HostId) (message : InstanceMessageData) :
    (addMessage hostId r message).Records := by
  unfold addMessage
  split
  · split_ifs <;> exact hr.apply _
  · exact hr

theorem view_addMessage (hr : r.Records) (hostId : HostId) (message : InstanceMessageData) :
    (addMessage hostId r message).view hostId =
      (r.view hostId).map fun seqs s => (seqs s).map (instanceCell s · message) := by
  unfold addMessage instanceCell
  split
  next id status sequence hubId location sequenceId _ =>
    split_ifs with hgone
    all_goals
      rw [STHInfoRegister.view_apply hr]
      refine (if_pos rfl).trans ?_
      congr 1
      funext seqs s
      split_ifs with hs
      · rfl
      · exact Option.map_id'.symm
  · simp only [Option.map_id']

end Instances

/-! ## A pair of messages -/

section Merge

variable {r : STHInfoRegister} {hostId : HostId}

theorem records_foldl_addEntry (hr : r.Records) (S : List (Option SequenceMessageData)) :
    (S.foldl (addEntry hostId) r).Records := by
  induction S generalizing r with
  | nil => exact hr
  | cons entry S ih => exact ih (records_addEntry hr hostId entry)

theorem view_foldl_addEntry (hr : r.Records) (S : List (Option SequenceMessageData)) :
    (S.foldl (addEntry hostId) r).view hostId =
      (r.view hostId).map fun seqs s => S.foldl (sequenceCell s) (seqs s) := by
  induction S generalizing r with
  | nil => exact Option.map_id'.symm
  | cons entry S ih =>
    rw [List.foldl_cons, ih (records_addEntry hr hostId entry), view_addEntry hr, Option.map_map]
    rfl

theorem view_foldl_addMessage (hr : r.Records) (I : List InstanceMessageData) :
    (I.foldl (addMessage hostId) r).view hostId =
      (r.view hostId).map fun seqs s => (seqs s).map fun e => I.foldl (instanceCell s) e := by
  induction I generalizing r with
  | nil => simp only [List.foldl_nil, Option.map_id']
  | cons message I ih =>
    rw [List.foldl_cons, ih (records_addMessage hr hostId message), view_addMessage hr,
      Option.map_map]
    congr 1
    funext seqs s
    exact Option.map_map ..

theorem knows_addMessage (hr : r.Records) (message : InstanceMessageData) (s : SequenceId) :
    Knows (addMessage hostId r message) hostId s ↔ Knows r hostId s := by
  unfold Knows
  rw [view_addMessage hr]
  cases r.view hostId with
  | none => rfl
  | some seqs => simp

end Merge

namespace ManagerState

variable {m : ManagerState} {k : ℕ} {S : Option (List (Option SequenceMessageData))}
  {I : Option (List InstanceMessageData)}

/-- Where the manager ends when it handles two bulk messages of a controller, and what it throws. -/
def hostMessages (m : ManagerState) (k : ℕ) (S : Option (List (Option SequenceMessageData)))
    (I : Option (List InstanceMessageData)) : ManagerState × Option String × Option String :=
  let (m₁, e₁) := m.hostMessageHandler k (.sequences S)
  let (m₂, e₂) := m₁.hostMessageHandler k (.instances I)
  (m₂, e₁, e₂)

/-- Both messages are handled to their ends, and the manager holds what they list. -/
structure Replaces (m : ManagerState) (k : ℕ) (S : Option (List (Option SequenceMessageData)))
    (I : Option (List InstanceMessageData)) : Prop where
  handled : (m.hostMessages k S I).2 = (none, none)
  mirrors : (m.hostMessages k S I).1.Mirrors (m.controllers k).id (S.getD []) (I.getD [])

/-- No entry stops a loop, and the messages speak of all that is held of the hub. -/
structure Replaceable (m : ManagerState) (k : ℕ) (S : Option (List (Option SequenceMessageData)))
    (I : Option (List InstanceMessageData)) : Prop where
  known : m.sthInfoRegister.hostsMap.has (m.controllers k).id = true
  sequences : S ≠ none ∧ none ∉ S.getD []
  instances : ∀ message ∈ I.getD [], Usable (ListsSequence (S.getD [])) message
  covered : ∀ seqs s config is, m.sthInfoRegister.view (m.controllers k).id = some seqs →
    seqs s = some (config, is) →
      (∃ config', some ⟨s, some .SEQUENCE_DELETED, config'⟩ ∈ S.getD []) ∨
      some ⟨s, some .SEQUENCE_CREATED, config⟩ ∈ S.getD [] ∧
        ∀ i ∈ is, ∃ message ∈ I.getD [], instanceWord s i message ≠ none

def withSequences (m : ManagerState) (k : ℕ) (S : Option (List (Option SequenceMessageData))) :
    STHInfoRegister :=
  (S.getD []).foldl (addEntry (m.controllers k).id) m.sthInfoRegister

section

variable (hr : m.sthInfoRegister.Records)
include hr

theorem hostMessageHandler_sequences :
    ((m.hostMessageHandler k (.sequences S)).2 = none ↔ S ≠ none ∧ none ∉ S.getD []) ∧
      (S ≠ none ∧ none ∉ S.getD [] → m.hostMessageHandler k (.sequences S) =
        ({ m with sthInfoRegister := m.withSequences k S }.handleEmission k .sequences, none)) := by
  cases S with
  | none => simp [hostMessageHandler]
  | some entries =>
    have hspec : ((forEach (onSequence (m.controllers k).id) m.sthInfoRegister entries).2 = none ↔
          ∀ entry ∈ entries, entry ≠ none) ∧
        ((∀ entry ∈ entries, entry ≠ none) →
          forEach (onSequence (m.controllers k).id) m.sthInfoRegister entries =
            (m.withSequences k (some entries), none) ∧
          (m.withSequences k (some entries)).Records) := by
      refine forEach_spec (fun r entry hr hne => ?_) (fun r entry _ hnull => ?_) hr entries
      · exact ⟨onSequence_ok _ r hne, records_addEntry hr _ entry⟩
      · rw [not_not.mp hnull]
        exact ⟨_, rfl⟩
    have hall : (∀ entry ∈ entries, entry ≠ none) ↔ none ∉ entries :=
      ⟨fun h hmem => h none hmem rfl, fun h entry hmem heq => h (heq ▸ hmem)⟩
    rw [hall] at hspec
    simp only [ne_eq, Option.some_ne_none, not_false_eq_true, true_and, Option.getD_some,
      hostMessageHandler]
    constructor
    · rw [← hspec.1]
      cases (forEach (onSequence (m.controllers k).id) m.sthInfoRegister entries).2 <;> simp
    · intro hnull
      rw [(hspec.2 hnull).1]

theorem hostMessageHandler_instances {known : SequenceId → Prop}
    (hknown : ∀ s, Knows m.sthInfoRegister (m.controllers k).id s ↔ known s) :
    ((m.hostMessageHandler k (.instances I)).2 = none ↔
        ∀ message ∈ I.getD [], Usable known message) ∧
      ((∀ message ∈ I.getD [], Usable known message) → m.hostMessageHandler k (.instances I) =
        ({ m with sthInfoRegister :=
            (I.getD []).foldl (addMessage (m.controllers k).id) m.sthInfoRegister
          }.handleEmission k .instances, none)) := by
  have hspec : ((forEach (onInstance (m.controllers k).id) m.sthInfoRegister (I.getD [])).2 = none ↔
        ∀ message ∈ I.getD [], Usable known message) ∧
      ((∀ message ∈ I.getD [], Usable known message) →
        forEach (onInstance (m.controllers k).id) m.sthInfoRegister (I.getD []) =
          ((I.getD []).foldl (addMessage (m.controllers k).id) m.sthInfoRegister, none) ∧
        ((I.getD []).foldl (addMessage (m.controllers k).id) m.sthInfoRegister).Records ∧
          ∀ s, Knows ((I.getD []).foldl (addMessage (m.controllers k).id) m.sthInfoRegister)
            (m.controllers k).id s ↔ known s) := by
    refine forEach_spec
      (I := fun r => r.Records ∧ ∀ s, Knows r (m.controllers k).id s ↔ known s)
      (fun r message hi hok => ?_) (fun r message hi hnot => ?_) ⟨hr, hknown⟩ _
    · obtain rfl : known = Knows r (m.controllers k).id := funext fun s => propext (hi.2 s).symm
      exact ⟨onInstance_ok hok, records_addMessage hi.1 _ message,
        fun s => knows_addMessage hi.1 message s⟩
    · obtain rfl : known = Knows r (m.controllers k).id := funext fun s => propext (hi.2 s).symm
      exact onInstance_throws hnot
  simp only [hostMessageHandler]
  constructor
  · rw [← hspec.1]
    cases (forEach (onInstance (m.controllers k).id) m.sthInfoRegister (I.getD [])).2 <;> simp
  · intro hall
    rw [(hspec.2 hall).1]

theorem view_withSequences :
    (m.withSequences k S).view (m.controllers k).id =
      (m.sthInfoRegister.view (m.controllers k).id).map fun seqs s =>
        (S.getD []).foldl (sequenceCell s) (seqs s) :=
  view_foldl_addEntry hr _

theorem hostMessages_spec :
    ((m.hostMessages k S I).2 = (none, none) ↔ (S ≠ none ∧ none ∉ S.getD []) ∧
      ∀ message ∈ I.getD [], Usable (Knows (m.withSequences k S) (m.controllers k).id) message) ∧
    ((m.hostMessages k S I).2 = (none, none) →
      (m.hostMessages k S I).1.isHubInventoryConsumed (m.controllers k).id = true ∧
      (m.hostMessages k S I).1.sthInfoRegister.view (m.controllers k).id =
        (m.sthInfoRegister.view (m.controllers k).id).map fun seqs s =>
          ((S.getD []).foldl (sequenceCell s) (seqs s)).map fun e =>
            (I.getD []).foldl (instanceCell s) e) := by
  obtain ⟨hiff, hends⟩ := m.hostMessageHandler_sequences (k := k) (S := S) hr
  by_cases hS : S ≠ none ∧ none ∉ S.getD []
  · have hrecords : (m.withSequences k S).Records := records_foldl_addEntry hr _
    obtain ⟨hiff', hends'⟩ :=
      ({ m with sthInfoRegister := m.withSequences k S }.handleEmission k
        .sequences).hostMessageHandler_instances (k := k) (I := I) hrecords fun s => Iff.rfl
    simp only [hostMessages, hends hS, Prod.mk.injEq, true_and]
    refine ⟨hiff'.trans (iff_and_self.mpr fun _ => hS), fun hnone => ?_⟩
    rw [hends' (hiff'.mp hnone)]
    constructor
    · simp [handleEmission, markHubInventory, isHubInventoryConsumed]
    · show ((I.getD []).foldl (addMessage (m.controllers k).id) (m.withSequences k S)).view
        (m.controllers k).id = _
      rw [view_foldl_addMessage hrecords, view_withSequences hr, Option.map_map]
      rfl
  · have hthrown : (m.hostMessages k S I).2 ≠ (none, none) := fun heq =>
      hS (hiff.mp (congrArg Prod.fst heq))
    exact ⟨iff_of_false hthrown fun h => hS h.1, fun heq => absurd heq hthrown⟩

end

theorem lastWrite_sequenceWord_ne_none {S : List (Option SequenceMessageData)} {s : SequenceId}
    {status : SequenceMessageCode} {config : Option SequenceConfig}
    (hmem : some ⟨s, some status, config⟩ ∈ S) : lastWrite (S.map (sequenceWord s)) ≠ none := by
  rw [Ne, lastWrite_eq_none_iff]
  intro hnone
  have hword := hnone _ (List.mem_map_of_mem hmem)
  cases status <;> simp [sequenceWord] at hword

theorem has_iff_view {r : STHInfoRegister} {h : HostId} :
    r.hostsMap.has h = true ↔ (r.view h).isSome := by
  rw [OrderedMap.has, STHInfoRegister.view, Option.isSome_map]

theorem knows_withSequences (hr : m.sthInfoRegister.Records) {known : SequenceId → Prop}
    {seqs : SequenceId → Option (Option SequenceConfig × Set InstanceId)}
    (hseqs : m.sthInfoRegister.view (m.controllers k).id = some seqs)
    (hsome : ∀ s, ((S.getD []).foldl (sequenceCell s) (seqs s)).isSome ↔ known s) :
    Knows (m.withSequences k S) (m.controllers k).id = known := by
  funext s
  refine propext (Iff.trans ?_ (hsome s))
  rw [Knows, view_withSequences hr, hseqs]
  rfl

theorem replaceable_of_replaces (hr : m.sthInfoRegister.Records) (hreplaces : m.Replaces k S I) :
    m.Replaceable k S I := by
  obtain ⟨hiff, hends⟩ := m.hostMessages_spec (k := k) (S := S) (I := I) hr
  obtain ⟨hhandled, ⟨after, hafter, hsome, hentry⟩, -⟩ := hreplaces
  obtain ⟨hS, husable⟩ := hiff.mp hhandled
  rw [(hends hhandled).2] at hafter
  obtain ⟨seqs, hseqs, rfl⟩ := Option.map_eq_some_iff.mp hafter
  simp only [Option.isSome_map, Option.map_eq_some_iff] at hsome hentry
  refine ⟨?_, hS, fun message hmem => ?_, fun seqs' s config is hseqs' hs => ?_⟩
  · rw [has_iff_view, hseqs]
    rfl
  · -- the sequences that are known in the end are the listed ones
    rw [← knows_withSequences hr hseqs hsome]
    exact husable message hmem
  · obtain rfl : seqs = seqs' := Option.some.inj (hseqs.symm.trans hseqs')
    by_cases hdeleted : ∃ config', some ⟨s, some .SEQUENCE_DELETED, config'⟩ ∈ S.getD []
    · exact .inl hdeleted
    · have hkept := foldl_sequenceCell_of_not_deleted (e := (config, is)) fun config' hmem =>
        hdeleted ⟨config', hmem⟩
      rw [← hs] at hkept
      obtain ⟨hcreated, hinstances⟩ := hentry s config ((I.getD []).foldl (instanceCell s)
        (config, is)).2 ⟨(config, is), hkept.trans hs, Prod.ext foldl_instanceCell_fst rfl⟩
      refine .inr ⟨hcreated, fun i hi => ?_⟩
      by_contra hnot
      push Not at hnot
      have hnone : lastWrite ((I.getD []).map (instanceWord s i)) = none := by
        rw [lastWrite_eq_none_iff]
        intro word hmem
        obtain ⟨message, hmessage, rfl⟩ := List.mem_map.mp hmem
        exact hnot message hmessage
      have hlisted := ((hinstances i).mp ((mem_foldl_instanceCell i).mpr (by rwa [hnone]))).2
      rw [hnone] at hlisted
      cases hlisted

theorem replaces_of_replaceable (hr : m.sthInfoRegister.Records)
    (hreplaceable : m.Replaceable k S I) : m.Replaces k S I := by
  obtain ⟨hiff, hends⟩ := m.hostMessages_spec (k := k) (S := S) (I := I) hr
  obtain ⟨hknown, hS, husable, hcovered⟩ := hreplaceable
  rw [has_iff_view] at hknown
  obtain ⟨seqs, hseqs⟩ := Option.isSome_iff_exists.mp hknown
  -- after the sequences there are those that are listed
  have hlists : ∀ s, ((S.getD []).foldl (sequenceCell s) (seqs s)).isSome ↔
      ListsSequence (S.getD []) s := by
    intro s
    rw [isSome_foldl_sequenceCell, ListsSequence]
    cases hlast : lastWrite ((S.getD []).map (sequenceWord s)) with
    | some word => simp
    | none =>
      refine iff_of_false (fun hsome => ?_) (by simp)
      obtain ⟨⟨config, is⟩, hs⟩ := Option.isSome_iff_exists.mp hsome
      rcases hcovered seqs s config is hseqs hs with ⟨config', hmem⟩ | ⟨hmem, -⟩
      all_goals exact lastWrite_sequenceWord_ne_none hmem hlast
  have hhandled : (m.hostMessages k S I).2 = (none, none) := by
    refine hiff.mpr ⟨hS, fun message hmem => ?_⟩
    rw [knows_withSequences hr hseqs hlists]
    exact husable message hmem
  obtain ⟨hconsumed, hview⟩ := hends hhandled
  refine ⟨hhandled, ⟨_, hview.trans (congrArg _ hseqs), fun s => ?_, fun s config is hs => ?_⟩,
    hconsumed⟩
  · rw [Option.isSome_map]
    exact hlists s
  · obtain ⟨e, he, hfold⟩ := Option.map_eq_some_iff.mp hs
    obtain rfl : e.1 = config :=
      foldl_instanceCell_fst.symm.trans (congrArg Prod.fst hfold)
    obtain rfl : ((I.getD []).foldl (instanceCell s) e).2 = is := congrArg Prod.snd hfold
    have hlisted : ListsSequence (S.getD []) s := (hlists s).mp (by rw [he]; rfl)
    have hcases := foldl_sequenceCell_cases he
    constructor
    · rcases hcases with ⟨hs, hnot⟩ | ⟨-, hmem⟩
      · rcases hcovered seqs s e.1 e.2 hseqs hs with ⟨config', hmem⟩ | ⟨hmem, -⟩
        · exact absurd hmem (hnot config')
        · exact hmem
      · exact hmem
    · intro i
      rw [mem_foldl_instanceCell, ListsInstance, and_iff_right hlisted]
      cases hlast : lastWrite ((I.getD []).map (instanceWord s i)) with
      | some word => simp
      | none =>
        refine iff_of_false (fun hi : i ∈ e.2 => ?_) (by simp)
        rcases hcases with ⟨hs, hnot⟩ | ⟨hempty, -⟩
        · rcases hcovered seqs s e.1 e.2 hseqs hs with ⟨config', hmem⟩ | ⟨-, hspoken⟩
          · exact hnot config' hmem
          · obtain ⟨message, hmem, hword⟩ := hspoken i hi
            exact hword (lastWrite_eq_none_iff.mp hlast _ (List.mem_map_of_mem hmem))
        · rw [hempty] at hi
          exact hi

/-- Two bulk messages make the register of a hub what they list if and only if the hub is known, no
entry stops a loop, and they speak of all that was held. -/
theorem replaces_iff (hm : system.Reachable System.anyStep m) :
    m.Replaces k S I ↔ m.Replaceable k S I :=
  ⟨replaceable_of_replaces (kept_of_reachable hm).records,
    replaces_of_replaceable (kept_of_reachable hm).records⟩

/-! ### Examples -/

/-- A hub that is registered and has sent nothing. -/
def connected : ManagerState :=
  [Action.register "hub" "sth.hub" true, .initResolved 0].foldl next start

theorem reachable_connected : system.Reachable System.anyStep connected :=
  System.reachable_foldl _

def created (id : SequenceId) : Option SequenceMessageData :=
  some ⟨id, some .SEQUENCE_CREATED, none⟩

def running (id : InstanceId) (sequence : SequenceId) : InstanceMessageData :=
  .raw ⟨id, some "running", some ⟨sequence, none, none⟩, none, none, none⟩

theorem replaces_connected :
    connected.Replaces 0 (some [created "s"]) (some [running "i" "s", .wrapped none]) := by
  refine (replaces_iff reachable_connected).mpr ⟨by decide, by decide, fun message hmem => ?_,
    fun seqs s config is hseqs hs => ?_⟩
  · rcases List.mem_cons.mp hmem with rfl | hmem
    · exact ⟨_, rfl, fun inst heq => by cases heq; exact .inr ⟨_, rfl, rfl⟩⟩
    · rw [List.mem_singleton.mp hmem]
      exact ⟨_, rfl, fun _ h => by cases h⟩
  · cases hseqs
    cases hs

/-- An instance of an unknown sequence comes before a good one: the good one is not listed, and the
inventory is not consumed. -/
theorem not_mirrors_unknown :
    let m := (connected.hostMessages 0 (some [created "s"])
      (some [running "i" "t", running "j" "s"])).1
    m.sthInfoRegister.getInstancesByHub "hub" = .ok [] ∧
      m.isHubInventoryConsumed "hub" = false ∧
      ¬ m.Mirrors "hub" [created "s"] [running "i" "t", running "j" "s"] := by
  refine ⟨rfl, rfl, fun hmirrors => ?_⟩
  exact absurd hmirrors.consumed Bool.false_ne_true

end ManagerState

/-! ### The messages in runs -/

section Runs

variable {m : ManagerState} {k : ℕ}

end Runs

end TransformHub.Manager.SthRegistration
