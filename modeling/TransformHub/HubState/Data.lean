import TransformHub.Js.Value

/-!
# Hub state data

The functions of `hub-state-data.ts`: `copy`, which turns an arbitrary value into detached JSON data
or throws (`none`), and the validators of audit records.
-/

namespace TransformHub.HubState

open Js

/-! ## `copy` -/

mutual

/-- `copy`; `none` is the `TypeError` it throws. -/
def copy : JsValue → Option Json
  | .null => some .null
  | .bool b => some (.bool b)
  | .num n => some (.num n)
  | .str s => some (.str s)
  | .arr plain elems extra => if plain && extra.isEmpty then (copyElems elems).map .arr else none
  | .obj plain props => if plain then (copyProps props).map .obj else none
  | .undefined => none
  | .hole => none
  | .nonFinite => none
  | .nonData => none
termination_by structural v => v

def copyElems : List JsValue → Option (List Json)
  | [] => some []
  | v :: vs => do
      let j ← copy v
      let js ← copyElems vs
      pure (j :: js)
termination_by structural vs => vs

/-- Members that are `undefined` are left out, as a JSON serialization leaves them out. -/
def copyProps : List (String × JsValue) → Option (List (String × Json))
  | [] => some []
  | (_, .undefined) :: ps => copyProps ps
  | (k, v) :: ps => do
      let j ← copy v
      let js ← copyProps ps
      pure ((k, j) :: js)
termination_by structural ps => ps

end

theorem copyProps_cons {k : String} {v : JsValue} {ps : List (String × JsValue)}
    (hv : v ≠ .undefined) :
    copyProps ((k, v) :: ps) =
      (copy v).bind fun j => (copyProps ps).map fun js => (k, j) :: js := by
  rw [copyProps]
  · cases copy v <;> cases copyProps ps <;> rfl
  · exact fun h => hv h

theorem copyElems_cons {v : JsValue} {vs : List JsValue} :
    copyElems (v :: vs) =
      (copy v).bind fun j => (copyElems vs).map fun js => j :: js := by
  rw [copyElems]
  cases copy v <;> cases copyElems vs <;> rfl

mutual

theorem copy_toValue : ∀ j : Json, copy j.toValue = some j
  | .null => rfl
  | .bool _ => rfl
  | .num _ => rfl
  | .str _ => rfl
  | .arr es => by simp [Json.toValue, copy, copyElems_toValues es]
  | .obj ms => by simp [Json.toValue, copy, copyProps_toProps ms]

theorem copyElems_toValues : ∀ es : List Json, copyElems (Json.toValues es) = some es
  | [] => rfl
  | j :: es => by
      rw [Json.toValues, copyElems_cons, copy_toValue j, copyElems_toValues es]
      rfl

theorem copyProps_toProps : ∀ ms : List (String × Json), copyProps (Json.toProps ms) = some ms
  | [] => rfl
  | (k, j) :: ms => by
      rw [Json.toProps, copyProps_cons (Json.toValue_ne_undefined j), copy_toValue j,
        copyProps_toProps ms]
      rfl

end

theorem member_copyProps {ps : List (String × JsValue)} {ms : List (String × Json)}
    (h : copyProps ps = some ms) (k : String) :
    (JsValue.member k ps = .undefined ∧ OrderedMap.lookupEntry k ms = none) ∨
      ∃ x, copy (JsValue.member k ps) = some x ∧ OrderedMap.lookupEntry k ms = some x := by
  induction ps generalizing ms with
  | nil =>
    cases h
    exact .inl ⟨rfl, rfl⟩
  | cons p ps ih =>
    obtain ⟨k', v⟩ := p
    by_cases hv : v = .undefined
    · subst hv
      exact ih h
    · rw [copyProps_cons hv] at h
      obtain ⟨x, hx, h⟩ := Option.bind_eq_some_iff.mp h
      obtain ⟨ms', hms', rfl⟩ := Option.map_eq_some_iff.mp h
      rw [JsValue.member.eq_3 _ _ _ _ (fun h => hv h), OrderedMap.lookupEntry]
      by_cases hk : k' = k
      · rw [if_pos hk, if_pos hk]
        exact .inr ⟨x, hx, rfl⟩
      · rw [if_neg hk, if_neg hk]
        exact ih hms'

theorem get_copy {v : JsValue} {j : Json} (h : copy v = some j) (k : String) :
    (v.get k = .undefined ∧ j.get? k = none) ∨
      ∃ x, copy (v.get k) = some x ∧ j.get? k = some x := by
  cases v with
  | arr plain elems extra =>
    simp only [copy, Option.ite_none_right_eq_some, Bool.and_eq_true, List.isEmpty_iff,
      Option.map_eq_some_iff] at h
    obtain ⟨⟨-, rfl⟩, es, -, rfl⟩ := h
    exact .inl ⟨rfl, rfl⟩
  | obj plain props =>
    simp only [copy, Option.ite_none_right_eq_some, Option.map_eq_some_iff] at h
    obtain ⟨-, ms, hms, rfl⟩ := h
    exact member_copyProps hms k
  | undefined | hole | nonFinite | nonData => cases h
  | null | bool | num | str => cases h; exact .inl ⟨rfl, rfl⟩

theorem copyElems_eq_some_iff {vs : List JsValue} {js : List Json} :
    copyElems vs = some js ↔ List.Forall₂ (fun v j => copy v = some j) vs js := by
  induction vs generalizing js with
  | nil => simp [copyElems, eq_comm]
  | cons v vs ih =>
    rw [copyElems_cons]
    constructor
    · intro h
      obtain ⟨j, hj, h⟩ := Option.bind_eq_some_iff.mp h
      obtain ⟨js', hjs, rfl⟩ := Option.map_eq_some_iff.mp h
      exact .cons hj (ih.mp hjs)
    · rintro (_ | ⟨hj, hjs⟩)
      rw [hj, ih.mpr hjs]
      rfl

/-! ## Observations that a copy keeps -/

/-- `f` sees no difference between a value and its copy. -/
def CopyInvariant {β : Type*} (f : JsValue → β) : Prop :=
  ∀ ⦃v : JsValue⦄ ⦃j : Json⦄, copy v = some j → f j.toValue = f v

theorem CopyInvariant.get {β : Type*} {f : JsValue → β} (hf : CopyInvariant f) (k : String) :
    CopyInvariant fun v => f (v.get k) := by
  intro v j h
  rcases get_copy h k with ⟨hv, hj⟩ | ⟨x, hv, hj⟩
  · simp only [JsValue.get_toValue, hj, hv, Option.map_none, Option.getD_none]
  · simp only [JsValue.get_toValue, hj, Option.map_some, Option.getD_some]
    exact hf hv

theorem CopyInvariant.get_eq {β : Type*} {f : JsValue → β} (hf : CopyInvariant f) {v : JsValue}
    {j : Json} (h : copy v = some j) (k : String) : f (j.toValue.get k) = f (v.get k) :=
  hf.get k h

theorem copy_cases {v : JsValue} {j : Json} (h : copy v = some j) :
    (v = j.toValue ∧ v.isObject = false) ∨
      (∃ elems es, v = .arr true elems [] ∧ copyElems elems = some es ∧ j = .arr es) ∨
      ∃ props ms, v = .obj true props ∧ copyProps props = some ms ∧ j = .obj ms := by
  cases v with
  | arr plain elems extra =>
    simp only [copy, Option.ite_none_right_eq_some, Bool.and_eq_true, List.isEmpty_iff,
      Option.map_eq_some_iff] at h
    obtain ⟨⟨rfl, rfl⟩, es, hes, rfl⟩ := h
    exact .inr (.inl ⟨elems, es, rfl, hes, rfl⟩)
  | obj plain props =>
    simp only [copy, Option.ite_none_right_eq_some, Option.map_eq_some_iff] at h
    obtain ⟨rfl, ms, hms, rfl⟩ := h
    exact .inr (.inr ⟨props, ms, rfl, hms, rfl⟩)
  | undefined | hole | nonFinite | nonData => cases h
  | null | bool | num | str => cases h; exact .inl ⟨rfl, rfl⟩

theorem copyInvariant_str? : CopyInvariant JsValue.str? := by
  intro v j h
  rcases copy_cases h with ⟨rfl, -⟩ | ⟨_, _, rfl, -, rfl⟩ | ⟨_, _, rfl, -, rfl⟩ <;> rfl

theorem copyInvariant_safeNat? : CopyInvariant JsValue.safeNat? := by
  intro v j h
  rcases copy_cases h with ⟨rfl, -⟩ | ⟨_, _, rfl, -, rfl⟩ | ⟨_, _, rfl, -, rfl⟩ <;> rfl

theorem copyInvariant_isObject : CopyInvariant JsValue.isObject := by
  intro v j h
  rcases copy_cases h with ⟨rfl, -⟩ | ⟨_, _, rfl, -, rfl⟩ | ⟨_, _, rfl, -, rfl⟩ <;> rfl

theorem copyInvariant_isNull : CopyInvariant JsValue.isNull := by
  intro v j h
  rcases copy_cases h with ⟨rfl, -⟩ | ⟨_, _, rfl, -, rfl⟩ | ⟨_, _, rfl, -, rfl⟩ <;> rfl

theorem copyInvariant_isHole : CopyInvariant JsValue.isHole := by
  intro v j h
  rcases copy_cases h with ⟨rfl, -⟩ | ⟨_, _, rfl, -, rfl⟩ | ⟨_, _, rfl, -, rfl⟩ <;> rfl

/-! ## Cursors -/

/-- The position of a Hub's history: an epoch of a Hub and a number in it. -/
structure HubCursor where
  hubId : String
  epoch : String
  position : ℕ
deriving DecidableEq

/-- `validCursor`, giving the cursor it recognises. -/
def validCursor (v : JsValue) : Option HubCursor :=
  match (v.get "hubId").str?, (v.get "epoch").str?, (v.get "position").safeNat? with
  | some hubId, some epoch, some position =>
    if hubId ≠ "" ∧ epoch ≠ "" then some ⟨hubId, epoch, position⟩ else none
  | _, _, _ => none

theorem copyInvariant_validCursor : CopyInvariant validCursor := by
  intro v j h
  unfold validCursor
  rw [copyInvariant_str?.get_eq h, copyInvariant_str?.get_eq h, copyInvariant_safeNat?.get_eq h]

/-- A copied cursor: the JSON record, other members included, and what it says. -/
structure StoredCursor where
  json : Json
  cursor : HubCursor
  reads : validCursor json.toValue = some cursor

def copyCursor (v : JsValue) : Option StoredCursor :=
  (copy v).bind fun j =>
    match h : validCursor j.toValue with
    | some c => some ⟨j, c, h⟩
    | none => none

theorem copyCursor_spec {v : JsValue} {c : HubCursor} (hv : validCursor v = some c) :
    (copy v = none ∧ copyCursor v = none) ∨
      ∃ s : StoredCursor, copy v = some s.json ∧ copyCursor v = some s ∧ s.cursor = c := by
  cases h : copy v with
  | none => exact .inl ⟨rfl, by simp [copyCursor, h]⟩
  | some j =>
    have hj : validCursor j.toValue = some c := by rw [copyInvariant_validCursor h, hv]
    refine .inr ⟨⟨j, c, hj⟩, rfl, ?_, rfl⟩
    simp only [copyCursor, h, Option.bind_some]
    split
    next c' hc' => simp only [Option.some.injEq, StoredCursor.mk.injEq, true_and]; simp_all
    next hn => simp_all

/-! ## Mutations -/

inductive HubWatchKind where
  | sequence
  | inst
  | topic
  | health
deriving DecidableEq

/-- The mutations of the Hub state, with their records in `α`: raw values as they are handed over,
JSON data once they are copied. -/
inductive HubStateMutation (α : Type) where
  | sequenceUpsert (sequenceId : String) (value : α)
  | sequenceRemove (sequenceId : String)
  | sequenceManifest (sequenceId instanceId : String) (manifestChange : α)
  | instanceUpsert (instanceId sequenceId : String) (value : α)
  | instanceRemove (instanceId sequenceId : String)
  | topicUpsert (topic : String) (value : α)
  | topicRemove (topic : String)
  | healthUpsert (value : α)

namespace HubStateMutation

variable {α β : Type}

def kind : HubStateMutation α → HubWatchKind
  | sequenceUpsert .. => .sequence
  | sequenceRemove .. => .sequence
  | sequenceManifest .. => .sequence
  | instanceUpsert .. => .inst
  | instanceRemove .. => .inst
  | topicUpsert .. => .topic
  | topicRemove .. => .topic
  | healthUpsert .. => .health

/-- Replace the record; `none` when `f` fails on it. -/
def traverse (f : α → Option β) : HubStateMutation α → Option (HubStateMutation β)
  | sequenceUpsert i v => (f v).map (sequenceUpsert i)
  | sequenceRemove i => some (sequenceRemove i)
  | sequenceManifest s i c => (f c).map (sequenceManifest s i)
  | instanceUpsert i s v => (f v).map (instanceUpsert i s)
  | instanceRemove i s => some (instanceRemove i s)
  | topicUpsert t v => (f v).map (topicUpsert t)
  | topicRemove t => some (topicRemove t)
  | healthUpsert v => (f v).map healthUpsert

theorem kind_of_traverse {f : α → Option β} {μ : HubStateMutation α} {ν : HubStateMutation β}
    (h : μ.traverse f = some ν) : ν.kind = μ.kind := by
  cases μ <;> simp only [traverse, Option.map_eq_some_iff, Option.some.injEq] at h
  case sequenceRemove | instanceRemove | topicRemove => subst h; rfl
  all_goals
    obtain ⟨_, -, rfl⟩ := h
    rfl

end HubStateMutation

def validSequenceInstances (sequence : JsValue) : Bool :=
  (sequence.get "instances").isUndefined ||
    match (sequence.get "instances").elems? with
    | some es => JsValue.every (fun v => v.str?.isSome) es
    | none => false

/-- The `sequence` case of `validMutation`. -/
def validSequenceMutation (m : JsValue) (sequenceId : String) :
    Option (HubStateMutation JsValue) :=
  match (m.get "action").str? with
  | some "upsert" =>
    if (m.get "value").isObject ∧ validSequenceInstances (m.get "value") then
      some (.sequenceUpsert sequenceId (m.get "value"))
    else none
  | some "remove" => if (m.get "value").isNull then some (.sequenceRemove sequenceId) else none
  | some "manifest" =>
    match (m.get "instanceId").str? with
    | some instanceId =>
      if (m.get "manifestChange").isObject then
        some (.sequenceManifest sequenceId instanceId (m.get "manifestChange"))
      else none
    | none => none
  | _ => none

/-- The `instance` case of `validMutation`. -/
def validInstanceMutation (m : JsValue) (instanceId sequenceId : String) :
    Option (HubStateMutation JsValue) :=
  match (m.get "action").str? with
  | some "upsert" =>
    if (m.get "value").isObject then some (.instanceUpsert instanceId sequenceId (m.get "value"))
    else none
  | some "remove" =>
    if (m.get "value").isNull then some (.instanceRemove instanceId sequenceId) else none
  | _ => none

/-- The `topic` case of `validMutation`. -/
def validTopicMutation (m : JsValue) (topic : String) : Option (HubStateMutation JsValue) :=
  match (m.get "action").str? with
  | some "upsert" =>
    if (m.get "value").isObject then some (.topicUpsert topic (m.get "value")) else none
  | some "remove" => if (m.get "value").isNull then some (.topicRemove topic) else none
  | _ => none

/-- The `health` case of `validMutation`. -/
def validHealthMutation (m : JsValue) : Option (HubStateMutation JsValue) :=
  match (m.get "action").str? with
  | some "upsert" => if (m.get "value").isObject then some (.healthUpsert (m.get "value")) else none
  | _ => none

/-- `validMutation`, giving the mutation it recognises. -/
def validMutation (m : JsValue) : Option (HubStateMutation JsValue) :=
  match (m.get "kind").str? with
  | some "sequence" => (m.get "sequenceId").str?.bind (validSequenceMutation m)
  | some "instance" =>
    (m.get "instanceId").str?.bind fun instanceId =>
      (m.get "sequenceId").str?.bind (validInstanceMutation m instanceId)
  | some "topic" => (m.get "topic").str?.bind (validTopicMutation m)
  | some "health" => validHealthMutation m
  | _ => none

def validMutationAssociations : HubStateMutation JsValue → Bool
  | .sequenceUpsert sequenceId value => (value.get "id").str? = some sequenceId
  | .sequenceManifest sequenceId instanceId change =>
    (change.get "instanceId").str? = some instanceId ∧
      (change.get "sequenceId").str? = some sequenceId
  | .instanceUpsert instanceId sequenceId value =>
    (value.get "id").str? = some instanceId ∧
      ((value.get "sequenceId").isUndefined ∨ (value.get "sequenceId").str? = some sequenceId)
  | .topicUpsert topic value => (value.get "name").str? = some topic
  | _ => true

theorem copyInvariant_validSequenceInstances : CopyInvariant validSequenceInstances := by
  intro v j h
  have helems : CopyInvariant fun w => w.isUndefined ||
      match w.elems? with
      | some es => JsValue.every (fun v => v.str?.isSome) es
      | none => false := by
    intro w x hw
    rcases copy_cases hw with ⟨rfl, -⟩ | ⟨elems, es, rfl, hes, rfl⟩ | ⟨_, _, rfl, -, rfl⟩
    · rfl
    · clear hw
      simp only [Json.toValue, JsValue.isUndefined, JsValue.elems?, Bool.false_or,
        Json.toValues_eq_map]
      rw [copyElems_eq_some_iff] at hes
      induction hes with
      | nil => rfl
      | cons hv _ ih =>
        simp only [JsValue.every, List.map_cons, List.all_cons] at ih ⊢
        rw [ih, copyInvariant_str? hv, copyInvariant_isHole hv]
    · rfl
  exact helems.get "instances" h

/-! ## Inventories -/

/-- The manifests of one sequence: each names that sequence, and no two name one instance. -/
def validManifests (sequenceId : String) (seen : List String) : List JsValue → Bool
  | [] => true
  | .hole :: ms => validManifests sequenceId seen ms
  | m :: ms =>
    match (m.get "instanceId").str? with
    | some instanceId =>
      m.isObject && (m.get "sequenceId").str? = some sequenceId &&
        !seen.contains instanceId && validManifests sequenceId (instanceId :: seen) ms
    | none => false

/-- `validSequenceInventory`; `ids` are the sequence ids seen so far. -/
def validSequenceInventory (ids : List String) : List JsValue → Bool
  | [] => true
  | .hole :: ss => validSequenceInventory ids ss
  | s :: ss =>
    match (s.get "id").str?, (s.get "manifests").elems? with
    | some id, some manifests =>
      s.isObject && validSequenceInstances s && !ids.contains id &&
        validManifests id [] manifests && validSequenceInventory (id :: ids) ss
    | _, _ => false

/-- The loops over instances and topics: objects with distinct strings under `key`. -/
def validKeyed (key : String) (valid : JsValue → Bool) (seen : List String) :
    List JsValue → Bool
  | [] => true
  | v :: vs =>
    match (v.get key).str? with
    | some k => v.isObject && !seen.contains k && valid v && validKeyed key valid (k :: seen) vs
    | none => false

/-- The members of a checkpoint's inventory, as the checks of `consume` find them. -/
structure HubInventory where
  sequences : List JsValue
  instances : List JsValue
  topics : List JsValue
  health : JsValue

/-- The inventory of a checkpoint, when its members have the right types. -/
def readInventory (inventory : JsValue) : Option HubInventory :=
  match (inventory.get "sequences").elems?, (inventory.get "instances").elems?,
    (inventory.get "topics").elems? with
  | some sequences, some instances, some topics =>
    if inventory.isObject ∧ (inventory.get "health").isObject then
      some ⟨sequences, instances, topics, inventory.get "health"⟩
    else none
  | _, _, _ => none

/-- `validInventoryAssociations`; `none` is the `TypeError` of reading the id of an absent
element, which the `every` of the first check has skipped. -/
def validInventoryAssociations (inventory : HubInventory) : Option Bool :=
  if !validSequenceInventory [] inventory.sequences then some false
  else if inventory.sequences.any JsValue.isHole then none
  else
    some (validKeyed "id" (fun v => (v.get "sequenceId").isUndefined ||
        (v.get "sequenceId").str?.isSome) [] inventory.instances &&
      validKeyed "name" (fun _ => true) [] inventory.topics && inventory.health.isObject)

/-! ## Reading a copied mutation -/

/-- The mutation a copied record says. -/
def readMutation (j : Json) : Option (HubStateMutation Json) :=
  (validMutation j.toValue).bind (HubStateMutation.traverse copy)

theorem copy_get_of_isObject {v : JsValue} {j : Json} (h : copy v = some j) {k : String}
    (hk : (v.get k).isObject = true) :
    ∃ x, copy (v.get k) = some x ∧ copy (j.toValue.get k) = some x := by
  rcases get_copy h k with ⟨hv, -⟩ | ⟨x, hv, hj⟩
  · simp [hv, JsValue.isObject] at hk
  · refine ⟨x, hv, ?_⟩
    rw [JsValue.get_toValue, hj]
    exact copy_toValue x

section ReadMutation

variable {m : JsValue} {j : Json} {μ : HubStateMutation JsValue}

section

variable (hj : copy m = some j)
include hj

theorem validSequenceMutation_copy {sequenceId : String}
    (hm : validSequenceMutation m sequenceId = some μ) :
    ∃ ν, μ.traverse copy = some ν ∧
      (validSequenceMutation j.toValue sequenceId).bind (·.traverse copy) = some ν := by
  unfold validSequenceMutation at hm ⊢
  rw [copyInvariant_str?.get_eq hj, copyInvariant_isObject.get_eq hj,
    copyInvariant_isNull.get_eq hj, copyInvariant_str?.get_eq hj,
    copyInvariant_isObject.get_eq hj, copyInvariant_validSequenceInstances.get_eq hj]
  split at hm
  · split_ifs at hm with hv
    cases hm
    obtain ⟨x, hx, hx'⟩ := copy_get_of_isObject hj hv.1
    exact ⟨.sequenceUpsert sequenceId x, by simp [HubStateMutation.traverse, hx],
      by simp [HubStateMutation.traverse, hx', hv]⟩
  · split_ifs at hm with hv
    cases hm
    exact ⟨_, rfl, by simp [HubStateMutation.traverse, hv]⟩
  · split at hm
    next instanceId _ =>
      split_ifs at hm with hv
      cases hm
      obtain ⟨x, hx, hx'⟩ := copy_get_of_isObject hj hv
      exact ⟨.sequenceManifest sequenceId instanceId x, by simp [HubStateMutation.traverse, hx],
        by simp [HubStateMutation.traverse, hx', hv]⟩
    next => cases hm
  · cases hm

theorem validInstanceMutation_copy {instanceId sequenceId : String}
    (hm : validInstanceMutation m instanceId sequenceId = some μ) :
    ∃ ν, μ.traverse copy = some ν ∧
      (validInstanceMutation j.toValue instanceId sequenceId).bind (·.traverse copy) = some ν := by
  unfold validInstanceMutation at hm ⊢
  rw [copyInvariant_str?.get_eq hj, copyInvariant_isObject.get_eq hj,
    copyInvariant_isNull.get_eq hj]
  split at hm
  · split_ifs at hm with hv
    cases hm
    obtain ⟨x, hx, hx'⟩ := copy_get_of_isObject hj hv
    exact ⟨.instanceUpsert instanceId sequenceId x, by simp [HubStateMutation.traverse, hx],
      by simp [HubStateMutation.traverse, hx', hv]⟩
  · split_ifs at hm with hv
    cases hm
    exact ⟨_, rfl, by simp [HubStateMutation.traverse, hv]⟩
  · cases hm

theorem validTopicMutation_copy {topic : String}
    (hm : validTopicMutation m topic = some μ) :
    ∃ ν, μ.traverse copy = some ν ∧
      (validTopicMutation j.toValue topic).bind (·.traverse copy) = some ν := by
  unfold validTopicMutation at hm ⊢
  rw [copyInvariant_str?.get_eq hj, copyInvariant_isObject.get_eq hj,
    copyInvariant_isNull.get_eq hj]
  split at hm
  · split_ifs at hm with hv
    cases hm
    obtain ⟨x, hx, hx'⟩ := copy_get_of_isObject hj hv
    exact ⟨.topicUpsert topic x, by simp [HubStateMutation.traverse, hx],
      by simp [HubStateMutation.traverse, hx', hv]⟩
  · split_ifs at hm with hv
    cases hm
    exact ⟨_, rfl, by simp [HubStateMutation.traverse, hv]⟩
  · cases hm

theorem validHealthMutation_copy (hm : validHealthMutation m = some μ) :
    ∃ ν, μ.traverse copy = some ν ∧
      (validHealthMutation j.toValue).bind (·.traverse copy) = some ν := by
  unfold validHealthMutation at hm ⊢
  rw [copyInvariant_str?.get_eq hj, copyInvariant_isObject.get_eq hj]
  split at hm
  · split_ifs at hm with hv
    cases hm
    obtain ⟨x, hx, hx'⟩ := copy_get_of_isObject hj hv
    exact ⟨.healthUpsert x, by simp [HubStateMutation.traverse, hx],
      by simp [HubStateMutation.traverse, hx', hv]⟩
  · cases hm

theorem readMutation_copy (hm : validMutation m = some μ) :
    ∃ ν, μ.traverse copy = some ν ∧ readMutation j = some ν := by
  unfold readMutation validMutation at *
  rw [copyInvariant_str?.get_eq hj, copyInvariant_str?.get_eq hj, copyInvariant_str?.get_eq hj,
    copyInvariant_str?.get_eq hj]
  split at hm
  · obtain ⟨sequenceId, hs, hm⟩ := Option.bind_eq_some_iff.mp hm
    rw [hs]
    exact validSequenceMutation_copy hj hm
  · obtain ⟨instanceId, hi, hm⟩ := Option.bind_eq_some_iff.mp hm
    obtain ⟨sequenceId, hs, hm⟩ := Option.bind_eq_some_iff.mp hm
    rw [hi, hs]
    exact validInstanceMutation_copy hj hm
  · obtain ⟨topic, ht, hm⟩ := Option.bind_eq_some_iff.mp hm
    rw [ht]
    exact validTopicMutation_copy hj hm
  · exact validHealthMutation_copy hj hm
  · cases hm

end

end ReadMutation

end TransformHub.HubState
