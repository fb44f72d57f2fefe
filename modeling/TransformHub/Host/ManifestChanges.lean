import TransformHub.Host.RegistryInvariant

/-!
# Manifest changes

What the handler of manifest changes is told.
-/

namespace TransformHub.Host.Instances

open Js RestApi2 OrderedMap

/-! ## Chains -/

/-- A change goes on where the last one has left off. -/
def ManifestChange.Follows (change : ManifestChange) (last : Option ManifestChange) : Prop :=
  match last with
  | none =>
    change.action = .published ∧ change.previousRevision = none ∧ change.revision.isSome = true
  | some previous =>
    previous.action ≠ .removed ∧ change.owner = previous.owner ∧
      change.previousRevision = previous.revision ∧
      (change.action = .updated ∧ change.revision.isSome = true ∨
        change.action = .removed ∧ change.revision = none ∧ change.manifest = none)

/-- `published`, then any number of `updated`, then at most one `removed`. -/
inductive ManifestChain : List ManifestChange → Prop where
  | nil : ManifestChain []
  | next {changes : List ManifestChange} {change : ManifestChange} :
      ManifestChain changes → change.Follows changes.getLast? → ManifestChain (changes ++ [change])

namespace ManifestChain

variable {changes : List ManifestChange}

theorem removed_last (h : ManifestChain changes) :
    ∀ change ∈ changes.dropLast, change.action ≠ .removed := by
  induction h with
  | nil => simp
  | @next changes change h hfollows ih =>
    intro c hc
    rw [List.dropLast_concat] at hc
    cases hlast : changes.getLast? with
    | none =>
      rw [List.getLast?_eq_none_iff.mp hlast] at hc
      cases hc
    | some previous =>
      rw [hlast] at hfollows
      obtain ⟨before, rfl⟩ := List.getLast?_eq_some_iff.mp hlast
      rcases List.mem_append.mp hc with hc | hc
      · exact ih c (by rwa [List.dropLast_concat])
      · rw [List.mem_singleton.mp hc]
        exact hfollows.1

theorem revision_last (h : ManifestChain changes) {change : ManifestChange}
    (hlast : changes.getLast? = some change) (haction : change.action ≠ .removed) :
    change.revision.isSome = true := by
  cases h with
  | nil => cases hlast
  | @next changes change' h hfollows =>
    rw [List.getLast?_concat] at hlast
    cases hlast
    unfold ManifestChange.Follows at hfollows
    split at hfollows
    · exact hfollows.2.2
    · exact (hfollows.2.2.2.resolve_right fun hremoved => haction hremoved.1).2

end ManifestChain

namespace InstancesRegistry

/-! ## Registrations and their changes -/

section Definitions

variable (csi : ℕ → ICSI) (s : InstancesRegistry)

def changesOf (number : ℕ) : List ManifestChange :=
  s.changes.filter fun change => change.registration = number

def lastChange (number : ℕ) : Option ManifestChange := (s.changesOf number).getLast?

/-- A registration that has not been terminated, replaced or deleted. -/
def Active (number : ℕ) : Prop :=
  ∃ id r, s.manifestOwners.get? id = some r ∧ r.number = number ∧ r.terminated = false

/-- What the changes of a registration say about its manifest. -/
def reported (r : ManifestOwnerRegistration) : InstanceManifestResponse :=
  ⟨r.instanceId, r.sequenceId, (s.lastChange r.number).bind ManifestChange.revision,
    (s.lastChange r.number).bind ManifestChange.manifest, r.sequence⟩

structure Told (s : InstancesRegistry) : Prop where
  numbers : ∀ id r, s.manifestOwners.get? id = some r → r.number < s.registrations
  distinct : ∀ id id' r r', s.manifestOwners.get? id = some r → s.manifestOwners.get? id' = some r' →
    r.number = r'.number → id = id'
  past : ∀ change ∈ s.changes, change.registration < s.registrations
  chains : ∀ number, ManifestChain (s.changesOf number)
  /-- the last change is about the manifest that the store has -/
  manifests : ∀ id r, s.manifestOwners.get? id = some r →
    (s.instanceManifests.get? id).map InstanceManifestPublication.revision =
        (s.lastChange r.number).bind ManifestChange.revision ∧
      (s.instanceManifests.get? id).map InstanceManifestPublication.declaration =
        (s.lastChange r.number).bind ManifestChange.manifest
  owned : ∀ id r change, s.manifestOwners.get? id = some r → s.lastChange r.number = some change →
    change.owner = r.owner ∧ (r.terminated = false → change.action ≠ .removed)

/-- A registration that is over stays over, and nothing is told of it any more. -/
structure Silent (s s' : InstancesRegistry) : Prop where
  registrations : s.registrations ≤ s'.registrations
  closed : ∀ number < s.registrations, ¬ s.Active number →
    ¬ s'.Active number ∧ s'.changesOf number = s.changesOf number

end Definitions

variable {csi : ℕ → ICSI} {s s' s'' : InstancesRegistry} {id : String} {owner : ℕ}
  {r : ManifestOwnerRegistration} {reason : ManifestRemovalReason}

theorem Silent.refl (s : InstancesRegistry) : s.Silent s :=
  ⟨Nat.le_refl _, fun _ _ hover => ⟨hover, rfl⟩⟩

theorem Silent.trans (h : s.Silent s') (h' : s'.Silent s'') : s.Silent s'' where
  registrations := Nat.le_trans h.registrations h'.registrations
  closed := fun number hlt hover => by
    obtain ⟨hover', hsame⟩ := h.closed number hlt hover
    obtain ⟨hover'', hsame'⟩ := h'.closed number (Nat.lt_of_lt_of_le hlt h.registrations) hover'
    exact ⟨hover'', hsame'.trans hsame⟩

theorem changesOf_concat {change : ManifestChange} (hchanges : s'.changes = s.changes ++ [change])
    (number : ℕ) : s'.changesOf number =
      if change.registration = number then s.changesOf number ++ [change] else s.changesOf number := by
  unfold changesOf
  rw [hchanges, List.filter_append]
  split_ifs with hnumber <;> simp [hnumber]

/-- The same owners and manifests, and nothing told. -/
structure SameManifests (s s' : InstancesRegistry) : Prop where
  manifestOwners : s'.manifestOwners = s.manifestOwners
  instanceManifests : s'.instanceManifests = s.instanceManifests
  changes : s'.changes = s.changes
  registrations : s'.registrations = s.registrations

namespace SameManifests

theorem changesOf (h : s.SameManifests s') (number : ℕ) :
    s'.changesOf number = s.changesOf number := by
  unfold InstancesRegistry.changesOf
  rw [h.changes]

theorem lastChange (h : s.SameManifests s') (number : ℕ) :
    s'.lastChange number = s.lastChange number :=
  congrArg List.getLast? (h.changesOf number)

theorem told (h : s.SameManifests s') (ht : s.Told) : s'.Told := by
  refine ⟨fun id r hr => ?_, fun id id' r r' hr hr' => ?_, fun change hchange => ?_,
    fun number => ?_, fun id r hr => ?_, fun id r change hr hlast => ?_⟩
  · rw [h.registrations]
    exact ht.numbers id r (h.manifestOwners ▸ hr)
  · exact ht.distinct id id' r r' (h.manifestOwners ▸ hr) (h.manifestOwners ▸ hr')
  · rw [h.registrations]
    exact ht.past change (h.changes ▸ hchange)
  · rw [h.changesOf]
    exact ht.chains number
  · rw [h.instanceManifests, h.lastChange]
    exact ht.manifests id r (h.manifestOwners ▸ hr)
  · exact ht.owned id r change (h.manifestOwners ▸ hr) (h.lastChange r.number ▸ hlast)

theorem silent (h : s.SameManifests s') : s.Silent s' where
  registrations := Nat.le_of_eq h.registrations.symm
  closed := fun number _ hover => by
    refine ⟨?_, h.changesOf number⟩
    rintro ⟨id, r, hr, hactive⟩
    exact hover ⟨id, r, h.manifestOwners ▸ hr, hactive⟩

end SameManifests

/-! ## One operation -/

theorem Told.terminate (h : s.Told) (hget : s.manifestOwners.get? id = some r) :
    (s.terminate id r).Told ∧ s.Silent (s.terminate id r) := by
  have hgets : ∀ id' r', (s.terminate id r).manifestOwners.get? id' = some r' →
      ∃ r₀, s.manifestOwners.get? id' = some r₀ ∧ r'.number = r₀.number ∧ r'.owner = r₀.owner ∧
        (r'.terminated = false → r₀ = r') := by
    intro id' r' hr'
    rw [InstancesRegistry.terminate, get?_set] at hr'
    split_ifs at hr' with hkey
    · cases hr'
      exact ⟨r, hkey ▸ hget, rfl, rfl, fun hactive => by cases hactive⟩
    · exact ⟨r', hr', rfl, rfl, fun _ => rfl⟩
  refine ⟨⟨fun id' r' hr' => ?_, fun id₁ id₂ r₁ r₂ hr₁ hr₂ heq => ?_, h.past, h.chains,
    fun id' r' hr' => ?_, fun id' r' change hr' hlast => ?_⟩, Nat.le_refl _, fun number _ hover => ?_⟩
  · obtain ⟨r₀, hr₀, hnumber, -⟩ := hgets id' r' hr'
    rw [hnumber]
    exact h.numbers id' r₀ hr₀
  · obtain ⟨r₁', hr₁', hnumber₁, -⟩ := hgets id₁ r₁ hr₁
    obtain ⟨r₂', hr₂', hnumber₂, -⟩ := hgets id₂ r₂ hr₂
    exact h.distinct id₁ id₂ r₁' r₂' hr₁' hr₂' (by rw [← hnumber₁, ← hnumber₂, heq])
  · obtain ⟨r₀, hr₀, hnumber, -⟩ := hgets id' r' hr'
    rw [hnumber]
    exact h.manifests id' r₀ hr₀
  · obtain ⟨r₀, hr₀, hnumber, howner, hsame⟩ := hgets id' r' hr'
    rw [hnumber] at hlast
    obtain ⟨howned, haction⟩ := h.owned id' r₀ change hr₀ hlast
    refine ⟨howned.trans howner.symm, fun hactive => ?_⟩
    exact haction (by rw [hsame hactive, hactive])
  · refine ⟨?_, rfl⟩
    rintro ⟨id', r', hr', hnumber', hactive⟩
    obtain ⟨r₀, hr₀, hnumber, -, hsame⟩ := hgets id' r' hr'
    rw [hsame hactive] at hr₀
    exact hover ⟨id', r', hr₀, hnumber', hactive⟩

/-- The handler is told of a change of a registration, and the manifest of the instance becomes what
the change says. -/
theorem Told.tell (h : s.Told) {change : ManifestChange}
    (publication : Option InstanceManifestPublication)
    (hget : s.manifestOwners.get? id = some r) (hregistration : change.registration = r.number)
    (howner : change.owner = r.owner) (haction : r.terminated = false → change.action ≠ .removed)
    (hfollows : change.Follows (s.lastChange r.number))
    (hrevision : publication.map InstanceManifestPublication.revision = change.revision)
    (hmanifest : publication.map InstanceManifestPublication.declaration = change.manifest)
    (howners : s'.manifestOwners = s.manifestOwners)
    (hmanifests : ∀ id', s'.instanceManifests.get? id' =
      if id = id' then publication else s.instanceManifests.get? id')
    (hchanges : s'.changes = s.changes ++ [change])
    (hregistrations : s'.registrations = s.registrations) :
    s'.Told := by
  have hself : s'.lastChange r.number = some change := by
    rw [lastChange, changesOf_concat hchanges, if_pos hregistration, List.getLast?_concat]
  have hother : ∀ number, change.registration ≠ number →
      s'.lastChange number = s.lastChange number := by
    intro number hne
    rw [lastChange, changesOf_concat hchanges, if_neg hne]
    rfl
  have hcase : ∀ id' r', s.manifestOwners.get? id' = some r' → id ≠ id' →
      change.registration ≠ r'.number := by
    intro id' r' hr' hne heq
    exact hne (h.distinct id id' r r' hget hr' (hregistration.symm.trans heq))
  refine ⟨fun id' r' hr' => ?_, fun id₁ id₂ r₁ r₂ hr₁ hr₂ => ?_, fun c hc => ?_, fun number => ?_,
    fun id' r' hr' => ?_, fun id' r' c hr' hlast => ?_⟩
  · rw [hregistrations]
    exact h.numbers id' r' (howners ▸ hr')
  · exact h.distinct id₁ id₂ r₁ r₂ (howners ▸ hr₁) (howners ▸ hr₂)
  · rw [hregistrations]
    rw [hchanges] at hc
    rcases List.mem_append.mp hc with hc | hc
    · exact h.past c hc
    · rw [List.mem_singleton.mp hc, hregistration]
      exact h.numbers id r hget
  · rw [changesOf_concat hchanges]
    split_ifs with hnumber
    · refine .next (h.chains number) ?_
      rw [← hnumber, hregistration]
      exact hfollows
    · exact h.chains number
  · rw [howners] at hr'
    rw [hmanifests]
    split_ifs with hkey
    · subst hkey
      cases hget.symm.trans hr'
      rw [hself, Option.bind_some, Option.bind_some]
      exact ⟨hrevision, hmanifest⟩
    · rw [hother _ (hcase id' r' hr' hkey)]
      exact h.manifests id' r' hr'
  · rw [howners] at hr'
    by_cases hkey : id = id'
    · subst hkey
      cases hget.symm.trans hr'
      rw [hself] at hlast
      cases hlast
      exact ⟨howner, haction⟩
    · rw [hother _ (hcase id' r' hr' hkey)] at hlast
      exact h.owned id' r' c hr' hlast

theorem silent_tell {change : ManifestChange} (hactive : s.Active change.registration)
    (howners : ∀ number, s'.Active number → s.Active number)
    (hchanges : s'.changes = s.changes ++ [change])
    (hregistrations : s'.registrations = s.registrations) :
    s.Silent s' where
  registrations := Nat.le_of_eq hregistrations.symm
  closed := fun number _ hover => by
    refine ⟨fun hstill => hover (howners number hstill), ?_⟩
    rw [changesOf_concat hchanges, if_neg]
    rintro rfl
    exact hover hactive

theorem Told.removeManifest (h : s.Told) (hs : s.Registered csi) (owner : ℕ)
    (reason : ManifestRemovalReason) :
    (s.removeManifest csi owner reason).1.Told ∧ s.Silent (s.removeManifest csi owner reason).1 := by
  have hremoval := removal csi s owner reason
  generalize (s.removeManifest csi owner reason).1 = s' at hremoval ⊢
  cases hremoval with
  | none => exact ⟨h, .refl s⟩
  | silent r hget howner hactive hnone => exact h.terminate hget
  | removed r p hget howner hactive hsome =>
    obtain ⟨hterminated, hsilent⟩ := h.terminate hget
    obtain ⟨hp, hpowner⟩ := publicationOf_eq_some.mp hsome
    rw [hs.keyed _ r hget] at hp
    have hself : (s.terminate (csi owner).id r).manifestOwners.get? (csi owner).id =
        some { r with terminated := true } := get?_set_self _ _ _
    -- the last change published what is removed
    obtain ⟨hrevision, -⟩ := h.manifests _ r hget
    rw [hp, Option.map_some] at hrevision
    cases hlast : s.lastChange r.number with
    | none => simp [hlast] at hrevision
    | some last =>
      rw [hlast, Option.bind_some] at hrevision
      obtain ⟨hlastowner, hlastaction⟩ := h.owned _ r last hget hlast
      refine ⟨hterminated.tell none hself rfl howner.symm (fun hgo => nomatch hgo)
        ?_ rfl rfl rfl (fun id' => ?_) rfl rfl,
        silent_tell ⟨_, r, hget, rfl, hactive⟩ (fun number hstill => ?_) rfl rfl⟩
      · show ManifestChange.Follows _ (s.lastChange r.number)
        rw [hlast]
        exact ⟨hlastaction hactive, howner.symm.trans hlastowner.symm, hrevision,
          .inr ⟨rfl, rfl, rfl⟩⟩
      · rw [hs.keyed _ r hget]
        exact get?_delete _ _ _
      · by_contra hover
        have hlt : number < s.registrations := by
          obtain ⟨id', r', hr', hnumber, -⟩ := hstill
          rw [← hnumber]
          exact hterminated.numbers id' r' hr'
        exact (hsilent.closed number hlt hover).1 hstill

theorem Told.forget (h : s.Told) (s' : InstancesRegistry)
    (howners : ∀ id r, s'.manifestOwners.get? id = some r → s.manifestOwners.get? id = some r ∧
      s'.instanceManifests.get? id = s.instanceManifests.get? id)
    (hchanges : s'.changes = s.changes) (hregistrations : s'.registrations = s.registrations) :
    s'.Told ∧ s.Silent s' := by
  have hchangesOf : ∀ number, s'.changesOf number = s.changesOf number := by
    intro number
    unfold changesOf
    rw [hchanges]
  have hlast : ∀ number, s'.lastChange number = s.lastChange number := fun number =>
    congrArg List.getLast? (hchangesOf number)
  refine ⟨⟨fun id r hr => ?_, fun id id' r r' hr hr' => ?_, fun change hchange => ?_,
    fun number => ?_, fun id r hr => ?_, fun id r change hr hlast' => ?_⟩,
    Nat.le_of_eq hregistrations.symm, fun number _ hover => ⟨?_, hchangesOf number⟩⟩
  · rw [hregistrations]
    exact h.numbers id r (howners id r hr).1
  · exact h.distinct id id' r r' (howners id r hr).1 (howners id' r' hr').1
  · rw [hregistrations]
    exact h.past change (hchanges ▸ hchange)
  · rw [hchangesOf]
    exact h.chains number
  · rw [hlast, (howners id r hr).2]
    exact h.manifests id r (howners id r hr).1
  · exact h.owned id r change (howners id r hr).1 (hlast r.number ▸ hlast')
  · rintro ⟨id, r, hr, hactive⟩
    exact hover ⟨id, r, (howners id r hr).1, hactive⟩

theorem Told.capture (h : s.Told) (csi : ℕ → ICSI) (hnone : s.instanceManifests.get? id = none)
    (value : ℕ) :
    (s.captureManifestOwner csi id value).Told ∧ s.Silent (s.captureManifestOwner csi id value) := by
  have hfresh : s.changesOf s.registrations = [] := by
    refine List.filter_eq_nil_iff.mpr fun change hchange heq => ?_
    have hlt := h.past change hchange
    rw [of_decide_eq_true heq] at hlt
    exact Nat.lt_irrefl _ hlt
  have hfreshLast : s.lastChange s.registrations = none := by rw [lastChange, hfresh]; rfl
  have hgets : ∀ id' r', (s.captureManifestOwner csi id value).manifestOwners.get? id' = some r' →
      id = id' ∧ r'.number = s.registrations ∨ id ≠ id' ∧ s.manifestOwners.get? id' = some r' := by
    intro id' r' hr'
    rw [captureManifestOwner, get?_set] at hr'
    split_ifs at hr' with hkey
    · cases hr'
      exact .inl ⟨hkey, rfl⟩
    · exact .inr ⟨hkey, hr'⟩
  refine ⟨⟨fun id' r' hr' => ?_, fun id₁ id₂ r₁ r₂ hr₁ hr₂ heq => ?_, fun change hchange => ?_,
    h.chains, fun id' r' hr' => ?_, fun id' r' change hr' hlast => ?_⟩,
    Nat.le_succ _, fun number hlt hover => ⟨?_, rfl⟩⟩
  · show r'.number < s.registrations + 1
    rcases hgets id' r' hr' with ⟨-, hnumber⟩ | ⟨-, hr'⟩
    · rw [hnumber]
      exact Nat.lt_succ_self _
    · exact Nat.lt_succ_of_lt (h.numbers id' r' hr')
  · rcases hgets id₁ r₁ hr₁ with ⟨rfl, hnumber₁⟩ | ⟨-, hr₁⟩ <;>
      rcases hgets id₂ r₂ hr₂ with ⟨rfl, hnumber₂⟩ | ⟨-, hr₂⟩
    · rfl
    · have hlt := h.numbers id₂ r₂ hr₂
      omega
    · have hlt := h.numbers id₁ r₁ hr₁
      omega
    · exact h.distinct id₁ id₂ r₁ r₂ hr₁ hr₂ heq
  · exact Nat.lt_succ_of_lt (h.past change hchange)
  · show (s.instanceManifests.get? id').map _ = (s.lastChange r'.number).bind _ ∧
      (s.instanceManifests.get? id').map _ = (s.lastChange r'.number).bind _
    rcases hgets id' r' hr' with ⟨rfl, hnumber⟩ | ⟨-, hr'⟩
    · rw [hnumber, hfreshLast, hnone]
      exact ⟨rfl, rfl⟩
    · exact h.manifests id' r' hr'
  · rcases hgets id' r' hr' with ⟨-, hnumber⟩ | ⟨-, hr'⟩
    · have hsome : s.lastChange s.registrations = some change := hnumber ▸ hlast
      rw [hfreshLast] at hsome
      cases hsome
    · exact h.owned id' r' change hr' hlast
  · rintro ⟨id', r', hr', hnumber', hactive⟩
    rcases hgets id' r' hr' with ⟨-, hnumber⟩ | ⟨-, hr'⟩
    · omega
    · exact hover ⟨id', r', hr', hnumber', hactive⟩

theorem Registered.publicationOf_eq (hs : s.Registered csi)
    (hget : s.manifestOwners.get? id = some r) :
    s.publicationOf r.instanceId r.owner = s.instanceManifests.get? id := by
  rw [publicationOf, hs.keyed _ r hget]
  cases hp : s.instanceManifests.get? id with
  | none => rfl
  | some p =>
    obtain ⟨-, r', hr', -, howner'⟩ := hs.manifests _ p hp
    cases hget.symm.trans hr'
    rw [Option.filter_some, decide_eq_true howner'.symm]
    rfl

section

variable (h : s.Told) (hs : s.Registered csi)
include h hs

theorem Told.publishManifest {declaration : JsValue}
    {revision : Revision} {receipt : ManifestReceipt}
    (hok : s.publishManifest csi owner declaration revision = .ok (s', receipt)) :
    s'.Told ∧ s.Silent s' := by
  obtain ⟨r, manifest, hget, howner, hactive, -, -, rfl⟩ := publishManifest_eq_ok hok
  have hpublication := hs.publicationOf_eq hget
  rw [howner] at hpublication
  refine ⟨h.tell (some ⟨owner, manifest, revision⟩) hget rfl howner.symm
    (fun _ => ?_) ?_ rfl rfl rfl (fun id' => ?_) rfl rfl,
    silent_tell ⟨_, r, hget, rfl, hactive⟩ (fun _ hstill => hstill) rfl rfl⟩
  · dsimp only
    split_ifs <;> simp
  · obtain ⟨hrevision, -⟩ := h.manifests _ r hget
    rw [hpublication]
    cases hlast : s.lastChange r.number with
    | none =>
      -- nothing has been published yet
      rw [hlast, Option.bind_none, Option.map_eq_none_iff] at hrevision
      rw [hrevision]
      exact ⟨rfl, rfl, rfl⟩
    | some last =>
      obtain ⟨hlastowner, hlastaction⟩ := h.owned _ r last hget hlast
      have hlastaction := hlastaction hactive
      have hsome := (h.chains r.number).revision_last hlast hlastaction
      rw [hlast, Option.bind_some] at hrevision
      have hpublished : (s.instanceManifests.get? (csi owner).id).isSome = true := by
        rw [← hrevision, Option.isSome_map] at hsome
        exact hsome
      rw [hpublished, hrevision]
      exact ⟨hlastaction, howner.symm.trans hlastowner.symm, rfl, .inl ⟨rfl, rfl⟩⟩
  · dsimp only
    rw [get?_set, hs.keyed _ r hget]

theorem Told.set (id : String) (value : ℕ) :
    (s.set csi id value).Told ∧ s.Silent (s.set csi id value) := by
  -- what follows the registration changes no owner and no manifest
  have hstored : ∀ {s₁ : InstancesRegistry}, s₁.Told → s.Silent s₁ →
      s₁.SameManifests (s.set csi id value) →
        (s.set csi id value).Told ∧ s.Silent (s.set csi id value) := fun ht hsilent hsame =>
    ⟨hsame.told ht, hsilent.trans hsame.silent⟩
  cases hget : s.get? id with
  | none =>
    have hnone : s.instanceManifests.get? id = none := by
      by_contra hsome
      obtain ⟨p, hp⟩ := Option.ne_none_iff_exists'.mp hsome
      have hlive := hs.manifest_live hp
      rw [hget] at hlive
      cases hlive
    obtain ⟨htold, hsilent⟩ := h.capture csi hnone value
    refine hstored htold hsilent ?_
    unfold InstancesRegistry.set replaceOwner
    rw [hget]
    dsimp only
    rw [if_pos (.inl (by simp))]
    exact ⟨rfl, rfl, rfl, rfl⟩
  | some current =>
    by_cases hsame : current = value
    · subst hsame
      have hhas : s.manifestOwners.has id = true := by
        have howners := congrArg Option.isSome (hs.owners id)
        rwa [Option.isSome_map, hget] at howners
      refine hstored h (.refl s) ?_
      unfold InstancesRegistry.set replaceOwner
      rw [hget]
      dsimp only
      rw [if_pos rfl, if_neg (by simp [hhas])]
      exact ⟨rfl, rfl, rfl, rfl⟩
    · obtain ⟨hremoved, hsilent⟩ := h.removeManifest hs current .instanceReplaced
      obtain ⟨hforgotten, hsilent'⟩ := hremoved.forget {
          (s.removeManifest csi current .instanceReplaced).1 with
          manifestOwners := (s.removeManifest csi current .instanceReplaced).1.manifestOwners.delete id }
        (fun id' r hr => by
          rw [get?_delete] at hr
          split_ifs at hr
          exact ⟨hr, rfl⟩) rfl rfl
      have hnone := hs.no_manifest hget .instanceReplaced
      obtain ⟨htold, hsilent''⟩ := hforgotten.capture csi hnone value
      refine hstored htold ((hsilent.trans hsilent').trans hsilent'') ?_
      unfold InstancesRegistry.set replaceOwner
      rw [hget]
      dsimp only
      rw [if_neg hsame, if_pos (.inl (by simpa using hsame))]
      exact ⟨rfl, rfl, rfl, rfl⟩

theorem Told.delete (id : String) : (s.delete csi id).Told ∧ s.Silent (s.delete csi id) := by
  have hforget : ∀ {s₁ : InstancesRegistry}, s₁.Told → s.Silent s₁ →
      (s.delete csi id).manifestOwners = s₁.manifestOwners.delete id →
      (s.delete csi id).instanceManifests = s₁.instanceManifests.delete id →
      (s.delete csi id).changes = s₁.changes → (s.delete csi id).registrations = s₁.registrations →
        (s.delete csi id).Told ∧ s.Silent (s.delete csi id) := by
    intro s₁ htold hsilent howners hmanifests hchanges hregistrations
    obtain ⟨htold', hsilent'⟩ := htold.forget (s.delete csi id) (fun id' r hr => by
      rw [howners, get?_delete] at hr
      split_ifs at hr with hkey
      rw [hmanifests, get?_delete_of_ne _ hkey]
      exact ⟨hr, rfl⟩) hchanges hregistrations
    exact ⟨htold', hsilent.trans hsilent'⟩
  cases hget : s.get? id with
  | none =>
    refine hforget h (.refl s) ?_ ?_ ?_ ?_ <;>
      · unfold InstancesRegistry.delete
        rw [hget]
  | some current =>
    obtain ⟨hremoved, hsilent⟩ := h.removeManifest hs current .instanceDeleted
    refine hforget hremoved hsilent ?_ ?_ ?_ ?_ <;>
      · unfold InstancesRegistry.delete
        rw [hget]

theorem Told.removeAll (rs : List ManifestOwnerRegistration) :
    (rs.foldl (fun s r => (s.removeManifest csi r.owner .hostStopped).1) s).Told ∧
      s.Silent (rs.foldl (fun s r => (s.removeManifest csi r.owner .hostStopped).1) s) := by
  induction rs generalizing s with
  | nil => exact ⟨h, .refl s⟩
  | cons r rs ih =>
    obtain ⟨htold, hsilent⟩ := h.removeManifest hs r.owner .hostStopped
    obtain ⟨htold', hsilent'⟩ := ih htold (hs.removeManifest r.owner .hostStopped)
    exact ⟨htold', hsilent.trans hsilent'⟩

theorem Told.clear : (s.clear csi).Told ∧ s.Silent (s.clear csi) := by
  obtain ⟨htold, hsilent⟩ := h.removeAll hs s.manifestOwners.values
  obtain ⟨htold', hsilent'⟩ := htold.forget (s.clear csi) (fun _ _ hr => nomatch hr) rfl rfl
  exact ⟨htold', hsilent.trans hsilent'⟩

theorem Told.next (a : RegistryAction) : (s.next csi a).Told ∧ s.Silent (s.next csi a) := by
  have hsame : ∀ {s' : InstancesRegistry}, s.SameManifests s' → s'.Told ∧ s.Silent s' := fun hsame =>
    ⟨hsame.told h, hsame.silent⟩
  cases a with
  | set id value => exact h.set hs id value
  | delete id => exact h.delete hs id
  | clear => exact h.clear hs
  | reserveId | releaseId | reserveName | registerName | unregisterName | registerRpc | unregisterRpc =>
    exact hsame ⟨rfl, rfl, rfl, rfl⟩
  | publishManifest owner declaration revision =>
    simp only [InstancesRegistry.next]
    split
    · exact ⟨h, .refl s⟩
    · rename_i hok
      exact h.publishManifest hs hok
  | removeManifest owner reason => exact h.removeManifest hs owner reason

end

/-! ## What the store answers -/

theorem Told.getManifest_eq (h : s.Told) (hs : s.Registered csi) (owner : ℕ) :
    s.getManifest csi owner = (s.currentOwner csi owner).map s.reported := by
  unfold getManifest
  cases hcurrent : s.currentOwner csi owner with
  | none => rfl
  | some r =>
    have hget : s.manifestOwners.get? (csi owner).id = some r ∧ r.owner = owner := by
      unfold currentOwner at hcurrent
      split at hcurrent
      · cases hcurrent
      · rename_i r' hr'
        split_ifs at hcurrent with hlive
        cases hcurrent
        exact ⟨hr', hlive.1⟩
    obtain ⟨hget, rfl⟩ := hget
    obtain ⟨hrevision, hmanifest⟩ := h.manifests _ r hget
    have hpublication : (if r.terminated = true then none else s.publicationOf r.instanceId r.owner) =
        s.instanceManifests.get? (csi r.owner).id := by
      rw [hs.publicationOf_eq hget]
      split_ifs with hterminated
      · by_contra hsome
        obtain ⟨p, hp⟩ := Option.ne_none_iff_exists'.mp (Ne.symm hsome)
        obtain ⟨-, r', hr', hactive, -⟩ := hs.manifests _ p hp
        cases hget.symm.trans hr'
        rw [hterminated] at hactive
        cases hactive
      · rfl
    dsimp only
    rw [hpublication, Option.map_some, reported, ← hrevision, ← hmanifest]
    congr 2
    cases s.instanceManifests.get? (csi r.owner).id with
    | none => rfl
    | some p => exact snapshot_json p.declaration

theorem Told.getSequenceManifests_eq (h : s.Told) (hs : s.Registered csi) (sequenceId : String) :
    s.getSequenceManifests sequenceId = (s.manifestOwners.values.filter fun r =>
      r.sequenceId = sequenceId ∧ r.terminated = false ∧ (s.lastChange r.number).isSome).map
        s.reported := by
  unfold getSequenceManifests
  rw [← List.filterMap_eq_map, List.filterMap_filter]
  refine List.filterMap_congr fun r hr => ?_
  obtain ⟨id, hget⟩ := mem_values_iff.mp hr
  obtain ⟨hrevision, hmanifest⟩ := h.manifests _ r hget
  have hlive : s.get? r.instanceId = some r.owner := by
    rw [hs.keyed _ r hget, ← hs.owners id, hget]
    rfl
  rw [hs.publicationOf_eq hget]
  by_cases hlisted : r.sequenceId = sequenceId ∧ r.terminated = false
  · rw [if_neg (by simp [hlisted, hlive])]
    cases hp : s.instanceManifests.get? id with
    | none =>
      -- nothing has been told
      have hnone : s.lastChange r.number = none := by
        cases hlast : s.lastChange r.number with
        | none => rfl
        | some last =>
          have haction := (h.owned id r last hget hlast).2 hlisted.2
          have hsome := (h.chains r.number).revision_last hlast haction
          rw [hp, hlast, Option.bind_some, Option.map_none] at hrevision
          rw [← hrevision] at hsome
          cases hsome
      simp [hnone]
    | some p =>
      rw [hp, Option.map_some] at hrevision hmanifest
      have hsome : (s.lastChange r.number).isSome = true := by
        cases hlast : s.lastChange r.number with
        | none => simp [hlast] at hrevision
        | some last => rfl
      rw [if_pos (by simp [hlisted, hsome]), Option.map_some, Function.comp_apply, reported,
        ← hrevision, ← hmanifest, snapshot_json]
  · rw [if_pos, if_neg]
    · simp only [decide_eq_true_eq]
      exact fun hall => hlisted ⟨hall.1, hall.2.1⟩
    · by_cases hsequence : r.sequenceId = sequenceId
      · exact .inr (.inl (by simpa [hsequence] using hlisted))
      · exact .inl hsequence

/-! ## Runs -/

theorem told_foldl (csi : ℕ → ICSI) (as : List RegistryAction) (h : s.Told)
    (hs : s.Registered csi) :
    ((as.foldl (InstancesRegistry.next csi) s).Told ∧
      (as.foldl (InstancesRegistry.next csi) s).Registered csi) ∧
      s.Silent (as.foldl (InstancesRegistry.next csi) s) := by
  induction as generalizing s with
  | nil => exact ⟨⟨h, hs⟩, .refl s⟩
  | cons a as ih =>
    obtain ⟨htold, hsilent⟩ := h.next hs a
    obtain ⟨hrest, hsilent'⟩ := ih htold (hs.next a)
    exact ⟨hrest, hsilent.trans hsilent'⟩

theorem told_new : new.Told where
  numbers := fun _ _ hr => nomatch hr
  distinct := fun _ _ _ _ hr => nomatch hr
  past := fun _ hchange => nomatch hchange
  chains := fun _ => .nil
  manifests := fun _ _ hr => nomatch hr
  owned := fun _ _ _ hr => nomatch hr

/-- In every run the changes of each registration of an owner form a chain, to which nothing is
added once the registration is over, and the store answers with what has been told last. -/
theorem changes_chained (csi : ℕ → ICSI) (as bs : List RegistryAction) :
    (∀ number, ManifestChain ((as.foldl (InstancesRegistry.next csi) new).changesOf number)) ∧
    (∀ number < (as.foldl (InstancesRegistry.next csi) new).registrations,
      ¬ (as.foldl (InstancesRegistry.next csi) new).Active number →
        ((as ++ bs).foldl (InstancesRegistry.next csi) new).changesOf number =
          (as.foldl (InstancesRegistry.next csi) new).changesOf number) ∧
    (∀ owner, (as.foldl (InstancesRegistry.next csi) new).getManifest csi owner =
      ((as.foldl (InstancesRegistry.next csi) new).currentOwner csi owner).map
        (as.foldl (InstancesRegistry.next csi) new).reported) ∧
    ∀ sequenceId, (as.foldl (InstancesRegistry.next csi) new).getSequenceManifests sequenceId =
      ((as.foldl (InstancesRegistry.next csi) new).manifestOwners.values.filter fun r =>
        r.sequenceId = sequenceId ∧ r.terminated = false ∧
          ((as.foldl (InstancesRegistry.next csi) new).lastChange r.number).isSome).map
        (as.foldl (InstancesRegistry.next csi) new).reported := by
  obtain ⟨⟨htold, hregistered⟩, -⟩ := told_foldl csi as told_new (registered_empty rfl rfl rfl)
  obtain ⟨-, hsilent⟩ := told_foldl csi bs htold hregistered
  refine ⟨htold.chains, fun number hlt hover => ?_, htold.getManifest_eq hregistered,
    htold.getSequenceManifests_eq hregistered⟩
  rw [List.foldl_append]
  exact (hsilent.closed number hlt hover).2

/-- An owner that is stored again publishes a second time. -/
def storedAgain : List RegistryAction :=
  [.set "instance" 0, .publishManifest 0 (.obj true []) ⟨"first", by decide⟩, .delete "instance",
    .set "instance" 0, .publishManifest 0 (.obj true []) ⟨"second", by decide⟩]

theorem storedAgain_publishes :
    ¬ ∀ (csi : ℕ → ICSI) (as : List RegistryAction) (owner : ℕ),
      ManifestChain ((as.foldl (InstancesRegistry.next csi) new).changes.filter fun change =>
        change.owner = owner) := by
  intro hall
  obtain ⟨changes, hchanges⟩ : ∃ changes, changes =
      (storedAgain.foldl (InstancesRegistry.next fun _ => ⟨"instance", none⟩) new).changes.filter
        fun change => change.owner = 0 := ⟨_, rfl⟩
  have hchain := hall (fun _ => ⟨"instance", none⟩) storedAgain 0
  rw [← hchanges] at hchain
  have hactions : changes.dropLast.map ManifestChange.action = [.published, .removed] := by
    rw [hchanges]
    decide +kernel
  have hmem : ManifestAction.removed ∈ changes.dropLast.map ManifestChange.action := by
    rw [hactions]
    decide
  obtain ⟨change, hchange, haction⟩ := List.mem_map.mp hmem
  exact hchain.removed_last change hchange haction

end InstancesRegistry

end TransformHub.Host.Instances
