import TransformHub.Manager.StorageRoutersIndex

/-!
# The entries of the storage index

Each name is followed on its own: it is listed at most once, and where what is listed and what is
stored differ, an upload or a deletion of that name, or a `clearIndex`, is on its way.
-/

namespace TransformHub.Manager.StorageRouters

open OrderedMap

/-! ## Files -/

theorem metadataName_ne_indexName (name : String) : metadataName name ≠ indexName := by
  intro h
  have h := congrArg (fun name => name.toList.getLast?) h
  simp [metadataName, indexName] at h

theorem metadataName_ne (name : String) : metadataName name ≠ name := by
  intro h
  have h := congrArg (fun name => name.toList.length) h
  simp [metadataName] at h

namespace Files

variable {files : Files} {kind : StoreKind} {name other id : String}

theorem hasPackage_set_package : Files.hasPackage (set files name (.package id)) name = true := by
  rw [hasPackage, get?_set_self]

theorem hasPackage_set_of_ne (h : other ≠ name) (content : Content) :
    Files.hasPackage (set files other content) name = files.hasPackage name := by
  rw [hasPackage, get?_set_of_ne _ h, hasPackage]

theorem hasPackage_delete_of_ne (h : other ≠ name) :
    Files.hasPackage (delete files other) name = files.hasPackage name := by
  rw [hasPackage, get?_delete_of_ne _ h, hasPackage]

theorem hasPackage_delete_self : Files.hasPackage (delete files name) name = false := by
  rw [hasPackage, get?_delete_self]

theorem hasPackage_metadataName (hplain : ∀ name, files.hasPackage name = true → Plain .disk name) :
    files.hasPackage (metadataName name) = false := by
  rw [Bool.eq_false_iff]
  intro h
  exact (hplain _ h).2 rfl name rfl

theorem hasPackage_delete_metadata
    (hplain : ∀ name, files.hasPackage name = true → Plain .disk name) :
    Files.hasPackage (delete files (metadataName other)) name =
      files.hasPackage name := by
  by_cases h : metadataName other = name
  · subst h
    rw [hasPackage_metadataName hplain, hasPackage_delete_self]
  · exact hasPackage_delete_of_ne h

theorem hasPackage_putObject_self : (files.putObject kind name id).hasPackage name = true := by
  cases kind with
  | s3 => exact hasPackage_set_package
  | disk =>
    rw [putObject, hasPackage_set_of_ne (metadataName_ne name)]
    exact hasPackage_set_package

theorem hasPackage_putObject_of_ne (hplain : ∀ name, files.hasPackage name = true → Plain kind name)
    (h : other ≠ name) :
    (files.putObject kind other id).hasPackage name = files.hasPackage name := by
  cases kind with
  | s3 => exact hasPackage_set_of_ne h _
  | disk =>
    rw [putObject]
    by_cases hname : metadataName other = name
    · subst hname
      rw [hasPackage_metadataName hplain, hasPackage, get?_set_self]
    · rw [hasPackage_set_of_ne hname, hasPackage_set_of_ne h]

theorem hasPackage_removeObject_self :
    (files.removeObject kind name).1.hasPackage name = false := by
  cases kind with
  | s3 | disk => exact hasPackage_delete_self

theorem hasPackage_removeObject_of_ne
    (hplain : ∀ name, files.hasPackage name = true → Plain kind name) (h : other ≠ name) :
    (files.removeObject kind other).1.hasPackage name = files.hasPackage name := by
  cases kind with
  | s3 => exact hasPackage_delete_of_ne h
  | disk =>
    show Files.hasPackage (delete (delete files _) other) name = _
    rw [hasPackage_delete_of_ne h, hasPackage_delete_metadata hplain]

theorem removeObject_of_hasPackage (h : files.hasPackage name = true) :
    (files.removeObject kind name).2 = true := by
  cases kind with
  | s3 => rfl
  | disk =>
    show has files name = true
    rw [hasPackage] at h
    split at h
    · next id hget =>
        rw [has, hget]
        rfl
    · cases h

theorem has_of_removeObject (h : (files.removeObject kind name).2 = false) :
    kind = .disk ∧ files.has name = false := by
  cases kind with
  | s3 => cases h
  | disk => exact ⟨rfl, h⟩

theorem not_hasPackage_of_not_has (h : files.has name = false) : files.hasPackage name = false := by
  rw [has, Option.isSome_eq_false_iff, Option.isNone_iff_eq_none] at h
  rw [hasPackage, h]

theorem get?_putObject_index (h : name ≠ indexName) :
    (files.putObject kind name id).get? indexName = files.get? indexName := by
  cases kind with
  | s3 => exact get?_set_of_ne _ h _
  | disk =>
    rw [putObject, get?_set_of_ne _ (metadataName_ne_indexName name),
      get?_set_of_ne _ h]

theorem get?_removeObject_index (h : name ≠ indexName) :
    (files.removeObject kind name).1.get? indexName = files.get? indexName := by
  cases kind with
  | s3 => exact get?_delete_of_ne _ h
  | disk =>
    show (delete (delete files _) name).get? indexName = _
    rw [get?_delete_of_ne _ h,
      get?_delete_of_ne _ (metadataName_ne_indexName name)]

theorem has_delete (h : files.has name = false) : (delete files other).has name = false := by
  rw [has] at h ⊢
  rw [get?_delete]
  split
  · rfl
  · exact h

theorem has_removeObject (h : files.has name = false) :
    (files.removeObject kind other).1.has name = false := by
  cases kind with
  | s3 => exact has_delete h
  | disk => exact has_delete (has_delete h)

end Files

/-! ## One name -/

namespace Operation

def Puts (name : String) : Operation → Prop
  | .putting sequence _ => sequence.filename = name
  | _ => False

/-- It has put a package, and the index has not followed yet. -/
def HasPut (name : String) : Operation → Prop
  | .putting sequence stored => sequence.filename = name ∧ stored = true
  | _ => False

/-- It has removed a package, and the index has not followed yet. -/
def Removed (name : String) : Operation → Prop
  | .removing filename removed => filename = name ∧ removed = some true
  | .clearing _ (item :: _) removed => item.filename = name ∧ removed = some true
  | _ => False

variable {name : String} {operation : Operation}

theorem HasPut.puts (h : operation.HasPut name) : operation.Puts name := by
  cases operation <;> first | exact h.1 | exact h.elim

theorem Puts.uploads (h : operation.Puts name) : operation.Uploads name := by
  cases operation <;> first | exact h | exact h.elim

theorem Removed.removes (h : operation.Removed name) :
    operation.Removes name ∨ operation.isClearing = true := by
  cases operation with
  | removing filename removed => exact .inl h.1
  | clearing results items removed => exact .inr rfl
  | _ => exact h.elim

theorem Removed.isActive (h : operation.Removed name) : operation.isActive = true := by
  cases operation <;> first | rfl | exact h.elim

theorem not_uploads_of_not_active (h : operation.isActive = false) : ¬ operation.Uploads name := by
  intro hnot
  rw [hnot.isActive] at h
  cases h

theorem not_removed_of_not_active (h : operation.isActive = false) : ¬ operation.Removed name := by
  intro hnot
  rw [hnot.isActive] at h
  cases h

end Operation

def listings (sequences : List SequenceInfo) (name : String) : ℕ :=
  sequences.countP fun sequence => sequence.filename = name

/-- The operations on a name do not overlap. -/
structure Separate (kind : StoreKind) (operations : List Operation) (name : String) : Prop where
  plain : ∀ {k : ℕ} {o : Operation}, operations[k]? = some o → o.Uploads name → Plain kind name
  unique : ∀ {k l : ℕ} {o p : Operation}, operations[k]? = some o → o.Uploads name →
    operations[l]? = some p → p.Uploads name → l = k
  apart : ∀ {k l : ℕ} {o p : Operation}, operations[k]? = some o → o.Uploads name →
    operations[l]? = some p → ¬ p.Removes name
  reserved : ∀ {k : ℕ} {o : Operation}, operations[k]? = some o → o.Removes name → name ≠ indexName

/-- What is stored under a name and listed agree, but for an operation that is on its way. -/
structure Accounted (kind : StoreKind) (operations : List Operation) (name : String)
    (stored : Bool) (listed : ℕ) : Prop where
  once : listed ≤ 1
  plain : stored = true → Plain kind name
  entry : stored = true → listed = 1 ∨
    ∃ (k : ℕ) (o : Operation), operations[k]? = some o ∧ o.Puts name
  object : listed = 1 → stored = true ∨
    ∃ (k : ℕ) (o : Operation), operations[k]? = some o ∧ o.Removed name
  fresh : ∀ {k : ℕ} {o : Operation}, operations[k]? = some o → o.Uploads name → listed = 0
  put : ∀ {k : ℕ} {o : Operation}, operations[k]? = some o → o.HasPut name → stored = true
  removed : ∀ {k : ℕ} {o : Operation}, operations[k]? = some o → o.Removed name → stored = false

section Operations

variable {kind : StoreKind} {operations : List Operation} {name : String} {stored : Bool}
  {listed k : ℕ} {o o' : Operation}

theorem getElem?_set_cases {l : ℕ} {p : Operation} (h : (operations.set k o')[l]? = some p) :
    l = k ∧ p = o' ∨ l ≠ k ∧ operations[l]? = some p := by
  by_cases hl : l = k
  · subst hl
    obtain ⟨hlt, heq⟩ := List.getElem?_eq_some_iff.mp h
    rw [List.getElem_set_self] at heq
    exact .inl ⟨rfl, heq.symm⟩
  · rw [List.getElem?_set_ne (Ne.symm hl)] at h
    exact .inr ⟨hl, h⟩

theorem getElem?_set_of_exists {P : Operation → Prop} (hk : operations[k]? = some o)
    (hgoes : P o → P o') (h : ∃ (l : ℕ) (p : Operation), operations[l]? = some p ∧ P p) :
    ∃ (l : ℕ) (p : Operation), (operations.set k o')[l]? = some p ∧ P p := by
  obtain ⟨l, p, hl, hp⟩ := h
  by_cases hlk : l = k
  · subst hlk
    cases hk.symm.trans hl
    exact ⟨l, o', List.getElem?_set_self (List.getElem?_eq_some_iff.mp hk).1, hgoes hp⟩
  · exact ⟨l, p, (List.getElem?_set_ne (Ne.symm hlk)).trans hl, hp⟩

theorem getElem?_append_of_exists {P : Operation → Prop}
    (h : ∃ (l : ℕ) (p : Operation), operations[l]? = some p ∧ P p) :
    ∃ (l : ℕ) (p : Operation), (operations ++ [o'])[l]? = some p ∧ P p := by
  obtain ⟨l, p, hl, hp⟩ := h
  exact ⟨l, p, getElem?_append_of_some hl, hp⟩

/-! ### An operation goes on -/

theorem Separate.set (h : Separate kind operations name) (hk : operations[k]? = some o)
    (huploads : o'.Uploads name → o.Uploads name) (hremoves : o'.Removes name → o.Removes name) :
    Separate kind (operations.set k o') name := by
  -- each operation has an earlier stage, at the same place
  have hcases : ∀ {l : ℕ} {p : Operation}, (operations.set k o')[l]? = some p →
      ∃ q, operations[l]? = some q ∧ (p.Uploads name → q.Uploads name) ∧
        (p.Removes name → q.Removes name) := by
    intro l p hl
    rcases getElem?_set_cases hl with ⟨rfl, rfl⟩ | ⟨-, hl⟩
    · exact ⟨o, hk, huploads, hremoves⟩
    · exact ⟨p, hl, id, id⟩
  constructor
  case plain =>
    intro l p hl hp
    obtain ⟨q, hq, hup, -⟩ := hcases hl
    exact h.plain hq (hup hp)
  case unique =>
    intro l p l' p' hl hp hl' hp'
    obtain ⟨q, hq, hup, -⟩ := hcases hl
    obtain ⟨q', hq', hup', -⟩ := hcases hl'
    exact h.unique hq (hup hp) hq' (hup' hp')
  case apart =>
    intro l p l' p' hl hp hl' hp'
    obtain ⟨q, hq, hup, -⟩ := hcases hl
    obtain ⟨q', hq', -, hrem⟩ := hcases hl'
    exact h.apart hq (hup hp) hq' (hrem hp')
  case reserved =>
    intro l p hl hp
    obtain ⟨q, hq, -, hrem⟩ := hcases hl
    exact h.reserved hq (hrem hp)

section

variable (h : Accounted kind operations name stored listed)
include h

theorem Accounted.keep (hk : operations[k]? = some o) (huploads : o'.Uploads name → o.Uploads name)
    (hputs : stored = true → o.Puts name → o'.Puts name)
    (hput : o'.HasPut name → stored = true)
    (hgone : o.Removed name → o'.Removed name) (hremoved : o'.Removed name → stored = false) :
    Accounted kind (operations.set k o') name stored listed := by
  constructor
  case once => exact h.once
  case plain => exact h.plain
  case entry =>
    intro hstored
    exact (h.entry hstored).imp id (getElem?_set_of_exists hk (hputs hstored))
  case object =>
    intro hlisted
    exact (h.object hlisted).imp id (getElem?_set_of_exists hk hgone)
  case fresh =>
    intro l p hl hp
    rcases getElem?_set_cases hl with ⟨rfl, rfl⟩ | ⟨-, hl⟩
    · exact h.fresh hk (huploads hp)
    · exact h.fresh hl hp
  case put =>
    intro l p hl hp
    rcases getElem?_set_cases hl with ⟨rfl, rfl⟩ | ⟨-, hl⟩
    · exact hput hp
    · exact h.put hl hp
  case removed =>
    intro l p hl hp
    rcases getElem?_set_cases hl with ⟨rfl, rfl⟩ | ⟨-, hl⟩
    · exact hremoved hp
    · exact h.removed hl hp

theorem Accounted.keep_idle (hk : operations[k]? = some o) (ho' : o'.isActive = false)
    (hputs : stored = true → ¬ o.Puts name) (hgone : ¬ o.Removed name) :
    Accounted kind (operations.set k o') name stored listed := by
  have huploads : ¬ o'.Uploads name := Operation.not_uploads_of_not_active ho'
  apply h.keep hk
  · exact fun hnot => absurd hnot huploads
  · exact fun hstored hnot => absurd hnot (hputs hstored)
  · exact fun hnot => absurd hnot.puts.uploads huploads
  · exact fun hnot => absurd hnot hgone
  · exact fun hnot => absurd hnot (Operation.not_removed_of_not_active ho')

theorem Accounted.putPackage
    (hk : operations[k]? = some o) (huploads : o.Uploads name) (hplain : Plain kind name)
    (hputs : o'.Puts name)
    (hnone : ∀ {l : ℕ} {p : Operation}, operations[l]? = some p → ¬ p.Removed name)
    (ho' : ¬ o'.Removed name) :
    Accounted kind (operations.set k o') name true listed := by
  have hlt := (List.getElem?_eq_some_iff.mp hk).1
  constructor
  case once => exact h.once
  case plain => exact fun _ => hplain
  case entry => exact fun _ => .inr ⟨k, o', List.getElem?_set_self hlt, hputs⟩
  case object => exact fun _ => .inl rfl
  case fresh => exact fun _ _ => h.fresh hk huploads
  case put => exact fun _ _ => rfl
  case removed =>
    intro l p hl hp
    rcases getElem?_set_cases hl with ⟨rfl, rfl⟩ | ⟨-, hl⟩
    · exact absurd hp ho'
    · exact absurd hp (hnone hl)

theorem Accounted.removePackage (hk : operations[k]? = some o) (ho : ¬ o.Removed name)
    (hremoved : o'.Removed name ∨ stored = false)
    (hnone : ∀ {l : ℕ} {p : Operation}, operations[l]? = some p → ¬ p.HasPut name)
    (ho' : ¬ o'.Uploads name) :
    Accounted kind (operations.set k o') name false listed := by
  have hlt := (List.getElem?_eq_some_iff.mp hk).1
  constructor
  case once => exact h.once
  case plain =>
    exact nofun
  case entry =>
    exact nofun
  case object =>
    intro hlisted
    rcases hremoved with hremoved | hstored
    · exact .inr ⟨k, o', List.getElem?_set_self hlt, hremoved⟩
    · rcases h.object hlisted with hnot | hgone
      · rw [hstored] at hnot
        cases hnot
      · exact .inr (getElem?_set_of_exists hk (fun hnot => absurd hnot ho) hgone)
  case fresh =>
    intro l p hl hp
    rcases getElem?_set_cases hl with ⟨rfl, rfl⟩ | ⟨-, hl⟩
    · exact absurd hp ho'
    · exact h.fresh hl hp
  case put =>
    intro l p hl hp
    rcases getElem?_set_cases hl with ⟨rfl, rfl⟩ | ⟨-, hl⟩
    · exact absurd hp.puts.uploads ho'
    · exact absurd hp (hnone hl)
  case removed => exact fun _ _ => rfl

theorem Accounted.addEntry
    (hseparate : Separate kind operations name) (hk : operations[k]? = some o)
    (hput : o.HasPut name) (ho' : o'.isActive = false) :
    Accounted kind (operations.set k o') name stored (listed + 1) := by
  have huploads := hput.puts.uploads
  have hstored := h.put hk hput
  have hlisted := h.fresh hk huploads
  constructor
  case once => exact Nat.le_of_eq (by rw [hlisted])
  case plain => exact h.plain
  case entry => exact fun _ => .inl (by rw [hlisted])
  case object => exact fun _ => .inl hstored
  case fresh =>
    intro l p hl hp
    rcases getElem?_set_cases hl with ⟨rfl, rfl⟩ | ⟨hlk, hl⟩
    · exact absurd hp (Operation.not_uploads_of_not_active ho')
    · exact absurd (hseparate.unique hk huploads hl hp) hlk
  case put => exact fun _ _ => hstored
  case removed =>
    intro l p hl hp
    rcases getElem?_set_cases hl with ⟨rfl, rfl⟩ | ⟨-, hl⟩
    · exact absurd hp (Operation.not_removed_of_not_active ho')
    · exact h.removed hl hp

theorem Accounted.dropEntry (hstored : stored = false) (hput : ¬ o'.HasPut name) :
    Accounted kind (operations.set k o') name stored 0 := by
  constructor
  case once => exact Nat.zero_le _
  case plain => exact h.plain
  case entry =>
    intro hnot
    rw [hstored] at hnot
    cases hnot
  case object =>
    exact nofun
  case fresh => exact fun _ _ => rfl
  case put =>
    intro l p hl hp
    rcases getElem?_set_cases hl with ⟨rfl, rfl⟩ | ⟨-, hl⟩
    · exact absurd hp hput
    · exact h.put hl hp
  case removed => exact fun _ _ => hstored

end

/-! ### One more operation -/

theorem Separate.append (h : Separate kind operations name)
    (huploads : o'.Uploads name → Plain kind name ∧
      ∀ {k : ℕ} {o : Operation}, operations[k]? = some o → ¬ o.Uploads name ∧ ¬ o.Removes name)
    (hremoves : o'.Removes name → name ≠ indexName ∧
      ∀ {k : ℕ} {o : Operation}, operations[k]? = some o → ¬ o.Uploads name)
    (ho' : o'.Uploads name → ¬ o'.Removes name) :
    Separate kind (operations ++ [o']) name := by
  constructor
  case plain =>
    intro l p hl hp
    rcases getElem?_append_cases hl with ⟨-, rfl⟩ | ⟨-, hl⟩
    · exact (huploads hp).1
    · exact h.plain hl hp
  case unique =>
    intro l p l' p' hl hp hl' hp'
    rcases getElem?_append_cases hl with ⟨rfl, rfl⟩ | ⟨-, hold⟩
    · rcases getElem?_append_cases hl' with ⟨rfl, rfl⟩ | ⟨-, hl'⟩
      · rfl
      · exact absurd hp' ((huploads hp).2 hl').1
    · rcases getElem?_append_cases hl' with ⟨rfl, rfl⟩ | ⟨-, hl'⟩
      · exact absurd hp ((huploads hp').2 hold).1
      · exact h.unique hold hp hl' hp'
  case apart =>
    intro l p l' p' hl hp hl'
    rcases getElem?_append_cases hl with ⟨rfl, rfl⟩ | ⟨-, hold⟩
    · rcases getElem?_append_cases hl' with ⟨rfl, rfl⟩ | ⟨-, hl'⟩
      · exact ho' hp
      · exact ((huploads hp).2 hl').2
    · rcases getElem?_append_cases hl' with ⟨rfl, rfl⟩ | ⟨-, hl'⟩
      · intro hnot
        exact (hremoves hnot).2 hold hp
      · exact h.apart hold hp hl'
  case reserved =>
    intro l p hl hp
    rcases getElem?_append_cases hl with ⟨-, rfl⟩ | ⟨-, hl⟩
    · exact (hremoves hp).1
    · exact h.reserved hl hp

theorem Accounted.append (h : Accounted kind operations name stored listed)
    (huploads : o'.Uploads name → listed = 0) (hput : ¬ o'.HasPut name)
    (hremoved : ¬ o'.Removed name) : Accounted kind (operations ++ [o']) name stored listed := by
  constructor
  case once => exact h.once
  case plain => exact h.plain
  case entry =>
    intro hstored
    exact (h.entry hstored).imp id getElem?_append_of_exists
  case object =>
    intro hlisted
    exact (h.object hlisted).imp id getElem?_append_of_exists
  case fresh =>
    intro l p hl hp
    rcases getElem?_append_cases hl with ⟨-, rfl⟩ | ⟨-, hl⟩
    · exact huploads hp
    · exact h.fresh hl hp
  case put =>
    intro l p hl hp
    rcases getElem?_append_cases hl with ⟨-, rfl⟩ | ⟨-, hl⟩
    · exact absurd hp hput
    · exact h.put hl hp
  case removed =>
    intro l p hl hp
    rcases getElem?_append_cases hl with ⟨-, rfl⟩ | ⟨-, hl⟩
    · exact absurd hp hremoved
    · exact h.removed hl hp

end Operations

theorem listings_append (xs ys : List SequenceInfo) (name : String) :
    listings (xs ++ ys) name = listings xs name + listings ys name := List.countP_append

theorem listings_cons_self (e : SequenceInfo) (es : List SequenceInfo) :
    listings (e :: es) e.filename = listings es e.filename + 1 := by
  rw [listings, List.countP_cons_of_pos (by simp), listings]

theorem listings_cons_of_ne {e : SequenceInfo} {name : String} (h : e.filename ≠ name)
    (es : List SequenceInfo) : listings (e :: es) name = listings es name := by
  rw [listings, List.countP_cons_of_neg (by simpa using h), listings]

theorem listings_pos {e : SequenceInfo} {es : List SequenceInfo} (h : e ∈ es) :
    0 < listings es e.filename := List.countP_pos_iff.mpr ⟨e, h, by simp⟩

theorem listings_filter {filename : String} {es : List SequenceInfo}
    (hid : ∀ e ∈ es, e.fileId = filename → e.filename = filename) (name : String) :
    listings (es.filter fun e => e.filename ≠ filename && e.fileId ≠ filename) name =
      if name = filename then 0 else listings es name := by
  rw [listings, List.countP_filter]
  split
  · next h =>
      subst h
      rw [List.countP_eq_zero]
      intro e _ hnot
      simp only [Bool.and_eq_true, decide_eq_true_eq] at hnot
      exact hnot.2.1 hnot.1
  · next h =>
      rw [listings]
      apply List.countP_congr
      intro e he
      simp only [Bool.and_eq_true, decide_eq_true_eq]
      refine ⟨fun hall => hall.1, fun hname => ⟨hname, ?_, ?_⟩⟩
      · intro hnot
        exact h (hname.symm.trans hnot)
      · intro hnot
        exact h (hname.symm.trans (hid e he hnot))

theorem set_self {operations : List Operation} {k : ℕ} {o : Operation}
    (hk : operations[k]? = some o) : operations.set k o = operations := by
  obtain ⟨hlt, heq⟩ := List.getElem?_eq_some_iff.mp hk
  rw [← heq]
  exact List.set_getElem_self hlt

namespace StorageProxy

/-! ## All names -/

/-- The entries that there are: those of the index, or what `clearIndex` has not dropped. -/
inductive Listing (kind : StoreKind) (s : StorageProxy) : List SequenceInfo → Prop where
  | index (hnone : ∀ {k o}, s.HasOperation k o → o.isClearing = false) :
      Listing kind s s.index.sequences
  | clearing {k : ℕ} {results items : List SequenceInfo} {removed : Option Bool}
      (hk : s.HasOperation k (.clearing results items removed))
      (hothers : ∀ {l o}, l ≠ k → s.HasOperation l o → o.isActive = false)
      (hitems : ∀ item ∈ items,
        item.id = item.filename ∨ kind = .disk ∧ s.files.has item.id = false) :
      Listing kind s (results ++ items)

structure Matched (kind : StoreKind) (s : StorageProxy) (entries : List SequenceInfo) : Prop where
  listing : Listing kind s entries
  separate : ∀ name, Separate kind s.operations name
  accounted : ∀ name,
    Accounted kind s.operations name (s.files.hasPackage name) (listings entries name)

variable {s s' : StorageProxy} {kind : StoreKind} {entries : List SequenceInfo} {k l : ℕ}
  {o o' p : Operation} {name : String}

theorem Listing.of_active (h : Listing kind s entries) (hk : s.HasOperation k o)
    (hactive : o.isActive = true) (ho : o.isClearing = false) :
    entries = s.index.sequences ∧ ∀ {l p}, s.HasOperation l p → p.isClearing = false := by
  cases h with
  | index hnone => exact ⟨rfl, hnone⟩
  | clearing hl hothers hitems =>
    rename_i l _ _ _
    by_cases hkl : k = l
    · subst hkl
      cases hk.eq hl
      cases ho
    · rw [hothers hkl hk] at hactive
      cases hactive

theorem Listing.of_clearing {results items : List SequenceInfo} {removed : Option Bool}
    (h : Listing kind s entries) (hk : s.HasOperation k (.clearing results items removed)) :
    entries = results ++ items ∧
      (∀ {l o}, l ≠ k → s.HasOperation l o → o.isActive = false) ∧
      ∀ item ∈ items, item.id = item.filename ∨ kind = .disk ∧ s.files.has item.id = false := by
  cases h with
  | index hnone => cases hnone hk
  | clearing hl hothers hitems =>
    rename_i l _ _ _
    by_cases hkl : k = l
    · subst hkl
      cases hk.eq hl
      exact ⟨rfl, hothers, hitems⟩
    · cases hothers hkl hk

theorem Matched.plain (h : Matched kind s entries) (name : String)
    (hname : s.files.hasPackage name = true) : Plain kind name := (h.accounted name).plain hname

theorem Matched.not_removed (h : Matched kind s entries) (hk : s.HasOperation k o)
    (huploads : o.Uploads name) (hl : s.HasOperation l p) : ¬ p.Removed name := by
  intro hnot
  have ho : o.isClearing = false := by cases o <;> first | rfl | exact huploads.elim
  rcases hnot.removes with hremoves | hclearing
  · exact (h.separate name).apart hk huploads hl hremoves
  · have hnone := (h.listing.of_active hk huploads.isActive ho).2 hl
    rw [hclearing] at hnone
    cases hnone

/-! ### A request goes on -/

theorem Matched.request (h : Matched kind s entries) (hk : s.HasOperation k o)
    (hactive : o.isActive = true) (ho : o.isClearing = false)
    (hset : s'.operations = s.operations.set k o') (ho' : o'.isClearing = false)
    (huploads : ∀ name, o'.Uploads name → o.Uploads name)
    (hremoves : ∀ name, o'.Removes name → o.Removes name)
    (haccounted : ∀ name, Accounted kind (s.operations.set k o') name
      (s'.files.hasPackage name) (listings s'.index.sequences name)) :
    Matched kind s' s'.index.sequences where
  listing := by
    apply Listing.index
    intro l p hl
    rcases hl.set_cases hset with ⟨-, rfl⟩ | ⟨-, hl⟩
    · exact ho'
    · exact (h.listing.of_active hk hactive ho).2 hl
  separate := by
    intro name
    rw [hset]
    exact (h.separate name).set hk (huploads name) (hremoves name)
  accounted := by
    intro name
    rw [hset]
    exact haccounted name

theorem Matched.files (h : Matched kind s entries) (hoperations : s'.operations = s.operations)
    (hindex : s'.index = s.index)
    (hpackage : ∀ name, s'.files.hasPackage name = s.files.hasPackage name)
    (hhas : ∀ name, s.files.has name = false → s'.files.has name = false) :
    Matched kind s' entries where
  listing := by
    have hiff : ∀ {l p}, s'.HasOperation l p ↔ s.HasOperation l p := by
      intro l p
      rw [HasOperation, hoperations, HasOperation]
    cases h.listing with
    | index hnone =>
      rw [← hindex]
      exact .index fun hl => hnone (hiff.mp hl)
    | clearing hk hothers hitems =>
      refine .clearing (hiff.mpr hk) (fun hlk hl => hothers hlk (hiff.mp hl)) ?_
      intro item hitem
      exact (hitems item hitem).imp id (And.imp id (hhas _))
  separate := by
    rw [hoperations]
    exact h.separate
  accounted := by
    intro name
    rw [hoperations, hpackage]
    exact h.accounted name

theorem Matched.idle (h : Matched kind s entries) (hk : s.HasOperation k o)
    (ho : o.isActive = false) (hset : s'.operations = s.operations.set k o')
    (ho' : o'.isActive = false) (hindex : s'.index.sequences = s.index.sequences)
    (hfiles : s'.files = s.files) : Matched kind s' entries where
  listing := by
    cases h.listing with
    | index hnone =>
      rw [← hindex]
      apply Listing.index
      intro l p hl
      rcases hl.set_cases hset with ⟨-, rfl⟩ | ⟨-, hl⟩
      · cases p <;> first | rfl | cases ho'
      · exact hnone hl
    | clearing hl hothers hitems =>
      rename_i l _ _ _
      have hlk : l ≠ k := by
        rintro rfl
        cases hk.eq hl
        cases ho
      refine .clearing ((hasOperation_set_iff hset hlk).mpr hl) ?_ (by rwa [hfiles])
      intro m p hml hm
      rcases hm.set_cases hset with ⟨-, rfl⟩ | ⟨-, hm⟩
      · exact ho'
      · exact hothers hml hm
  separate := by
    intro name
    rw [hset]
    refine (h.separate name).set hk ?_ ?_
    all_goals
      intro hnot
      rw [hnot.isActive] at ho'
      cases ho'
  accounted := by
    intro name
    rw [hset, hfiles]
    have huploads := @Operation.not_uploads_of_not_active name _ ho'
    have hremoved := @Operation.not_removed_of_not_active name
    apply (h.accounted name).keep hk
    · exact fun hnot => absurd hnot huploads
    · exact fun _ hnot => absurd hnot.uploads (Operation.not_uploads_of_not_active ho)
    · exact fun hnot => absurd hnot.puts.uploads huploads
    · exact fun hnot => absurd hnot (hremoved ho)
    · exact fun hnot => absurd hnot (hremoved ho')

end StorageProxy

end TransformHub.Manager.StorageRouters
