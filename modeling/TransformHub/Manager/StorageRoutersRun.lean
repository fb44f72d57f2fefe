import TransformHub.Manager.StorageRoutersEntries

/-!
# The storage index in every run

What each step of the storage routers does to the entries and to the stored index.
-/

namespace TransformHub.Manager.StorageRouters

open OrderedMap

namespace StorageProxy

/-- The stored index is on its way, and the entries are accounted for. -/
structure Inv (kind : StoreKind) (s : StorageProxy) : Prop where
  saved : s.Saved
  matched : ∃ entries, Matched kind s entries

variable {s s' : StorageProxy} {kind : StoreKind} {config : ProxyConfig}
  {entries : List SequenceInfo} {k : ℕ} {o o' : Operation} {name : String}

theorem inv_new : new.Inv kind where
  saved := saved_new
  matched := by
    refine ⟨[], .index ?_, fun name => ?_, fun name => ?_⟩
    · intro k o hk
      cases hk
    · constructor
      case plain => exact nofun
      case unique => exact nofun
      case apart => exact nofun
      case reserved => exact nofun
    · have hnone : new.files.hasPackage name = false := by
        by_cases h : indexName = name
        · subst h
          rfl
        · exact Files.hasPackage_set_of_ne h _
      rw [hnone]
      constructor
      case once => exact Nat.zero_le _
      case plain => exact nofun
      case entry => exact nofun
      case object => exact nofun
      case fresh => exact nofun
      case put => exact nofun
      case removed => exact nofun

theorem Inv.calm (h : s.Inv kind) (hcalm : ∀ {k o}, s.HasOperation k o → o.isClearing = false) :
    Matched kind s s.index.sequences := by
  obtain ⟨entries, hmatched⟩ := h.matched
  cases hmatched.listing with
  | index => exact hmatched
  | clearing hk => cases hcalm hk

theorem Inv.matchesWhenQuiet (h : s.Inv kind) : s.MatchesWhenQuiet := by
  intro hquiet
  refine ⟨?_, h.saved.quiet hquiet⟩
  have hdone : ∀ {k o}, s.HasOperation k o → o = .done := fun hk =>
    hquiet _ (List.mem_of_getElem? hk)
  have hmatched := h.calm fun hk => by
    rw [hdone hk]
    rfl
  intro name
  have haccounted := hmatched.accounted name
  show listings s.index.sequences name = _
  split
  · next hstored =>
      refine (haccounted.entry hstored).resolve_right ?_
      rintro ⟨k, o, hk, hputs⟩
      rw [hdone hk] at hputs
      exact hputs
  · next hstored =>
      have honce := haccounted.once
      have hnot : listings s.index.sequences name ≠ 1 := by
        intro hlisted
        refine hstored ((haccounted.object hlisted).resolve_right ?_)
        rintro ⟨k, o, hk, hremoved⟩
        rw [hdone hk] at hremoved
        exact hremoved
      omega

theorem Inv.active (h : s.Inv kind) (hk : s.HasOperation k o) (hactive : o.isActive = true)
    (ho : o.isClearing = false) : Matched kind s s.index.sequences := by
  obtain ⟨entries, hmatched⟩ := h.matched
  exact (hmatched.listing.of_active hk hactive ho).1 ▸ hmatched

/-! ## The stored index -/

theorem Saved.request (h : s.Saved) (hk : s.HasOperation k o) (hactive : o.isActive = true)
    (hset : s'.operations = s.operations.set k o') (ho' : o'.isActive = true ∨ o' = .done)
    (hfiles : s'.files.get? indexName = s.files.get? indexName) (hindex : s'.index = s.index)
    (hwrites : s'.writes = s.writes) : s'.Saved := by
  apply h.congr hfiles hindex hwrites
  intro l p hp hdone
  constructor
  · intro hl
    rcases hl.set_cases hset with ⟨-, rfl⟩ | ⟨-, hl⟩
    · rcases ho' with ho' | ho'
      · rw [hp] at ho'
        cases ho'
      · exact absurd ho' hdone
    · exact hl
  · intro hl
    have hlk : l ≠ k := by
      rintro rfl
      rw [hl.eq hk, hactive] at hp
      cases hp
    exact (hasOperation_set_iff hset hlk).mpr hl

theorem Saved.begin (h : s.Saved) (ho : o.isActive = true) :
    ({ s with operations := s.operations ++ [o] } : StorageProxy).Saved := by
  refine Saved.congr h rfl rfl rfl ?_
  intro l p hp hdone
  constructor
  · intro hl
    rcases getElem?_append_cases hl with ⟨-, rfl⟩ | ⟨-, hl⟩
    · rw [hp] at ho
      cases ho
    · exact hl
  · intro hl
    exact (List.getElem?_append_left hl.lt).trans hl

theorem Saved.files (h : s.Saved) (files : Files)
    (hfiles : files.get? indexName = s.files.get? indexName) :
    ({ s with files } : StorageProxy).Saved := h.congr hfiles rfl rfl fun _ _ => Iff.rfl

/-! ## A request begins -/

theorem Inv.upload {filename fileId : String} (h : s.Inv config.kind)
    (hcareful : s.Careful config (.upload filename fileId)) :
    (s.next config (.upload filename fileId)).Inv config.kind := by
  obtain ⟨hplain, hentries, hothers⟩ := hcareful
  have hmatched := h.calm fun hk => (hothers hk).2.2
  refine ⟨h.saved.begin rfl, s.index.sequences, ?_⟩
  constructor
  case listing =>
    refine .index ?_
    intro l p hl
    rcases getElem?_append_cases hl with ⟨-, rfl⟩ | ⟨-, hl⟩
    · rfl
    · exact (hothers hl).2.2
  case separate =>
    intro name
    apply (hmatched.separate name).append
    · rintro rfl
      exact ⟨hplain, fun hk => ⟨(hothers hk).1, (hothers hk).2.1⟩⟩
    · exact False.elim
    · exact fun _ hnot => hnot
  case accounted =>
    intro name
    apply (hmatched.accounted name).append
    · rintro rfl
      rw [listings, List.countP_eq_zero]
      intro e he
      simpa using hentries e he
    · exact fun hnot => hnot
    · exact fun hnot => hnot

variable {filename : String}

theorem Inv.delete (h : s.Inv config.kind) (hcareful : s.Careful config (.delete filename)) :
    (s.next config (.delete filename)).Inv config.kind := by
  obtain ⟨hname, hothers⟩ := hcareful
  have hmatched := h.calm fun hk => (hothers hk).2
  refine ⟨h.saved.begin rfl, s.index.sequences, ?_⟩
  constructor
  case listing =>
    refine .index ?_
    intro l p hl
    rcases getElem?_append_cases hl with ⟨-, rfl⟩ | ⟨-, hl⟩
    · rfl
    · exact (hothers hl).2
  case separate =>
    intro name
    apply (hmatched.separate name).append
    · exact False.elim
    · rintro rfl
      exact ⟨hname, fun hk => (hothers hk).1⟩
    · exact fun hnot => False.elim hnot
  case accounted =>
    intro name
    apply (hmatched.accounted name).append
    · exact False.elim
    · exact fun hnot => hnot
    · rintro ⟨-, hnot⟩
      cases hnot

theorem Inv.clearIndex (h : s.Inv config.kind) (hcareful : s.Careful config .clearIndex) :
    (s.next config .clearIndex).Inv config.kind := by
  obtain ⟨hothers, hitems⟩ := hcareful
  have hmatched := h.calm fun {k o} hk => by
    have hidle := hothers hk
    cases o <;> first | rfl | cases hidle
  refine ⟨h.saved.begin rfl, s.index.sequences, ?_⟩
  constructor
  case listing =>
    have hk : (s.next config .clearIndex).HasOperation s.operations.length
        (.clearing [] s.index.sequences none) := List.getElem?_concat_length
    refine Listing.clearing hk ?_ hitems
    · intro l p hlk hl
      rcases getElem?_append_cases hl with ⟨hnot, -⟩ | ⟨-, hl⟩
      · exact absurd hnot hlk
      · exact hothers hl
  case separate =>
    intro name
    apply (hmatched.separate name).append
    · exact False.elim
    · exact False.elim
    · exact fun hnot => False.elim hnot
  case accounted =>
    intro name
    apply (hmatched.accounted name).append
    · exact False.elim
    · exact fun hnot => hnot
    · intro hnot
      cases hseq : s.index.sequences with
      | nil =>
        rw [hseq] at hnot
        exact hnot
      | cons item items =>
        rw [hseq] at hnot
        cases hnot.2

/-! ## A package is identified -/

theorem Inv.identified (h : s.Inv kind) (config : ProxyConfig) (k : ℕ) (size : Option ℕ) :
    (s.identified config k size).Inv kind := by
  -- the upload goes on, or is over
  have hgoes : ∀ {filename fileId o'}, s.HasOperation k (.identifying filename fileId) →
      o'.isClearing = false → (o'.isActive = true ∨ o' = .done) →
      (∀ name, o'.Uploads name → filename = name) → (∀ name, ¬ o'.Removes name) →
      (∀ name, ¬ o'.HasPut name) → (∀ name, ¬ o'.Removed name) →
      (s.setOperation k o').Inv kind := by
    intro filename fileId o' hk hclearing hactive huploads hremoves hput hremoved
    have hmatched := h.active hk rfl rfl
    refine ⟨h.saved.request hk rfl rfl hactive rfl rfl rfl, s.index.sequences, ?_⟩
    refine hmatched.request hk rfl rfl rfl hclearing huploads ?_ ?_
    · exact fun name hnot => absurd hnot (hremoves name)
    · intro name
      apply (hmatched.accounted name).keep hk (huploads name)
      · exact fun _ hnot => False.elim hnot
      · exact fun hnot => absurd hnot (hput name)
      · exact fun hnot => False.elim hnot
      · exact fun hnot => absurd hnot (hremoved name)
  unfold StorageProxy.identified
  split
  · next hk =>
      refine hgoes hk rfl (.inr rfl) ?_ ?_ ?_ ?_
      · exact fun _ hnot => False.elim hnot
      all_goals exact fun _ hnot => hnot
  · next hk =>
      split
      · refine hgoes hk rfl (.inr rfl) ?_ ?_ ?_ ?_
        · exact fun _ hnot => False.elim hnot
        all_goals exact fun _ hnot => hnot
      · refine hgoes hk rfl (.inl rfl) (fun _ hname => hname) (fun _ hnot => hnot) ?_ ?_
        · rintro name ⟨-, hnot⟩
          cases hnot
        · exact fun _ hnot => hnot
  · exact h

/-! ## The store does what it is asked -/

theorem Inv.put {sequence : SequenceInfo} {stored : Bool} (h : s.Inv kind)
    (hk : s.HasOperation k (.putting sequence stored)) (stored' : Bool) (files : Files)
    (hself : files.hasPackage sequence.filename = true)
    (hothers : ∀ {name}, sequence.filename ≠ name → files.hasPackage name = s.files.hasPackage name)
    (hfiles : files.get? indexName = s.files.get? indexName) :
    ({ s.setOperation k (.putting sequence stored') with files } : StorageProxy).Inv kind := by
  have hmatched := h.active hk rfl rfl
  refine ⟨h.saved.request hk rfl rfl (.inl rfl) hfiles rfl rfl, s.index.sequences, ?_⟩
  refine hmatched.request hk rfl rfl rfl rfl (fun _ hname => hname) (fun _ hnot => hnot) ?_
  intro name
  show Accounted kind _ name (files.hasPackage name) (listings s.index.sequences name)
  by_cases hname : sequence.filename = name
  · subst hname
    rw [hself]
    have hplain := (hmatched.separate _).plain hk rfl
    exact (hmatched.accounted _).putPackage hk rfl hplain rfl (hmatched.not_removed hk rfl)
      (fun hnot => hnot)
  · rw [hothers hname]
    apply (hmatched.accounted name).keep hk
    · exact fun hnot => absurd hnot hname
    · exact fun _ hnot => absurd hnot hname
    · exact fun hnot => absurd hnot.1 hname
    · exact fun hnot => False.elim hnot
    · exact fun hnot => False.elim hnot

theorem Inv.remove (h : s.Inv kind) (hk : s.HasOperation k (.removing filename none)) :
    ({ s.setOperation k (.removing filename (some (s.files.removeObject kind filename).2)) with
        files := (s.files.removeObject kind filename).1 } : StorageProxy).Inv kind := by
  have hmatched := h.active hk rfl rfl
  have hfiles : get? (s.files.removeObject kind filename).1 indexName =
      s.files.get? indexName :=
    Files.get?_removeObject_index ((hmatched.separate filename).reserved hk rfl)
  refine ⟨h.saved.request hk rfl rfl (.inl rfl) hfiles rfl rfl, s.index.sequences, ?_⟩
  refine hmatched.request hk rfl rfl rfl rfl (fun _ hnot => hnot) (fun _ hname => hname) ?_
  intro name
  show Accounted kind _ name ((s.files.removeObject kind filename).1.hasPackage name)
    (listings s.index.sequences name)
  by_cases hname : filename = name
  · subst hname
    rw [Files.hasPackage_removeObject_self]
    apply (hmatched.accounted filename).removePackage hk
    · rintro ⟨-, hnot⟩
      cases hnot
    · cases hremoved : (s.files.removeObject kind filename).2 with
      | true => exact .inl ⟨rfl, rfl⟩
      | false => exact .inr (Files.not_hasPackage_of_not_has (Files.has_of_removeObject hremoved).2)
    · intro l p hl hp
      exact (hmatched.separate filename).apart hl hp.puts.uploads hk rfl
    · exact fun hnot => hnot
  · rw [Files.hasPackage_removeObject_of_ne hmatched.plain hname]
    apply (hmatched.accounted name).keep hk
    · exact fun hnot => hnot
    · exact fun _ hnot => False.elim hnot
    · exact fun hnot => False.elim hnot
    · exact fun hnot => absurd hnot.1 hname
    · exact fun hnot => absurd hnot.1 hname

variable {results items : List SequenceInfo}

theorem Matched.item {item : SequenceInfo} (h : Matched kind s entries)
    (hk : s.HasOperation k (.clearing results (item :: items) none)) :
    item.id = item.filename ∧ s.files.hasPackage item.id = true ∨
      kind = .disk ∧ s.files.has item.id = false := by
  obtain ⟨rfl, hothers, hitems⟩ := h.listing.of_clearing hk
  refine (hitems item List.mem_cons_self).imp ?_ id
  intro hid
  refine ⟨hid, ?_⟩
  rw [hid]
  have haccounted := h.accounted item.filename
  have hlisted : listings (results ++ item :: items) item.filename = 1 := by
    have hpos := listings_pos (show item ∈ results ++ item :: items by simp)
    have honce := haccounted.once
    omega
  refine (haccounted.object hlisted).resolve_right ?_
  rintro ⟨l, p, hl, hp⟩
  by_cases hlk : l = k
  · subst hlk
    cases hl.symm.trans hk
    cases hp.2
  · exact Operation.not_removed_of_not_active (hothers hlk hl) hp

theorem Inv.clear {item : SequenceInfo} (h : s.Inv kind)
    (hk : s.HasOperation k (.clearing results (item :: items) none)) :
    ({ s.setOperation k (.clearing results (item :: items)
          (some (s.files.removeObject kind item.id).2)) with
        files := (s.files.removeObject kind item.id).1 } : StorageProxy).Inv kind := by
  obtain ⟨entries, hmatched⟩ := h.matched
  have hitem := hmatched.item hk
  obtain ⟨rfl, hothers, hitems⟩ := hmatched.listing.of_clearing hk
  have hname : item.id ≠ indexName := by
    rcases hitem with ⟨-, hstored⟩ | ⟨-, hnone⟩
    · exact (hmatched.plain _ hstored).1
    · intro hnot
      obtain ⟨index, hindex⟩ := h.saved.present
      rw [hnot, has, hindex] at hnone
      cases hnone
  have hfiles : get? (s.files.removeObject kind item.id).1 indexName =
      s.files.get? indexName := Files.get?_removeObject_index hname
  refine ⟨h.saved.request hk rfl rfl (.inl rfl) hfiles rfl rfl, results ++ item :: items, ?_⟩
  constructor
  case listing =>
    refine Listing.clearing (hasOperation_set hk rfl) ?_ ?_
    · intro l p hlk hl
      exact hothers hlk ((hasOperation_set_iff rfl hlk).mp hl)
    · intro other hother
      exact (hitems other hother).imp id (And.imp id Files.has_removeObject)
  case separate =>
    intro name
    exact (hmatched.separate name).set hk (fun hnot => hnot) (fun hnot => hnot)
  case accounted =>
    intro name
    show Accounted kind _ name ((s.files.removeObject kind item.id).1.hasPackage name) _
    rcases hitem with ⟨hid, hstored⟩ | ⟨hdisk, hnone⟩
    · rw [Files.removeObject_of_hasPackage hstored]
      by_cases hname : item.filename = name
      · -- the package of the item is removed
        subst hname
        rw [← hid, Files.hasPackage_removeObject_self, hid]
        apply (hmatched.accounted item.filename).removePackage hk
        · rintro ⟨-, hnot⟩
          cases hnot
        · exact .inl ⟨rfl, rfl⟩
        · intro l p hl hp
          by_cases hlk : l = k
          · subst hlk
            cases hl.symm.trans hk
            exact hp
          · exact Operation.not_uploads_of_not_active (hothers hlk hl) hp.puts.uploads
        · exact fun hnot => hnot
      · rw [Files.hasPackage_removeObject_of_ne hmatched.plain (by rwa [hid])]
        apply (hmatched.accounted name).keep hk
        · exact fun hnot => hnot
        · exact fun _ hnot => False.elim hnot
        · exact fun hnot => False.elim hnot
        · exact fun hnot => absurd hnot.1 hname
        · exact fun hnot => absurd hnot.1 hname
    · -- nothing is removed
      subst hdisk
      have hpackage : (s.files.removeObject .disk item.id).1.hasPackage name =
          s.files.hasPackage name := by
        by_cases hname : item.id = name
        · subst hname
          rw [Files.hasPackage_removeObject_self, Files.not_hasPackage_of_not_has hnone]
        · exact Files.hasPackage_removeObject_of_ne hmatched.plain hname
      rw [hpackage]
      apply (hmatched.accounted name).keep hk
      · exact fun hnot => hnot
      · exact fun _ hnot => False.elim hnot
      · exact fun hnot => False.elim hnot
      · rintro ⟨-, hnot⟩
        cases hnot
      · rintro ⟨-, hnot⟩
        rw [show (s.files.removeObject .disk item.id).2 = false from hnone] at hnot
        cases hnot

theorem Inv.effect (h : s.Inv kind) (k : ℕ) : (s.effect kind k).Inv kind := by
  unfold StorageProxy.effect
  split
  · next sequence hk =>
      obtain ⟨entries, hmatched⟩ := h.matched
      apply h.put hk true
      · exact Files.hasPackage_putObject_self
      · exact Files.hasPackage_putObject_of_ne hmatched.plain
      · exact Files.get?_putObject_index ((hmatched.separate _).plain hk rfl).1
  · next hk => exact h.remove hk
  · next hk => exact h.clear hk
  · exact h

theorem Inv.deleteMetadata (h : s.Inv .disk) (name : String) :
    ({ s with files := s.files.delete (metadataName name) } : StorageProxy).Inv .disk := by
  obtain ⟨entries, hmatched⟩ := h.matched
  refine ⟨Saved.files h.saved _ (get?_delete_of_ne _ (metadataName_ne_indexName name)),
    entries, ?_⟩
  refine hmatched.files rfl rfl ?_ (fun _ => Files.has_delete)
  intro other
  exact Files.hasPackage_delete_metadata hmatched.plain

theorem Inv.partEffect (h : s.Inv kind) (k : ℕ) : (s.partEffect kind k).Inv kind := by
  unfold StorageProxy.partEffect
  split
  · next sequence hk =>
      obtain ⟨entries, hmatched⟩ := h.matched
      have hput := h.put hk false (s.files.set sequence.filename (.package sequence.id))
        Files.hasPackage_set_package (fun hname => Files.hasPackage_set_of_ne hname _)
        (get?_set_of_ne _ ((hmatched.separate _).plain hk rfl).1 _)
      rw [setOperation, set_self hk] at hput
      exact hput
  · exact h.deleteMetadata _
  · exact h.deleteMetadata _
  · exact h

/-! ## What was asked of the store settles -/

theorem Inv.putSettles {sequence : SequenceInfo} {stored ok : Bool} (h : s.Inv kind)
    (hk : s.HasOperation k (.putting sequence stored)) (hstored : ok = true → stored = true)
    (hfailed : ok = false → s.files.hasPackage sequence.filename = false) :
    (s.goOn kind k ok).Inv kind := by
  have hmatched := h.active hk rfl rfl
  rw [goOn, show s.operations[k]? = _ from hk]
  cases ok with
  | true =>
    refine ⟨h.saved.writeIndex hk _, s.index.sequences ++ [sequence], ?_⟩
    refine hmatched.request hk rfl rfl rfl rfl (fun _ hnot => False.elim hnot)
      (fun _ hnot => False.elim hnot) ?_
    intro name
    show Accounted kind _ name (s.files.hasPackage name)
      (listings (s.index.sequences ++ [sequence]) name)
    rw [listings_append]
    by_cases hname : sequence.filename = name
    · subst hname
      rw [listings_cons_self]
      exact (hmatched.accounted _).addEntry (hmatched.separate _) hk ⟨rfl, hstored rfl⟩ rfl
    · rw [listings_cons_of_ne hname]
      exact (hmatched.accounted name).keep_idle hk rfl (fun _ hnot => hname hnot) fun hnot => hnot
  | false =>
    refine ⟨h.saved.request hk rfl rfl (.inr rfl) rfl rfl rfl, s.index.sequences, ?_⟩
    refine hmatched.request hk rfl rfl rfl rfl (fun _ hnot => False.elim hnot)
      (fun _ hnot => False.elim hnot) ?_
    intro name
    apply (hmatched.accounted name).keep_idle hk rfl
    · rintro hpackage rfl
      rw [hfailed rfl] at hpackage
      cases hpackage
    · exact fun hnot => hnot

variable {removed : Option Bool}

theorem Inv.removeSettles {ok : Bool} (h : s.Inv kind)
    (hk : s.HasOperation k (.removing filename removed))
    (hid : ok = true → removed = some true → ∀ e ∈ s.index.sequences, e.fileId = filename → e.filename = filename)
    (hfailed : ok = false → removed ≠ some true) : (s.goOn kind k ok).Inv kind := by
  have hmatched := h.active hk rfl rfl
  rw [goOn, show s.operations[k]? = _ from hk]
  set kept := s.index.sequences.filter fun e =>
    e.filename ≠ filename && e.fileId ≠ filename with hkept
  -- what the index has no longer is not stored
  have hdropped : removed = some true → (hok : ok = true) → ∀ {o'}, o'.isActive = false →
      ∀ name, Accounted kind (s.operations.set k o') name (s.files.hasPackage name)
        (listings kept name) := by
    intro hremoved hok o' ho' name
    rw [hkept, listings_filter (hid hok hremoved)]
    split
    · next hname =>
        subst hname
        apply (hmatched.accounted name).dropEntry
        · exact (hmatched.accounted name).removed hk ⟨rfl, hremoved⟩
        · exact fun hnot => Operation.not_uploads_of_not_active ho' hnot.puts.uploads
    · next hname =>
        exact (hmatched.accounted name).keep_idle hk ho' (fun _ hnot => hnot)
          fun hnot => hname hnot.1.symm
  dsimp only
  split
  · next hgone =>
      rw [Bool.and_eq_true, decide_eq_true_eq] at hgone
      obtain ⟨hok, hremoved⟩ := hgone
      split
      · refine ⟨h.saved.writeIndex hk _, kept, ?_⟩
        exact hmatched.request hk rfl rfl rfl rfl (fun _ hnot => False.elim hnot)
          (fun _ hnot => False.elim hnot) (hdropped hremoved hok rfl)
      · next hlength =>
        have hsame := List.filter_eq_self.mpr
          (List.length_filter_eq_length_iff.mp (not_not.mp hlength).symm)
        refine ⟨h.saved.request hk rfl rfl (.inr rfl) rfl ?_ rfl, kept, ?_⟩
        · show ({ s.index with sequences := _ } : SequenceIndex) = s.index
          rw [hsame]
        · exact hmatched.request hk rfl rfl rfl rfl (fun _ hnot => False.elim hnot)
            (fun _ hnot => False.elim hnot) (hdropped hremoved hok rfl)
  · next hleft =>
      have hremoved : removed ≠ some true := by
        cases ok with
        | true => simpa using hleft
        | false => exact hfailed rfl
      refine ⟨h.saved.request hk rfl rfl (.inr rfl) rfl rfl rfl, s.index.sequences, ?_⟩
      refine hmatched.request hk rfl rfl rfl rfl (fun _ hnot => False.elim hnot)
        (fun _ hnot => False.elim hnot) ?_
      intro name
      exact (hmatched.accounted name).keep_idle hk rfl (fun _ hnot => hnot)
        fun hnot => hremoved hnot.2

theorem Inv.clearSettles {ok : Bool} (h : s.Inv kind)
    (hk : s.HasOperation k (.clearing results items removed))
    (hfailed : items ≠ [] → ok = false → removed ≠ some true) : (s.goOn kind k ok).Inv kind := by
  obtain ⟨entries, hmatched⟩ := h.matched
  obtain ⟨rfl, hothers, hitems⟩ := hmatched.listing.of_clearing hk
  rw [goOn, show s.operations[k]? = _ from hk]
  cases items with
  | nil =>
    refine ⟨h.saved.writeIndex hk _, results, ?_⟩
    constructor
    case listing =>
      refine Listing.index (s := s.saveSequences kind k results) ?_
      intro l p hl
      rcases hl.set_cases rfl with ⟨-, rfl⟩ | ⟨hlk, hl⟩
      · rfl
      · have hidle := hothers hlk hl
        cases p <;> first | rfl | cases hidle
    case separate =>
      intro name
      exact (hmatched.separate name).set hk (fun hnot => False.elim hnot)
        (fun hnot => False.elim hnot)
    case accounted =>
      intro name
      have haccounted := hmatched.accounted name
      rw [List.append_nil] at haccounted
      exact haccounted.keep_idle hk rfl (fun _ hnot => hnot) fun hnot => hnot
  | cons item items =>
    dsimp only
    have hlisting : ∀ results', Listing kind
        (s.setOperation k (.clearing results' items none)) (results' ++ items) := by
      intro results'
      refine Listing.clearing (hasOperation_set hk rfl) ?_ ?_
      · intro l p hlk hl
        exact hothers hlk ((hasOperation_set_iff rfl hlk).mp hl)
      · intro other hother
        exact hitems other (List.mem_cons_of_mem _ hother)
    have hnext : ∀ {results' name}, ¬ (Operation.clearing results' items none).Removed name := by
      intro results' name hnot
      cases items with
      | nil => exact hnot
      | cons _ _ => cases hnot.2
    split
    · next hgone =>
        rw [Bool.and_eq_true, decide_eq_true_eq] at hgone
        refine ⟨h.saved.request hk rfl rfl (.inl rfl) rfl rfl rfl, results ++ items, ?_⟩
        refine ⟨hlisting results, ?_, ?_⟩
        · intro name
          exact (hmatched.separate name).set hk (fun hnot => hnot) (fun hnot => hnot)
        intro name
        show Accounted kind _ name (s.files.hasPackage name) _
        have haccounted := hmatched.accounted name
        by_cases hname : item.filename = name
        · subst hname
          have honce := haccounted.once
          rw [listings_append, listings_cons_self] at honce
          rw [listings_append, show listings results _ + listings items _ = 0 by omega]
          exact haccounted.dropEntry (haccounted.removed hk ⟨rfl, hgone.2⟩) (fun hnot => hnot)
        · rw [listings_append, listings_cons_of_ne hname, ← listings_append] at haccounted
          apply haccounted.keep hk
          · exact fun hnot => hnot
          · exact fun _ hnot => False.elim hnot
          · exact fun hnot => False.elim hnot
          · exact fun hnot => absurd hnot.1 hname
          · exact fun hnot => absurd hnot hnext
    · next hkept =>
        have hremoved : removed ≠ some true := by
          cases ok with
          | true => simpa using hkept
          | false => exact hfailed (List.cons_ne_nil _ _) rfl
        refine ⟨h.saved.request hk rfl rfl (.inl rfl) rfl rfl rfl,
          (results ++ [item]) ++ items, ?_⟩
        refine ⟨hlisting (results ++ [item]), ?_, ?_⟩
        · intro name
          exact (hmatched.separate name).set hk (fun hnot => hnot) (fun hnot => hnot)
        intro name
        rw [List.append_assoc]
        apply (hmatched.accounted name).keep hk
        · exact fun hnot => hnot
        · exact fun _ hnot => False.elim hnot
        · exact fun hnot => False.elim hnot
        · exact fun hnot => absurd hnot.2 hremoved
        · exact fun hnot => absurd hnot hnext

theorem effect_putting {sequence : SequenceInfo} {stored : Bool}
    (hk : s.HasOperation k (.putting sequence stored)) :
    (s.effect kind k).HasOperation k (.putting sequence true) := by
  cases stored with
  | true =>
    have hsame : s.effect kind k = s := by rw [effect, show s.operations[k]? = _ from hk]
    rw [hsame]
    exact hk
  | false =>
    rw [effect, show s.operations[k]? = _ from hk]
    exact hasOperation_set hk rfl

theorem effect_removing (hk : s.HasOperation k (.removing filename removed)) :
    (s.effect kind k).HasOperation k (.removing filename (some (s.removal kind filename removed))) ∧
      (s.effect kind k).index = s.index := by
  cases removed with
  | some removed =>
    have hsame : s.effect kind k = s := by rw [effect, show s.operations[k]? = _ from hk]
    rw [hsame]
    exact ⟨hk, rfl⟩
  | none =>
    rw [effect, show s.operations[k]? = _ from hk]
    exact ⟨hasOperation_set hk rfl, rfl⟩

theorem effect_clearing (hk : s.HasOperation k (.clearing results items removed)) :
    ∃ removed, (s.effect kind k).HasOperation k (.clearing results items removed) := by
  unfold effect
  split
  · next hk' => cases hk.symm.trans hk'
  · next hk' => cases hk.symm.trans hk'
  · next hk' =>
      cases hk.symm.trans hk'
      exact ⟨_, hasOperation_set hk rfl⟩
  · exact ⟨_, hk⟩

theorem Inv.settles {ok : Bool} (h : s.Inv config.kind)
    (hcareful : s.Careful config (.settles k ok)) :
    (s.settles config.kind k ok).Inv config.kind := by
  cases hop : s.operations[k]? with
  | none =>
    have hgoOn : ∀ ok, s.goOn config.kind k ok = s := fun _ => by rw [goOn, hop]
    have heffect : s.effect config.kind k = s := by rw [StorageProxy.effect, hop]
    cases ok with
    | true => rwa [StorageProxy.settles, if_pos rfl, heffect, hgoOn]
    | false =>
      show (s.goOn config.kind k false).Inv config.kind
      rwa [hgoOn]
  | some o =>
  have hcareful := hcareful hop
  cases ok with
  | false =>
    show (s.goOn config.kind k false).Inv config.kind
    cases o with
    | putting sequence stored => exact h.putSettles hop nofun hcareful
    | removing filename removed =>
      exact h.removeSettles hop nofun (fun _ => hcareful)
    | clearing results items removed =>
      refine h.clearSettles hop ?_
      cases items with
      | nil => exact fun hnot => absurd rfl hnot
      | cons item items => exact fun _ => hcareful
    | _ => rwa [goOn, hop]
  | true =>
    show ((s.effect config.kind k).goOn config.kind k true).Inv config.kind
    have heffect := h.effect k
    cases o with
    | putting sequence stored =>
      exact heffect.putSettles (effect_putting hop) (fun _ => rfl) nofun
    | removing filename removed =>
      obtain ⟨hk, hindex⟩ : (s.effect config.kind k).HasOperation k (.removing filename
          (some (s.removal config.kind filename removed))) ∧
          (s.effect config.kind k).index = s.index := effect_removing hop
      refine heffect.removeSettles hk ?_ nofun
      intro _ hremoved
      rw [hindex]
      exact hcareful (Option.some.inj hremoved)
    | clearing results items removed =>
      obtain ⟨removed', hk⟩ : ∃ removed', (s.effect config.kind k).HasOperation k
          (.clearing results items removed') := effect_clearing hop
      exact heffect.clearSettles hk nofun
    | _ =>
      have hsame : s.effect config.kind k = s := by rw [StorageProxy.effect, hop]
      rwa [hsame, goOn, hop]

/-! ## The index is written -/

theorem hasPackage_set_index {files : Files} {index : SequenceIndex}
    (hplain : ∀ name, files.hasPackage name = true → Plain kind name) (name : String) :
    Files.hasPackage (set files indexName (.index index)) name =
      files.hasPackage name := by
  by_cases hname : indexName = name
  · subst hname
    have hnone : files.hasPackage indexName = false := by
      rw [Bool.eq_false_iff]
      intro hnot
      exact (hplain _ hnot).1 rfl
    rw [hnone, Files.hasPackage, get?_set_self]
  · exact Files.hasPackage_set_of_ne hname _

theorem Inv.land {w : ℕ} (h : s.Inv kind)
    (hnewest : ∀ {write}, s.HasWrite w write → write.landed = false → s.Newest w) :
    (s.land w).Inv kind := by
  obtain ⟨entries, hmatched⟩ := h.matched
  refine ⟨h.saved.land hnewest, entries, ?_⟩
  unfold StorageProxy.land
  split
  · exact hmatched
  split
  · exact hmatched
  refine hmatched.files rfl rfl (hasPackage_set_index hmatched.plain) ?_
  intro name hnone
  have hname : indexName ≠ name := by
    rintro rfl
    obtain ⟨index, hindex⟩ := h.saved.present
    rw [has, hindex] at hnone
    cases hnone
  rw [has, get?_set_of_ne _ hname]
  exact hnone

theorem landed_land {w : ℕ} {write : IndexWrite} (h : (s.land w).HasWrite w write) :
    write.landed = true := by
  unfold StorageProxy.land at h
  split at h
  · next hnone =>
      rw [HasWrite, hnone] at h
      cases h
  next write' hw =>
  split at h
  · next hlanded =>
      cases hw.symm.trans h
      exact hlanded
  · have hw' : (s.writes.set w { write' with landed := true })[w]? = some write := h
    rw [List.getElem?_set_self (List.getElem?_eq_some_iff.mp hw).1] at hw'
    exact (congrArg IndexWrite.landed (Option.some.inj hw')).symm

theorem operations_land (w : ℕ) : (s.land w).operations = s.operations := by
  unfold StorageProxy.land
  split
  · rfl
  split <;> rfl

theorem Inv.saveSettles {outcome : SaveOutcome} (h : s.Inv config.kind)
    (hcareful : s.Careful config (.saveSettles k outcome)) :
    (s.saveSettles k outcome).Inv config.kind := by
  unfold StorageProxy.saveSettles
  split
  · next w hk =>
      have hland := h.land fun hw hnot => hcareful hk hw hnot
      have hk' : (s.land w).HasOperation k (.saving w) := by
        rw [HasOperation, operations_land]
        exact hk
      obtain ⟨entries, hmatched⟩ := hland.matched
      refine ⟨hland.saved.finish hk' fun hw => .inl (landed_land hw), entries, ?_⟩
      exact hmatched.idle hk' rfl rfl rfl rfl rfl
  · next w hk =>
      obtain ⟨entries, hmatched⟩ := h.matched
      exact ⟨h.saved.finish hk fun hw => hcareful hk hw, entries,
        hmatched.idle hk rfl rfl rfl rfl rfl⟩
  · next w hk =>
      obtain ⟨entries, hmatched⟩ := h.matched
      exact ⟨h.saved.wait hk, entries, hmatched.idle hk rfl rfl rfl rfl rfl⟩
  · exact h

theorem Inv.retries (h : s.Inv kind) (k : ℕ) : (s.retries k).Inv kind := by
  unfold StorageProxy.retries
  split
  · next hk =>
      obtain ⟨entries, hmatched⟩ := h.matched
      exact ⟨h.saved.writeIndex hk s.index, entries, hmatched.idle hk rfl rfl rfl rfl rfl⟩
  · exact h

/-! ## Runs -/

theorem Inv.next {a : Action} (h : s.Inv config.kind) (hcareful : s.Careful config a) :
    (s.next config a).Inv config.kind := by
  cases a with
  | upload filename fileId => exact h.upload hcareful
  | delete filename => exact h.delete hcareful
  | clearIndex => exact h.clearIndex hcareful
  | identified k size => exact h.identified config k size
  | takesEffect k => exact h.effect k
  | partlyTakesEffect k => exact h.partEffect k
  | settles k ok => exact h.settles hcareful
  | lands w => exact h.land fun _ _ => hcareful
  | saveSettles k outcome => exact h.saveSettles hcareful
  | retries k => exact h.retries k

/-- In every careful run, the index has one entry for each stored package and is the one that is
stored, whenever no operation is in progress. -/
theorem index_matches_packages (config : ProxyConfig) (actions : List Action)
    (hcareful : System.Meets (fun s a => s.next config a) (Careful config) new actions) :
    System.Always (fun s a => s.next config a) MatchesWhenQuiet new actions := by
  have hkeeps : ∀ (s : StorageProxy) (a : Action), s.Inv config.kind → s.MatchesWhenQuiet →
      s.Careful config a →
      (s.next config a).Inv config.kind ∧ (s.next config a).MatchesWhenQuiet := by
    intro s a hinv _ ha
    have hnext := hinv.next ha
    exact ⟨hnext, hnext.matchesWhenQuiet⟩
  have hnew : new.Inv config.kind := inv_new
  exact System.always_of_meets hkeeps hnew hnew.matchesWhenQuiet actions hcareful

/-! ## Runs that are not careful -/

def diskConfig : ProxyConfig := ⟨.disk, 1000, fun index => index.sequences.length⟩

def s3Config : ProxyConfig := ⟨.s3, 1000, fun index => index.sequences.length⟩

def repeatedUpload : List Action :=
  [.upload "p" "f", .identified 0 (some 1), .settles 0 true, .saveSettles 0 .saved,
    .upload "p" "g", .identified 1 (some 1), .settles 1 true, .saveSettles 1 .saved]

/-- An upload, and a deletion by the id of the file. -/
def deletionById : List Action :=
  [.upload "p" "f", .identified 0 (some 1), .settles 0 true, .saveSettles 0 .saved,
    .delete "f", .settles 1 true, .saveSettles 1 .saved]

def clearedIndex : List Action :=
  [.upload "p" "f", .identified 0 (some 1), .settles 0 true, .saveSettles 0 .saved,
    .clearIndex, .settles 1 true, .settles 1 true, .saveSettles 1 .saved]

theorem not_always_of_last {actions : List Action} (name : String)
    (hquiet : ∀ o ∈ (actions.foldl (fun s a => s.next config a) new).operations, o = .done)
    (hpackage : (actions.foldl (fun s a => s.next config a) new).files.hasPackage name = true)
    (hlistings :
      listings (actions.foldl (fun s a => s.next config a) new).index.sequences name ≠ 1) :
    ¬ System.Always (fun s a => s.next config a) MatchesWhenQuiet new actions := by
  intro hnot
  have hlast := (System.always_last hnot hquiet).entries name
  rw [if_pos hpackage] at hlast
  exact hlistings hlast

theorem overwritten_package_listed_twice :
    ¬ System.Always (fun s a => s.next diskConfig a) MatchesWhenQuiet new repeatedUpload ∧
      ¬ System.Always (fun s a => s.next s3Config a) MatchesWhenQuiet new repeatedUpload ∧
      ¬ System.Always (fun s a => s.next s3Config a) MatchesWhenQuiet new deletionById ∧
      ¬ System.Always (fun s a => s.next s3Config a) MatchesWhenQuiet new clearedIndex := by
  refine ⟨?_, ?_, ?_, ?_⟩
  all_goals exact not_always_of_last "p" (by decide) rfl (by decide)

/-! ## A careful run -/

theorem plain_of_length (h : name.length < 9) : Plain kind name := by
  constructor
  · rintro rfl
    revert h
    decide
  · rintro - stem rfl
    rw [metadataName, String.length_append] at h
    have hlength : ".metadata".length = 9 := by decide
    omega

theorem forall_hasOperation {P : Operation → Prop} (h : ∀ o ∈ s.operations, P o) {k : ℕ}
    {o : Operation} (hk : s.HasOperation k o) : P o := h o (List.mem_of_getElem? hk)

/-- Two uploads and a deletion; a write of the index fails, and is made again. -/
def interleaving : List Action :=
  [.upload "p" "f", .upload "q" "g", .identified 1 (some 2), .identified 0 (some 1),
    .takesEffect 0, .settles 1 true, .settles 0 true, .saveSettles 1 .saved,
    .saveSettles 0 .failed, .retries 0, .saveSettles 0 .saved,
    .delete "p", .settles 2 true, .saveSettles 2 .saved]

theorem index_matches_packages_interleaving :
    System.Always (fun s a => s.next diskConfig a) MatchesWhenQuiet new interleaving := by
  apply index_matches_packages
  refine ⟨?_, ?_, ?_, ?_, ?_, ?_, ?_, ?_, ?_, ?_, ?_, ?_, ?_, ?_, ?_⟩
  · refine ⟨plain_of_length (by decide), ?_, ?_⟩
    · intro e he
      cases he
    · intro k o hk
      cases hk
  · refine ⟨plain_of_length (by decide), ?_, ?_⟩
    · intro e he
      cases he
    · apply forall_hasOperation
      intro o ho
      cases List.mem_singleton.mp ho
      refine ⟨?_, fun hnot => hnot, rfl⟩
      show "p" ≠ "q"
      decide
  · trivial
  · trivial
  · trivial
  · intro o ho
    cases ho
    exact nofun
  · intro o ho
    cases ho
    exact nofun
  · -- the later write is on its way
    intro w write hk hw _ v later hlt hv
    cases hk
    match v, hlt with
    | 1, _ =>
      cases hv
      rfl
    | v + 2, _ => cases hv
  · exact fun _ _ => trivial
  · trivial
  · intro w write hk hw _ v later hlt hv
    cases hk
    match v, hlt with
    | v + 3, _ => cases hv
  · refine ⟨by decide, ?_⟩
    apply forall_hasOperation
    intro o ho
    have ho : o = .done := by
      revert o
      decide
    rw [ho]
    exact ⟨fun hnot => hnot, rfl⟩
  · intro o ho
    cases ho
    intro _
    decide
  · intro w write hk hw _ v later hlt hv
    cases hk
    match v, hlt with
    | v + 4, _ => cases hv
  · trivial

end StorageProxy

end TransformHub.Manager.StorageRouters
