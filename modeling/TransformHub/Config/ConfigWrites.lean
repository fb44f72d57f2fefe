import TransformHub.Config.ConfigSourcesRun
import TransformHub.Config.PrototypeMerge

/-!
# Assignments to objects of the command line

What is assigned to stays on record, whatever is done next.
-/

namespace TransformHub.Config.Loader

open ObjectHeap Heap OrderedMap

variable {js : Conversions} {options : List ConfigOptionDescriptor} {h h₀ h₁ h' h'' : Heap}
  {b lo a t n : ℕ} {k : Key} {v : Value} {pos : ℕ → List Key}
  {T : ℕ → View Key (Content Key Scalar)}

/-! ## An assignment is not taken back -/

/-- Something older than `b` has been assigned to. -/
def Wrote (h h' : Heap) (b : ℕ) : Prop := ∃ w, w ++ h.written = h'.written ∧ ∃ x ∈ w, x < b

theorem Wrote.before (W : Wrote h' h'' b) (hsuffix : h.written <:+ h'.written) : Wrote h h'' b := by
  obtain ⟨w, hw, x, hx, hxb⟩ := W
  obtain ⟨w', hw'⟩ := hsuffix
  exact ⟨w ++ w', by rw [List.append_assoc, hw', hw], x, List.mem_append_left _ hx, hxb⟩

theorem Wrote.after (W : Wrote h h' b) (hsuffix : h'.written <:+ h''.written) : Wrote h h'' b := by
  obtain ⟨w, hw, x, hx, hxb⟩ := W
  obtain ⟨w', hw'⟩ := hsuffix
  exact ⟨w' ++ w, by rw [List.append_assoc, hw, hw'], x, List.mem_append_right _ hx, hxb⟩

theorem written_put (hput : h.put a k v = .ok h') : h.written <:+ h'.written := by
  rcases put_cases hput with rfl | rfl | ⟨p, rfl, -⟩
  · exact List.suffix_cons a _
  · exact List.suffix_refl _
  · exact List.suffix_cons a _

theorem written_enter (henter : enter h a k = .ok h') : h.written <:+ h'.written := by
  unfold enter at henter
  split at henter
  · cases henter
    exact List.suffix_refl _
  · exact written_put (h := (h.alloc (record empty)).1) henter

theorem written_setPath {path : List Key} (hset : setPath h a path v = .ok h') :
    h.written <:+ h'.written := by
  induction path generalizing h a with
  | nil => exact written_put hset
  | cons part path ih =>
    cases path with
    | nil => exact written_put hset
    | cons key path =>
      rw [setPath] at hset
      obtain ⟨h₁, henter, hset⟩ := exists_of_bind hset
      split at hset
      · exact (written_enter henter).trans (ih hset)
      · cases hset

mutual

theorem written_allocData (h : Heap) : (d : Data) → (allocData h d).1.written = h.written
  | .leaf _ => rfl
  | .node _ members => written_allocMembers h members
termination_by structural d => d

theorem written_allocMembers (h : Heap) :
    (ms : List (Key × Data)) → (allocMembers h ms).1.written = h.written
  | [] => rfl
  | m :: ms => by
      have hm := written_allocMember h m
      have hms := written_allocMembers (allocMember h m).1 ms
      show (allocMembers (allocMember h m).1 ms).1.written = _
      rw [hms, hm]
termination_by structural ms => ms

theorem written_allocMember (h : Heap) :
    (m : Key × Data) → (allocMember h m).1.written = h.written
  | (_, d) => written_allocData h d
termination_by structural m => m

end

theorem written_foldlM {α : Type} {f : Heap → α → Except JsError Heap}
    (hf : ∀ h h' x, f h x = .ok h' → h.written <:+ h'.written) {xs : List α}
    (hfold : xs.foldlM f h = .ok h') : h.written <:+ h'.written := by
  induction xs generalizing h with
  | nil =>
    cases hfold
    exact List.suffix_refl _
  | cons x xs ih =>
    rw [List.foldlM_cons] at hfold
    obtain ⟨h₁, hx, hfold⟩ := exists_of_bind hfold
    exact (hf h h₁ x hx).trans (ih hfold)

theorem written_setEnvOption {vars : Key → Option Key} {includeAliases : Bool}
    {option : ConfigOptionDescriptor}
    (hset : setEnvOption js vars includeAliases a h option = .ok h') : h.written <:+ h'.written := by
  unfold setEnvOption at hset
  split at hset
  · cases hset
    exact List.suffix_refl _
  · split at hset
    · cases hset
    · rename_i d _
      have hsuffix := written_setPath hset
      rwa [written_allocData h d] at hsuffix

theorem written_setCliOption {cli : ℕ} {option : ConfigOptionDescriptor}
    (hset : setCliOption cli a h option = .ok h') : h.written <:+ h'.written := by
  unfold setCliOption at hset
  split_ifs at hset
  · cases hset
    exact List.suffix_refl _
  · exact written_setPath hset

theorem written_mergeConfig {s : ℕ} (hmerge : mergeConfig n h t s = .ok h') :
    h.written <:+ h'.written := by
  induction n generalizing h h' t s with
  | zero => cases hmerge
  | succ n ih =>
    refine written_foldlM (fun h h' k hkey => ?_) hmerge
    rcases mergeKey_cases hkey with rfl | ⟨v, c, -, -, hmerge⟩ | ⟨v, h₁, -, -, hmerge, hput⟩ |
      ⟨v, -, hput⟩ | hput
    · exact List.suffix_refl _
    · exact ih hmerge
    · exact (ih (h := (h.alloc (record empty)).1) hmerge).trans (written_put hput)
    · exact written_put (h := (h.alloc (array (elements h v))).1) hput
    · exact written_put hput

/-- What `mergeAll` does with one source. -/
def mergeSource (n target : ℕ) (h : Heap) (source : Option ℕ) : Except JsError Heap :=
  match source with
  | some source => mergeConfig n h target source
  | none => .ok h

theorem mergeAll_eq (n : ℕ) (h : Heap) (as : List (Option ℕ)) :
    mergeAll n h as = (do
      let h' ← as.foldlM (mergeSource n h.next) (h.alloc (record empty)).1
      return (h', h.next)) := rfl

theorem written_mergeAll {as : List (Option ℕ)} {r : ℕ} (hall : mergeAll n h as = .ok (h', r)) :
    h.written <:+ h'.written := by
  rw [mergeAll_eq] at hall
  obtain ⟨h₁, hfold, hret⟩ := exists_of_bind hall
  cases hret
  refine written_foldlM (h := (h.alloc (record empty)).1) (fun h h' x hx => ?_) hfold
  cases x with
  | none =>
    cases hx
    exact List.suffix_refl _
  | some s => exact written_mergeConfig hx

theorem written_toConfig {source : Source} {x : Option ℕ}
    (hbuild : source.toConfig js options h = .ok (h', x)) : h.written <:+ h'.written := by
  cases source with
  | object a =>
    cases hbuild
    exact List.suffix_refl _
  | env vars includeAliases =>
    obtain ⟨h₁, hfold, hret⟩ := exists_of_bind hbuild
    cases hret
    exact written_foldlM (h := (h.alloc (record empty)).1)
      (fun h h' option hset => written_setEnvOption hset) hfold
  | cli values =>
    obtain ⟨h₁, hfold, hret⟩ := exists_of_bind hbuild
    cases hret
    exact written_foldlM (h := (h.alloc (record empty)).1)
      (fun h h' option hset => written_setCliOption hset) hfold

theorem written_toConfigs {sources : List Source} {as : List (Option ℕ)}
    (hbuild : toConfigs js options h sources = .ok (h', as)) : h.written <:+ h'.written := by
  induction sources generalizing h as with
  | nil =>
    cases hbuild
    exact List.suffix_refl _
  | cons source sources ih =>
    rw [toConfigs] at hbuild
    obtain ⟨⟨h₁, x⟩, hone, hbuild⟩ := exists_of_bind hbuild
    obtain ⟨⟨h₂, as'⟩, hrest, hret⟩ := exists_of_bind hbuild
    cases hret
    exact (written_toConfig hone).trans (ih hrest)

/-! ## Paths through objects of the command line -/

theorem wrote_setOwn (ha : a < b) (k : Key) (v : Value) : Wrote h (h.setOwn a k v) b :=
  ⟨[a], rfl, a, List.mem_singleton_self a, ha⟩

theorem wrote_setPath_old {path : List Key} (hold : ∀ a, a < b → ∀ c, (h.obj a).Refers c → c < b)
    (hb : b ≤ h.next) (ha : a < b) (hpath : path ≠ []) (hproto : protoKey ∉ path)
    (hset : setPath h a path v = .ok h') : Wrote h h' b := by
  have hsealed : h.Sealed {x | b ≤ x} := by
    intro x _ hxb c hc
    have hclt : c < b := hold x (Nat.not_le.mp hxb) c hc
    exact ⟨Nat.lt_of_lt_of_le hclt hb, Nat.not_le.mpr hclt⟩
  induction path generalizing a with
  | nil => exact absurd rfl hpath
  | cons part path ih =>
    rw [List.mem_cons, not_or] at hproto
    cases path with
    | nil =>
      have hput : h.put a part v = .ok h' := hset
      rw [put_of_ne (Ne.symm hproto.1)] at hput
      cases hput
      exact wrote_setOwn ha part v
    | cons key path =>
      rw [setPath] at hset
      obtain ⟨h₁, henter, hset⟩ := exists_of_bind hset
      unfold enter at henter
      split at henter
      · cases henter
        split at hset
        · rename_i c hc
          have hcb := (hsealed.get (Nat.lt_of_lt_of_le ha hb) (Nat.not_le.mpr ha) part c hc).2
          exact ih (Nat.not_le.mp hcb) (by simp) hproto.2 hset
        · cases hset
      · have hput : (h.alloc (record empty)).1.put a part (.object h.next) = .ok h₁ :=
          henter
        rw [put_of_ne (Ne.symm hproto.1)] at hput
        cases hput
        have hwrote := wrote_setOwn (h := (h.alloc (record empty)).1) ha part
          (.object h.next)
        refine Wrote.before (h := h) (Wrote.after hwrote ?_) (List.suffix_refl _)
        split at hset
        · exact written_setPath hset
        · cases hset

theorem wrote_setPath {path r : List Key} {d : ℕ} (P : h.Placed b lo pos) (hlo : lo ≤ a)
    (ha : a < h.next) (harr : (h.obj a).isArray = false) (hproto : protoKey ∉ path)
    (hpre : r <+: path) (hne : r ≠ path)
    (hforeign : h.viewFrom b (.object a) r = .value (.scalar (.foreign d)))
    (hset : setPath h a path v = .ok h') : Wrote h h' b := by
  have hle : b ≤ h.next := Nat.le_trans P.b_le P.le
  induction path generalizing a r with
  | nil => exact absurd (List.prefix_nil.mp hpre) hne
  | cons part path ih =>
    have hba : b ≤ a := Nat.le_trans P.b_le hlo
    cases r with
    | nil =>
      rw [viewFrom_root hba harr] at hforeign
      cases hforeign
    | cons j r =>
      obtain ⟨rfl, hpart⟩ := List.cons_prefix_cons.mp hpre
      have hner : r ≠ path := fun h => hne (by rw [h])
      rw [List.mem_cons, not_or] at hproto
      have hchild : h.viewFrom b (h.own a j) r = .value (.scalar (.foreign d)) := by
        rw [← hforeign]
        exact (congrFun (viewFrom_child hba harr j) r).symm
      obtain ⟨key, rest, rfl⟩ : ∃ key rest, path = key :: rest := by
        apply List.exists_cons_of_ne_nil
        rintro rfl
        exact hner (List.prefix_nil.mp hpart)
      -- what stands at the part is a record, an older one or one that was made for an option
      obtain ⟨c, hown, hcarr⟩ : ∃ c, h.own a j = .object c ∧ (h.obj c).isArray = false := by
        cases hown : h.own a j with
        | undefined | leaf l =>
          rw [hown] at hchild
          cases r <;> cases hchild
        | object c =>
          refine ⟨c, rfl, Bool.eq_false_iff.mpr fun hcarr => ?_⟩
          rw [hown] at hchild
          cases r <;> simp [viewFrom, View.ofTree, kind, hcarr] at hchild
      have hget := (get_ordinary P.pristine (P.ordinary hlo ha harr) (P.ne_objectPrototype hlo)
        P.one_le (Ne.symm hproto.1) (.inr hown)).1
      have hnext : setPath h c (key :: rest) v = .ok h' := by
        rw [setPath] at hset
        obtain ⟨h₁, henter, hset⟩ := exists_of_bind hset
        rw [enter, hget, plainObject?_eq_some.mpr ⟨rfl, hcarr⟩] at henter
        cases henter
        rw [hget] at hset
        exact hset
      rcases P.edges a j hlo ha c hown with hold | ⟨hclo, hclt, -⟩
      · exact wrote_setPath_old P.old hle hold (by simp) hproto.2 hnext
      · exact ih hclo hclt hcarr hproto.2 hpart hner (by rw [← hown, hchild]) hnext

/-- An option whose path leads through an object that was taken from the command line. -/
def Crosses (h₀ : Heap) (cli : ℕ) (before : List ConfigOptionDescriptor)
    (option : ConfigOptionDescriptor) : Prop :=
  h₀.get cli option.name ≠ .undefined ∧ ∃ r, r <+: wholePath (optionPath option) ∧
    r ≠ wholePath (optionPath option) ∧
      ∃ c, cliViewFrom before h₀ h₀.next cli r = .value (.scalar (.foreign c))

theorem wrote_setCliOptions {cli : ℕ} (U : Usable h₀) (C : Options h₀ cli)
    {before after : List ConfigOptionDescriptor}
    (hpaths : ∀ option ∈ after, protoKey ∉ optionPath option)
    (hold : ∀ x, x < h₀.next → h.obj x = h₀.obj x)
    (B : Building h₀ h lo pos (fun e => cliViewFrom before h₀ e cli))
    (hcrosses : ∃ pre option post, after = pre ++ option :: post ∧
      Crosses h₀ cli (before ++ pre) option)
    (hfold : after.foldlM (setCliOption cli lo) h = .ok h') : Wrote h h' h₀.next := by
  induction after generalizing h pos before with
  | nil =>
    obtain ⟨pre, option, post, hsplit, -⟩ := hcrosses
    cases pre <;> cases hsplit
  | cons option after ih =>
    obtain ⟨hpath, hpaths⟩ := List.forall_mem_cons.mp hpaths
    rw [List.foldlM_cons] at hfold
    obtain ⟨h₁, hset, hfold⟩ := exists_of_bind hfold
    by_cases hcross : Crosses h₀ cli before option
    · obtain ⟨hvalue, r, hpre, hne, c, hforeign⟩ := hcross
      have hget : h.get cli option.name = h₀.get cli option.name :=
        get_congr U.pristine B.placed.pristine C.ordinary C.ne
          (Nat.lt_of_le_of_lt (Nat.zero_le _) C.lt) B.placed.one_le (hold cli C.lt)
          (hold _ (Nat.lt_trans Nat.zero_lt_one U.builtin)) option.name
      rw [setCliOption, hget, if_neg hvalue, setPath_whole] at hset
      have hforeign' : h.viewFrom h₀.next (.object lo) r = .value (.scalar (.foreign c)) := by
        rw [B.view h₀.next (Nat.le_refl _)]
        exact hforeign
      have hwrote := wrote_setPath B.placed (Nat.le_refl lo) B.lt B.isArray
        (protoKey_notMem_wholePath hpath) hpre hne hforeign' hset
      exact hwrote.after
        (written_foldlM (fun h h' option hset => written_setCliOption hset) hfold)
    · obtain ⟨h₂, pos₂, hset', -, hframe, B₂⟩ := setCliOption_spec U C hpath hold B
        fun hvalue r hpre hne c hforeign => hcross ⟨hvalue, r, hpre, hne, c, hforeign⟩
      rw [hset'] at hset
      cases hset
      refine Wrote.before (ih hpaths (fun x hx => by
        rw [hframe x (Nat.lt_of_lt_of_le hx B.le), hold x hx]) B₂ ?_ hfold)
        (written_setCliOption hset')
      obtain ⟨pre, o, post, hsplit, hcross'⟩ := hcrosses
      cases pre with
      | nil =>
        cases hsplit
        rw [List.append_nil] at hcross'
        exact absurd hcross' hcross
      | cons o' pre =>
        cases hsplit
        exact ⟨pre, o, post, rfl, by rwa [List.append_assoc]⟩

theorem crosses_of_not_unshared {cli : ℕ} (hnot : ¬ Unshared options h₀ cli) :
    ∃ pre option post, options = pre ++ option :: post ∧ Crosses h₀ cli ([] ++ pre) option := by
  by_contra hnone
  refine hnot fun before option after hsplit hvalue r hpre hne c hforeign => hnone ?_
  exact ⟨before, option, after, hsplit, hvalue, r, hpre, hne, c, hforeign⟩

section

variable (U : Usable h₀) (R : Ready h₀ h)
  (hpaths : ∀ option ∈ options, protoKey ∉ optionPath option)
include U R hpaths

theorem wrote_toConfig {source : Source}
    (hs : source.Loadable js options h₀) (hshared : ¬ source.Unshared options h₀) {x : Option ℕ}
    (hbuild : source.toConfig js options h = .ok (h', x)) : Wrote h h' h₀.next := by
  have hle : h₀.next ≤ h.next := R.grown.next
  cases source with
  | object a | env vars includeAliases => exact absurd trivial hshared
  | cli values =>
    obtain ⟨h₁, hfold, hret⟩ := exists_of_bind hbuild
    cases hret
    have hold : ∀ y, y < h₀.next → (h.alloc (record empty)).1.obj y = h₀.obj y := by
      intro y hy
      rw [obj_alloc_of_ne (Nat.ne_of_lt (Nat.lt_of_lt_of_le hy hle)), R.old y hy]
    exact wrote_setCliOptions (h := (h.alloc (record empty)).1) U hs.1 hpaths hold
      (Building.start U R) (crosses_of_not_unshared hshared) hfold

theorem wrote_toConfigs {sources : List Source}
    (hs : ∀ source ∈ sources, source.Loadable js options h₀)
    (hshared : ∃ source ∈ sources, ¬ source.Unshared options h₀) {as : List (Option ℕ)}
    (hbuild : toConfigs js options h sources = .ok (h', as)) : Wrote h h' h₀.next := by
  induction sources generalizing h as with
  | nil =>
    obtain ⟨source, hmem, -⟩ := hshared
    cases hmem
  | cons source sources ih =>
    obtain ⟨hsource, hs⟩ := List.forall_mem_cons.mp hs
    rw [toConfigs] at hbuild
    obtain ⟨⟨h₁, x⟩, hone, hbuild⟩ := exists_of_bind hbuild
    obtain ⟨⟨h₂, as'⟩, hrest, hret⟩ := exists_of_bind hbuild
    cases hret
    by_cases hunshared : source.Unshared options h₀
    · obtain ⟨h₃, x', hone', R₁, -⟩ := toConfig_spec U R hpaths hsource hunshared
      rw [hone'] at hone
      cases hone
      refine Wrote.before (ih R₁ hs ?_ hrest) (written_toConfig hone')
      obtain ⟨s, hmem, hnot⟩ := hshared
      rcases List.mem_cons.mp hmem with rfl | hmem
      · exact absurd hunshared hnot
      · exact ⟨s, hmem, hnot⟩
    · exact (wrote_toConfig U R hpaths hsource hunshared hone).after (written_toConfigs hrest)

end

end TransformHub.Config.Loader
