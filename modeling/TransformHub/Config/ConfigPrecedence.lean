import TransformHub.Config.ConfigWrites

/-!
# The precedence of configuration sources

When the merged object is what its sources say, laid over each other, and nothing but new objects
has been assigned to.
-/

namespace TransformHub.Config.Loader

open ObjectHeap Heap OrderedMap

variable {js : Conversions} {options : List ConfigOptionDescriptor} {h h₀ h₁ h' h'' : Heap}
  {b lo a c t n : ℕ} {k : Key} {v : Value} {pos : ℕ → List Key}

/-! ## Finite records -/

theorem Finite.set {T V : View Key (Content Key Scalar)} (hT : Finite T) (hV : Finite V)
    (q : List Key) : Finite (T.set q V) := by
  obtain ⟨n, hn⟩ := hT
  obtain ⟨m, hm⟩ := hV
  exact ⟨_, hm.set hn⟩

theorem finite_empty : Finite View.empty := ⟨1, View.bounded_empty⟩

theorem sizeOf_member {isArray : Bool} {members : List (Key × Data)} {d : Data}
    (hd : (ofEntries members).get? k = some d) :
    sizeOf d < sizeOf (Data.node isArray members) := by
  have hall : (ofEntries members).All fun _ d => sizeOf d < sizeOf members := by
    apply OrderedMap.All.ofEntries
    rintro ⟨j, d⟩ hmem
    have hlt := List.sizeOf_lt_of_mem hmem
    simp only [Prod.mk.sizeOf_spec] at hlt
    show sizeOf d < sizeOf members
    omega
  have hlt := hall (k, d) (mem_entries_iff.mpr hd)
  simp only [Data.node.sizeOf_spec]
  have hlt : sizeOf d < sizeOf members := hlt
  omega

theorem Data.view_finite (d : Data) : Finite d.view := by
  -- a path of data goes down to smaller data
  have hbounded : ∀ (p : List Key) (d : Data), sizeOf d ≤ p.length →
      View.ofTree Data.kind Data.member (some d) p = .absent := by
    intro p
    induction p with
    | nil =>
      intro d hd
      have hpos : 0 < sizeOf d := by cases d <;> simp <;> omega
      rw [List.length_nil] at hd
      omega
    | cons k p ih =>
      intro d hd
      rw [List.length_cons] at hd
      cases d with
      | leaf l => rfl
      | node isArray members =>
        cases isArray with
        | true => rfl
        | false =>
          show View.ofTree Data.kind Data.member ((ofEntries members).get? k) p = _
          cases hget : (ofEntries members).get? k with
          | none => cases p <;> rfl
          | some d =>
            apply ih
            have hlt : sizeOf d < sizeOf (Data.node false members) := sizeOf_member hget
            omega
  exact ⟨sizeOf d, fun p hp => hbounded p d hp⟩

theorem envView_finite (options : List ConfigOptionDescriptor) (vars : Key → Option Key)
    (includeAliases : Bool) : Finite (envView js options vars includeAliases) := by
  induction options using List.reverseRecOn with
  | nil => exact finite_empty
  | append_singleton options option ih =>
    rw [envView_concat]
    split
    · exact ih.set (Data.view_finite _) _
    · exact ih

theorem cliView_finite {cli : ℕ}
    (hvalues : ∀ option ∈ options, Finite (h.view (h.get cli option.name))) :
    Finite (cliViewFrom options h 0 cli) := by
  induction options using List.reverseRecOn with
  | nil => exact finite_empty
  | append_singleton options option ih =>
    have hih := ih fun o ho => hvalues o (List.mem_append_left _ ho)
    rw [cliViewFrom_concat]
    split
    · exact hih
    · exact hih.set (hvalues option (by simp)) _

theorem Source.Loadable.finite {source : Source} (hs : source.Loadable js options h) :
    Finite (source.view js options h) := by
  cases source with
  | object a =>
    cases a with
    | none => exact finite_empty
    | some a => exact hs.2.2
  | env vars includeAliases => exact envView_finite options vars includeAliases
  | cli values => exact cliView_finite hs.2

theorem exists_bound {Ts : List (View Key (Content Key Scalar))} (hTs : ∀ T ∈ Ts, Finite T) :
    ∃ n, ∀ T ∈ Ts, T.Bounded n := by
  induction Ts with
  | nil => exact ⟨0, nofun⟩
  | cons T Ts ih =>
    obtain ⟨hT, hrest⟩ := List.forall_mem_cons.mp hTs
    obtain ⟨n, hn⟩ := hT
    obtain ⟨m, hm⟩ := ih hrest
    refine ⟨n + m, List.forall_mem_cons.mpr ⟨hn.mono (by omega), fun T hT => ?_⟩⟩
    exact (hm T hT).mono (by omega)

/-! ## Merging all sources -/

/-- No path of the record goes through `__proto__`. -/
def OrdinaryKeys (T : View Key (Content Key Scalar)) : Prop := ∀ p, protoKey ∈ p → T p = .absent

/-- An object older than the result that looks as the source says. -/
def Older (h : Heap) (lo : ℕ) (a : Option ℕ) (T : View Key (Content Key Scalar)) : Prop :=
  match a with
  | some a => a < lo ∧ (h.obj a).isArray = false ∧ h.view (.object a) = T
  | none => T = View.empty

theorem Older.kept {pos' : ℕ → List Key} {a : Option ℕ} {T : View Key (Content Key Scalar)}
    (M : Merging h lo pos) (K : Kept h h' lo pos pos') (ha : Older h lo a T) : Older h' lo a T := by
  cases a with
  | none => exact ha
  | some a =>
    obtain ⟨hlt, harr, hview⟩ := ha
    refine ⟨hlt, by rw [K.old a hlt, harr], ?_⟩
    rw [M.view_old (fun c hc => by cases hc; exact hlt) K.old, hview]

theorem atop_empty {T : View Key (Content Key Scalar)} (hT : T [] = .inner) :
    View.empty.atop T = T := by
  apply View.eq_of_child
  · rw [hT]
    rfl
  · intro k
    rw [View.atop_child T rfl]
    exact View.atop_of_absent _ rfl

theorem mergeSource_spec {a : Option ℕ} {T : View Key (Content Key Scalar)}
    (M : Merging h lo pos) (ht : lo ≤ t) (hlt : t < h.next) (harr : (h.obj t).isArray = false)
    (ha : Older h lo a T) (hkeys : OrdinaryKeys T) (hbounded : T.Bounded n) :
    ∃ h' pos', mergeSource n t h a = .ok h' ∧ Kept h h' lo pos pos' ∧
      h'.view (.object t) = T.atop (h.view (.object t)) := by
  cases a with
  | none =>
    refine ⟨h, pos, rfl, M.kept_refl, ?_⟩
    have hT : T = View.empty := ha
    have hinner : h.view (.object t) [] = .inner := viewFrom_root (Nat.zero_le t) harr
    rw [hT, atop_empty hinner]
  | some a =>
    obtain ⟨halt, haarr, hview⟩ := ha
    subst hview
    obtain ⟨h', pos', hmerge, G⟩ :=
      mergeConfig_spec n M ht hlt harr ⟨halt, haarr, hkeys, hbounded⟩
    exact ⟨h', pos', hmerge, G.toKept, G.view⟩

theorem mergeSources_spec {as : List (Option ℕ)} {Ts done : List (View Key (Content Key Scalar))}
    (M : Merging h lo pos) (ht : lo ≤ t) (hlt : t < h.next) (harr : (h.obj t).isArray = false)
    (has : List.Forall₂ (Older h lo) as Ts) (hkeys : ∀ T ∈ Ts, OrdinaryKeys T)
    (hbounded : ∀ T ∈ Ts, T.Bounded n) (hview : h.view (.object t) = View.layers done) :
    ∃ h' pos', as.foldlM (mergeSource n t) h = .ok h' ∧ Kept h h' lo pos pos' ∧
      h'.view (.object t) = View.layers (done ++ Ts) := by
  induction as generalizing h pos done Ts with
  | nil =>
    cases has
    exact ⟨h, pos, rfl, M.kept_refl, by rw [hview, List.append_nil]⟩
  | cons a as ih =>
    cases has with
    | @cons _ T _ Ts ha has =>
      obtain ⟨hkey, hkeys⟩ := List.forall_mem_cons.mp hkeys
      obtain ⟨hbound, hbounded⟩ := List.forall_mem_cons.mp hbounded
      obtain ⟨h₁, pos₁, hsource, K, hview₁⟩ := mergeSource_spec M ht hlt harr ha hkey hbound
      have hdone : h₁.view (.object t) = View.layers (done ++ [T]) := by
        rw [hview₁, hview, View.layers_concat]
      obtain ⟨h₂, pos₂, hfold, K', hview₂⟩ := ih K.merging
        (Nat.lt_of_lt_of_le hlt K.grown.next) (by rw [K.grown.isArray t hlt, harr])
        (has.imp fun a T ha => ha.kept M K) hkeys hbounded hdone
      refine ⟨h₂, pos₂, ?_, K.trans K', ?_⟩
      · rw [List.foldlM_cons, hsource]
        exact hfold
      · rw [hview₂, List.append_assoc]
        rfl

theorem Usable.merging (U : Usable h) :
    Merging (h.alloc (record empty)).1 h.next (Function.update (fun _ => []) h.next []) := by
  have P : h.Placed h.next h.next (fun _ => []) :=
    ⟨U.pristine, U.builtin, Nat.le_refl _, Nat.le_refl _,
      fun a hlo ha => absurd ha (Nat.not_lt.mpr hlo),
      fun a hlo ha => absurd ha (Nat.not_lt.mpr hlo),
      fun a hlo ha => absurd ha (Nat.not_lt.mpr hlo),
      fun a k hlo ha => absurd ha (Nat.not_lt.mpr hlo), U.old⟩
  have M : Merging h h.next (fun _ => []) :=
    ⟨P, fun a hlo ha => absurd ha (Nat.not_lt.mpr hlo),
      fun a hlo ha => absurd ha (Nat.not_lt.mpr hlo)⟩
  exact M.alloc [] (.inl rfl) nofun

theorem Shows.older {a : Option ℕ} {T : View Key (Content Key Scalar)} (U : Usable h)
    (ha : Shows h a T) : Older (h.alloc (record empty)).1 h.next a T := by
  cases a with
  | none => exact ha
  | some a =>
    obtain ⟨hlt, harr, hview⟩ := ha
    have hobj : ∀ x, x < h.next → (h.alloc (record empty)).1.obj x = h.obj x :=
      fun x hx => obj_alloc_of_ne (Nat.ne_of_lt hx)
    refine ⟨hlt, by rw [hobj a hlt, harr], ?_⟩
    rw [← hview]
    exact viewFrom_old U.old (fun c hc => by cases hc; exact hlt) hobj 0

theorem view_start (h : Heap) : (h.alloc (record empty)).1.view (.object h.next) = View.layers [] :=
  viewFrom_empty (Nat.zero_le _) obj_alloc_self

theorem mergeAll_spec {as : List (Option ℕ)} {Ts : List (View Key (Content Key Scalar))}
    (U : Usable h) (has : List.Forall₂ (Shows h) as Ts) (hkeys : ∀ T ∈ Ts, OrdinaryKeys T)
    (hbounded : ∀ T ∈ Ts, T.Bounded n) :
    ∃ h' pos', mergeAll n h as = .ok (h', h.next) ∧
      Kept (h.alloc (record empty)).1 h' h.next (Function.update (fun _ => []) h.next [])
        pos' ∧ h'.view (.object h.next) = View.layers Ts := by
  obtain ⟨h', pos', hfold, K, hview⟩ := mergeSources_spec U.merging (Nat.le_refl _)
    (Nat.lt_succ_self _) (by rw [obj_alloc_self]; rfl) (has.imp fun a T ha => ha.older U) hkeys
    hbounded (view_start h)
  refine ⟨h', pos', ?_, K, hview⟩
  rw [mergeAll_eq, hfold]
  rfl

/-! ## Which merges respect the precedence -/

/-- The result is the sources laid over each other, and only new objects have been assigned to. -/
def Layered (js : Conversions) (options : List ConfigOptionDescriptor) (h : Heap)
    (sources : List Source) : Prop :=
  ∃ bound, ∀ n, bound ≤ n → ∃ h' result, mergeSources js options n h sources = .ok (h', result) ∧
    h'.view (.object result) = View.layers (sources.map fun source => source.view js options h) ∧
    (∀ a, a < h.next → h'.obj a = h.obj a) ∧
    ∃ w, h'.written = w ++ h.written ∧ ∀ a ∈ w, h.next ≤ a

/-- What `loadConfig` is called with: JSON values, and options whose paths are ordinary. -/
structure Loads (js : Conversions) (options : List ConfigOptionDescriptor) (h : Heap)
    (sources : List Source) : Prop where
  usable : Usable h
  paths : ∀ option ∈ options, protoKey ∉ optionPath option
  sources : ∀ source ∈ sources, source.Loadable js options h

/-- No source has a member `__proto__` on a path that is merged, and no option's path leads through
an object of the command line. -/
structure Separable (js : Conversions) (options : List ConfigOptionDescriptor) (h : Heap)
    (sources : List Source) : Prop where
  ordinary : ∀ source ∈ sources, OrdinaryKeys (source.view js options h)
  unshared : ∀ source ∈ sources, source.Unshared options h

variable {sources : List Source}

theorem Loads.subset {l : List Source} (L : Loads js options h sources) (hl : l ⊆ sources) :
    Loads js options h l := ⟨L.usable, L.paths, fun source hs => L.sources source (hl hs)⟩

theorem Separable.subset {l : List Source} (S : Separable js options h sources)
    (hl : l ⊆ sources) : Separable js options h l :=
  ⟨fun source hs => S.ordinary source (hl hs), fun source hs => S.unshared source (hl hs)⟩

theorem Loads.exists_bound (L : Loads js options h sources) :
    ∃ bound, ∀ source ∈ sources, (source.view js options h).Bounded bound := by
  have hfinite : ∀ T ∈ sources.map fun source => source.view js options h, Finite T := by
    intro T hT
    obtain ⟨source, hs, rfl⟩ := List.mem_map.mp hT
    exact (L.sources source hs).finite
  obtain ⟨bound, hbound⟩ := Loader.exists_bound hfinite
  exact ⟨bound, fun source hs => hbound _ (List.mem_map_of_mem hs)⟩

theorem forall₂_map_right {α β γ : Type} {R : β → γ → Prop} {f : α → γ} {xs : List α}
    {ys : List β} (hall : List.Forall₂ (fun x y => R y (f x)) xs ys) :
    List.Forall₂ R ys (xs.map f) := by
  induction hall with
  | nil => exact .nil
  | cons hxy _ ih => exact .cons hxy ih

theorem Separable.layered (S : Separable js options h sources) (L : Loads js options h sources) :
    Layered js options h sources := by
  obtain ⟨bound, hbound⟩ := L.exists_bound
  refine ⟨bound, fun n hn => ?_⟩
  obtain ⟨h₁, as, hbuild, R, hgrown, hframe, hshows⟩ := toConfigs_spec L.usable L.usable.ready
    L.paths fun source hs => ⟨L.sources source hs, S.unshared source hs⟩
  obtain ⟨h₂, pos, hmerge, K, hview⟩ := mergeAll_spec (n := n) R.usable (forall₂_map_right hshows)
    (by
      intro T hT
      obtain ⟨source, hs, rfl⟩ := List.mem_map.mp hT
      exact S.ordinary source hs)
    (by
      intro T hT
      obtain ⟨source, hs, rfl⟩ := List.mem_map.mp hT
      exact (hbound source hs).mono hn)
  have hnext : h.next ≤ h₁.next := hgrown.next
  refine ⟨h₂, h₁.next, ?_, hview, fun a ha => ?_, ?_⟩
  · rw [mergeSources, hbuild]
    exact hmerge
  · have hlt : a < h₁.next := Nat.lt_of_lt_of_le ha hnext
    rw [K.old a hlt, obj_alloc_of_ne (Nat.ne_of_lt hlt), hframe a ha]
  · obtain ⟨w, hw, hwnew⟩ := hgrown.written
    obtain ⟨w', hw', hwnew'⟩ := K.grown.written
    refine ⟨w' ++ w, by rw [hw', written_alloc, hw, List.append_assoc], fun a ha => ?_⟩
    rcases List.mem_append.mp ha with ha | ha
    · exact Nat.le_trans hnext (hwnew' a ha)
    · exact hwnew a ha

theorem Layered.unshared (E : Layered js options h sources) (L : Loads js options h sources) :
    ∀ source ∈ sources, source.Unshared options h := by
  by_contra hnot
  push Not at hnot
  obtain ⟨bound, hbound⟩ := E
  obtain ⟨h₂, result, hmerge, -, -, w, hw, hnew⟩ := hbound bound (Nat.le_refl bound)
  rw [mergeSources] at hmerge
  obtain ⟨⟨h₁, as⟩, hbuild, hall⟩ := exists_of_bind hmerge
  have W := (wrote_toConfigs L.usable L.usable.ready L.paths L.sources hnot hbuild).after
    (written_mergeAll hall)
  obtain ⟨w', hw', x, hx, hlt⟩ := W
  rw [hw, List.append_cancel_right_eq] at hw'
  subst hw'
  exact Nat.not_le.mpr hlt (hnew x hx)

theorem exists_first {α : Type} {P : α → Prop} {xs : List α} (hbad : ∃ x ∈ xs, ¬ P x) :
    ∃ pre x post, xs = pre ++ x :: post ∧ (∀ y ∈ pre, P y) ∧ ¬ P x := by
  induction xs with
  | nil =>
    obtain ⟨x, hx, -⟩ := hbad
    cases hx
  | cons x xs ih =>
    by_cases hx : P x
    · obtain ⟨y, hy, hbad⟩ := hbad
      have hyx : y ∈ xs := (List.mem_cons.mp hy).resolve_left (by rintro rfl; exact hbad hx)
      obtain ⟨pre, z, post, rfl, hpre, hz⟩ := ih ⟨y, hyx, hbad⟩
      exact ⟨x :: pre, z, post, rfl, List.forall_mem_cons.mpr ⟨hx, hpre⟩, hz⟩
    · exact ⟨[], x, xs, rfl, by simp, hx⟩

theorem forall₂_concat_right {α β : Type} {R : α → β → Prop} {xs : List α} {ys : List β} {y : β}
    (hall : List.Forall₂ R xs (ys ++ [y])) :
    ∃ xs' x, xs = xs' ++ [x] ∧ List.Forall₂ R xs' ys ∧ R x y := by
  induction ys generalizing xs with
  | nil =>
    cases hall with
    | cons hx hnil =>
      cases hnil
      exact ⟨[], _, rfl, .nil, hx⟩
  | cons z ys ih =>
    cases hall with
    | cons hz hrest =>
      obtain ⟨xs', x, rfl, hall, hx⟩ := ih hrest
      exact ⟨_ :: xs', x, rfl, .cons hz hall, hx⟩

theorem not_layered_concat {source : Source} (L : Loads js options h (sources ++ [source]))
    (hunshared : ∀ s ∈ sources ++ [source], s.Unshared options h)
    (hkeys : ∀ s ∈ sources, OrdinaryKeys (s.view js options h))
    (hbad : ¬ OrdinaryKeys (source.view js options h)) :
    ¬ Layered js options h (sources ++ [source]) := by
  rintro ⟨bound, hlayered⟩
  obtain ⟨bound', hbounded⟩ := L.exists_bound
  obtain ⟨h₃, result, hmerge, hlayers, -⟩ := hlayered (bound + bound') (by omega)
  have hbounded : ∀ s ∈ sources ++ [source], (s.view js options h).Bounded (bound + bound') :=
    fun s hs => (hbounded s hs).mono (by omega)
  obtain ⟨h₁, as, hbuild, R, -, -, hshows⟩ := toConfigs_spec L.usable L.usable.ready L.paths
    fun s hs => ⟨L.sources s hs, hunshared s hs⟩
  have hall := forall₂_map_right hshows
  rw [List.map_append, List.map_singleton] at hall
  obtain ⟨as, last, rfl, hall, hlast⟩ := forall₂_concat_right hall
  -- the sources before it are merged as they should be
  obtain ⟨h₂, pos, hfold, K, hview⟩ := mergeSources_spec R.usable.merging
    (Nat.le_refl _) (Nat.lt_succ_self _) (by rw [obj_alloc_self]; rfl)
    (hall.imp fun a T ha => ha.older R.usable)
    (by
      intro T hT
      obtain ⟨s, hs, rfl⟩ := List.mem_map.mp hT
      exact hkeys s hs)
    (by
      intro T hT
      obtain ⟨s, hs, rfl⟩ := List.mem_map.mp hT
      exact hbounded s (List.mem_append_left _ hs))
    (view_start h₁)
  have hlast := (hlast.older R.usable).kept R.usable.merging K
  rw [mergeSources, hbuild] at hmerge
  have hmerge : mergeAll (bound + bound') h₁ (as ++ [last]) = .ok (h₃, result) := hmerge
  rw [mergeAll_eq, List.foldlM_append, hfold] at hmerge
  obtain ⟨h₄, hone, hret⟩ := exists_of_bind hmerge
  cases hret
  have hsource : mergeSource (bound + bound') h₁.next h₂ last = .ok h₃ := by
    rw [← hone]
    show _ = [last].foldlM (mergeSource (bound + bound') h₁.next) h₂
    rw [List.foldlM_cons]
    cases mergeSource (bound + bound') h₁.next h₂ last <;> rfl
  have hbad : ∃ p, protoKey ∈ p ∧ source.view js options h p ≠ .absent := by
    by_contra hnone
    exact hbad fun p hp => by_contra fun hne => hnone ⟨p, hp, hne⟩
  cases last with
  | none =>
    obtain ⟨p, hp, hne⟩ := hbad
    have hempty : source.view js options h = View.empty := hlast
    rw [hempty] at hne
    cases p with
    | nil => cases hp
    | cons k p => exact hne rfl
  | some a =>
    obtain ⟨hlt, harr, hsees⟩ := hlast
    have hP : Polluting h₂ h₁.next a (bound + bound') := by
      refine ⟨hlt, harr, ?_, ?_⟩
      · rw [hsees]
        exact hbounded source (by simp)
      · rw [hsees]
        exact hbad
    obtain ⟨D, W, q, F⟩ := mergeConfig_misses h₁.next (bound + bound') K.merging (Nat.le_refl _)
      (Nat.lt_of_lt_of_le (Nat.lt_succ_self _) K.grown.next)
      (by rw [K.grown.isArray _ (Nat.lt_succ_self _), obj_alloc_self]; rfl) hP hsource
    have hmissing := F.way.absent
    rw [hlayers, List.map_append, List.map_singleton, View.layers_concat] at hmissing
    have hmember := F.view
    rw [hsees] at hmember
    have hdecides : (source.view js options h).decides (q ++ [protoKey]) = true := by
      rw [← hsees] at hmember ⊢
      exact View.decides_ofTree hmember
    rw [View.atop_of_decides hdecides] at hmissing
    exact hmember hmissing

/-- Every list of sources is merged by precedence exactly when none has a member `__proto__` on a
merged path and no option's path leads through the command line. -/
theorem precedence_iff_separable (js : Conversions) (options : List ConfigOptionDescriptor)
    (h : Heap) (sources : List Source) (L : Loads js options h sources) :
    (∀ l, l <+: sources → Layered js options h l) ↔ Separable js options h sources := by
  constructor
  · intro hlayered
    have hunshared := (hlayered sources (List.prefix_refl _)).unshared L
    refine ⟨?_, hunshared⟩
    by_contra hbad
    push Not at hbad
    obtain ⟨pre, source, post, rfl, hpre, hsource⟩ := exists_first hbad
    have hinit : pre ++ [source] <+: pre ++ source :: post := ⟨post, by simp⟩
    exact not_layered_concat (L.subset hinit.subset)
      (fun s hs => hunshared s (hinit.subset hs)) hpre hsource (hlayered _ hinit)
  · intro S l hl
    exact (S.subset hl.subset).layered (L.subset hl.subset)

/-- The heap once a config file `{"__proto__": {"polluted": true}}` has been read. -/
def pollutingHeap : Heap where
  obj
    | 0 => ⟨false, none, empty, []⟩
    | 1 => ⟨true, some objectPrototype, empty, []⟩
    | 2 => record (.ofEntries [("polluted".toList, .leaf (.bool true))])
    | _ => record (.ofEntries [(protoKey, .object 2)])
  next := 4
  written := []

def noConversions : Conversions := ⟨fun _ => .nonFinite, fun _ => none⟩

/-- Merging the config file assigns to `Object.prototype`. -/
theorem polluting_not_layered : ¬ Layered noConversions [] pollutingHeap [.object (some 3)] := by
  rintro ⟨bound, hlayered⟩
  obtain ⟨h', result, hmerge, -, -, w, hw, hnew⟩ := hlayered (bound + 2) (Nat.le_add_right bound 2)
  have hwritten : (mergeSources noConversions [] (bound + 2) pollutingHeap
      [.object (some 3)]).toOption.map (fun r => r.1.written) = some [objectPrototype] := rfl
  rw [hmerge] at hwritten
  have hw : w ++ [] = [objectPrototype] := by
    rw [← Option.some.inj hwritten]
    exact hw.symm
  rw [List.append_nil] at hw
  subst hw
  exact absurd (hnew objectPrototype (List.mem_singleton_self _)) (by decide)

/-- The heap with defaults `{"level": "info"}` and a config file `{"level": "debug"}`. -/
def layeredHeap : Heap where
  obj
    | 0 => ⟨false, none, empty, []⟩
    | 1 => ⟨true, some objectPrototype, empty, []⟩
    | 2 => record (.ofEntries [("level".toList, .leaf (.string "info".toList))])
    | _ => record (.ofEntries [("level".toList, .leaf (.string "debug".toList))])
  next := 4
  written := []

def levelOption : ConfigOptionDescriptor := ⟨"level".toList, none, none, some "LEVEL".toList, []⟩

def levelSources : List Source :=
  [.object (some 2), .object (some 3), .env (fun _ => some "error".toList) true]

theorem flat_get? {k j : Key} {l : Leaf} {v : Value}
    (hv : (ofEntries [(k, Value.leaf l)]).get? j = some v) : v = .leaf l := by
  have hall : (ofEntries [(k, Value.leaf l)]).All fun _ v => v = .leaf l := by
    apply OrderedMap.All.ofEntries
    rintro e he
    rw [List.mem_singleton.mp he]
  exact hall (j, v) (mem_entries_iff.mpr hv)

theorem flat_refers {k : Key} {l : Leaf} {c : ℕ}
    (hc : (record (.ofEntries [(k, .leaf l)])).Refers c) : c = objectPrototype := by
  rcases hc with ⟨j, hj⟩ | hproto
  · cases flat_get? hj
  · exact (Option.some.inj hproto).symm

theorem flat_finite {h : Heap} {a : ℕ} {k : Key} {l : Leaf} (ha : h.obj a =
    record (.ofEntries [(k, .leaf l)])) : Finite (h.view (.object a)) := by
  refine ⟨2, ?_⟩
  rintro (_ | ⟨j, _ | ⟨j', p⟩⟩) hp
  · cases hp
  · exact absurd hp (Nat.not_succ_le_self 1)
  · show (h.view (.object a)).child j (j' :: p) = .absent
    rw [view_child (by rw [ha]; rfl), own, ha]
    show h.view (((ofEntries [(k, Value.leaf l)]).get? j).getD .undefined) _ = _
    cases hget : (ofEntries [(k, Value.leaf l)]).get? j with
    | none => rfl
    | some v =>
      cases flat_get? hget
      rfl

theorem precedence_iff_separable_level :
    Loads noConversions [levelOption] layeredHeap levelSources ∧
      ((∀ l, l <+: levelSources → Layered noConversions [levelOption] layeredHeap l) ↔
        Separable noConversions [levelOption] layeredHeap levelSources) := by
  have L : Loads noConversions [levelOption] layeredHeap levelSources := by
    refine ⟨⟨⟨rfl, rfl, rfl, List.not_mem_nil⟩, by decide, ?_⟩, by decide, ?_⟩
    · rintro a ha - c hc
      refine ⟨?_, Set.notMem_empty c⟩
      have hflat : c = objectPrototype := by
        obtain _ | _ | _ | a := a
        · rcases hc with ⟨k, hk⟩ | hproto
          · cases hk
          · cases hproto
        · rcases hc with ⟨k, hk⟩ | hproto
          · cases hk
          · exact (Option.some.inj hproto).symm
        · exact flat_refers hc
        · exact flat_refers hc
      subst hflat
      decide
    · intro source hs
      obtain rfl | rfl | rfl : source = .object (some 2) ∨ source = .object (some 3) ∨
          source = .env (fun _ => some "error".toList) true := by simpa [levelSources] using hs
      · exact ⟨by decide, rfl, flat_finite rfl⟩
      · exact ⟨by decide, rfl, flat_finite rfl⟩
      · intro option ho value hvalue
        cases List.mem_singleton.mp ho
        exact Option.some_ne_none _
  exact ⟨L, precedence_iff_separable _ _ _ _ L⟩

end TransformHub.Config.Loader
