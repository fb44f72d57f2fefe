import Mathlib.Data.List.Induction
import TransformHub.Config.ConfigSources

/-!
# Building the sources

The loops of `envToConfig` and `cliToConfig`: after every option the record that is built looks as
the options so far say, and what was there before the loop stays as it is.
-/

namespace TransformHub.Config.Loader

open ObjectHeap Heap OrderedMap

variable {js : Conversions} {options : List ConfigOptionDescriptor} {h₀ h h' : Heap} {lo a c : ℕ}
  {k : Key} {v : Value} {pos : ℕ → List Key} {T : ℕ → View Key (Content Key Scalar)}

/-- The heap when `loadConfig` is called: objects refer to objects. -/
structure Usable (h : Heap) : Prop where
  pristine : h.Pristine
  builtin : arrayPrototype < h.next
  sealed : h.Sealed ∅

/-- Nothing that was there before has changed. -/
structure Ready (h₀ h : Heap) : Prop where
  usable : Usable h
  grown : h₀.Extends h h₀.next
  old : ∀ x, x < h₀.next → h.obj x = h₀.obj x

theorem Usable.old (U : Usable h) : ∀ a, a < h.next → ∀ c, (h.obj a).Refers c → c < h.next :=
  fun a ha c hc => (U.sealed a ha (Set.notMem_empty a) c hc).1

theorem Usable.ready (U : Usable h) : Ready h h := ⟨U, Extends.refl h _, fun _ _ => rfl⟩

theorem Usable.get_lt (U : Usable h) (ha : a < h.next) (k : Key) :
    ∀ c, h.get a k = .object c → c < h.next :=
  fun c hc => (U.sealed.get ha (Set.notMem_empty a) k c hc).1

theorem get_congr (hp : h.Pristine) (hp' : h'.Pristine) (ho : h.Ordinary a)
    (ha : a ≠ objectPrototype) (hnext : 1 ≤ h.next) (hnext' : 1 ≤ h'.next)
    (hobj : h'.obj a = h.obj a) (hzero : h'.obj objectPrototype = h.obj objectPrototype) (k : Key) :
    h'.get a k = h.get a k := by
  have ho' : h'.Ordinary a := by
    obtain ⟨h₁, h₂, h₃⟩ := ho
    constructor <;> rw [hobj] <;> assumption
  have hfind : h'.find a k = h.find a k := by
    rw [find_ordinary hp ho ha hnext, find_ordinary hp' ho' ha hnext', hobj, hzero]
  rw [Heap.get, Heap.get, hfind]
  unfold prototypeOf
  rw [hobj]

namespace Building

theorem start (U : Usable h₀) (R : Ready h₀ h) :
    Building h₀ (h.alloc (record empty)).1 h.next (Function.update (fun _ => []) h.next [])
      (fun _ => View.empty) := by
  have hle : h₀.next ≤ h.next := R.grown.next
  have P : h.Placed h₀.next h.next (fun _ => []) := by
    refine ⟨R.usable.pristine, U.builtin, hle, Nat.le_refl _, ?_, ?_, ?_, ?_, ?_⟩
    · exact fun a hlo ha => absurd ha (Nat.not_lt.mpr hlo)
    · exact fun a hlo ha => absurd ha (Nat.not_lt.mpr hlo)
    · exact fun a hlo ha => absurd ha (Nat.not_lt.mpr hlo)
    · exact fun a k hlo ha => absurd ha (Nat.not_lt.mpr hlo)
    · intro a ha c hc
      rw [R.old a ha] at hc
      exact U.old a ha c hc
  refine ⟨P.alloc [] (.inl rfl) nofun, hle, Nat.lt_succ_self _,
    Function.update_self .., ?_, ?_⟩
  · rw [obj_alloc_self]
    rfl
  · intro e he
    exact viewFrom_empty (Nat.le_trans he hle) obj_alloc_self

theorem setPath (B : Building h₀ h lo pos T) {path : List Key} (hproto : protoKey ∉ path)
    (hv : h.At h₀.next lo pos (wholePath path) v)
    (hclear : ∀ r, r <+: wholePath path → r ≠ wholePath path → ∀ c,
      T h₀.next r ≠ .value (.scalar (.foreign c))) :
    ∃ h' pos', Loader.setPath h lo path v = .ok h' ∧ h.Extends h' lo ∧
      (∀ x, x < lo → h'.obj x = h.obj x) ∧
      Building h₀ h' lo pos' (fun e => (T e).set (wholePath path) (h.viewFrom e v)) := by
  have hopen : Uncrossed h h₀.next lo (wholePath path) := by
    apply uncrossed_of_view B.placed (Nat.le_refl lo) B.lt B.isArray
    rw [B.view h₀.next (Nat.le_refl _)]
    exact hclear
  obtain ⟨h', pos', hset, S⟩ := setPath_spec B.placed (Nat.le_refl lo) B.lt B.isArray
    (wholePath_ne_nil path) (protoKey_notMem_wholePath hproto) (by rwa [B.root, List.nil_append])
    hopen
  refine ⟨h', pos', by rw [setPath_whole, hset], S.grown, ?_, S.placed, B.le,
    Nat.lt_of_lt_of_le B.lt S.grown.next, by rw [S.same lo B.lt, B.root], ?_, ?_⟩
  · intro x hx
    exact S.frame x (Nat.lt_trans hx B.lt) (.inl hx)
  · rw [S.grown.isArray lo B.lt, B.isArray]
  · intro e he
    rw [S.view e he, B.view e he]

theorem built {pos' : ℕ → List Key} (B : Building h₀ h lo pos T)
    (N : Built h h' h₀.next lo pos pos') : Building h₀ h' lo pos' T := by
  refine ⟨N.placed, B.le, Nat.lt_of_lt_of_le B.lt N.grown.next, by rw [N.same lo B.lt, B.root], ?_,
    fun e he => ?_⟩
  · rw [N.frame lo B.lt, B.isArray]
  · rw [← B.view e he]
    refine B.placed.viewFrom_congr (q := []) ?_ (fun c hc _ => N.frame c hc) e
    rintro _ ⟨⟩
    exact .inr ⟨Nat.le_refl lo, B.lt, B.root⟩

end Building

/-! ## `cliToConfig` -/

theorem cliViewFrom_concat (options : List ConfigOptionDescriptor) (option : ConfigOptionDescriptor)
    (h : Heap) (b cli : ℕ) :
    cliViewFrom (options ++ [option]) h b cli =
      if h.get cli option.name = .undefined then cliViewFrom options h b cli
      else (cliViewFrom options h b cli).set (wholePath (optionPath option))
        (h.viewFrom b (h.get cli option.name)) := by
  rw [cliViewFrom, List.foldl_append]
  rfl

/-- The object of the command line, which is an ordinary one. -/
structure Options (h : Heap) (cli : ℕ) : Prop where
  lt : cli < h.next
  ordinary : h.Ordinary cli
  ne : cli ≠ objectPrototype

theorem setCliOption_spec {cli : ℕ} (U : Usable h₀) (C : Options h₀ cli)
    {before : List ConfigOptionDescriptor} {option : ConfigOptionDescriptor}
    (hpath : protoKey ∉ optionPath option) (hold : ∀ x, x < h₀.next → h.obj x = h₀.obj x)
    (B : Building h₀ h lo pos (fun e => cliViewFrom before h₀ e cli))
    (hclear : h₀.get cli option.name ≠ .undefined → ∀ r, r <+: wholePath (optionPath option) →
      r ≠ wholePath (optionPath option) → ∀ c,
        cliViewFrom before h₀ h₀.next cli r ≠ .value (.scalar (.foreign c))) :
    ∃ h' pos', setCliOption cli lo h option = .ok h' ∧ h.Extends h' lo ∧
      (∀ x, x < lo → h'.obj x = h.obj x) ∧
      Building h₀ h' lo pos' (fun e => cliViewFrom (before ++ [option]) h₀ e cli) := by
  have hget : h.get cli option.name = h₀.get cli option.name :=
    get_congr U.pristine B.placed.pristine C.ordinary C.ne (Nat.lt_of_le_of_lt (Nat.zero_le _) C.lt)
      B.placed.one_le (hold cli C.lt)
      (hold _ (Nat.lt_trans Nat.zero_lt_one U.builtin)) option.name
  by_cases hundef : h₀.get cli option.name = .undefined
  · refine ⟨h, pos, by rw [setCliOption, hget, if_pos hundef], Extends.refl h lo, fun _ _ => rfl, ?_⟩
    have hview : (fun e => cliViewFrom (before ++ [option]) h₀ e cli) =
        fun e => cliViewFrom before h₀ e cli := by
      funext e
      rw [cliViewFrom_concat, if_pos hundef]
    rwa [hview]
  · have hv := U.get_lt C.lt option.name
    obtain ⟨h', pos', hset, hgrown, hframe, B'⟩ := B.setPath hpath
      (v := h₀.get cli option.name) (fun c hc => .inl (hv c hc)) (hclear hundef)
    refine ⟨h', pos', by rw [setCliOption, hget, if_neg hundef, hset], hgrown, hframe, ?_⟩
    have hview : (fun e => cliViewFrom (before ++ [option]) h₀ e cli) =
        fun e => (cliViewFrom before h₀ e cli).set (wholePath (optionPath option))
          (h.viewFrom e (h₀.get cli option.name)) := by
      funext e
      rw [cliViewFrom_concat, if_neg hundef, viewFrom_old U.old hv hold e]
    rwa [hview]

/-! ## `envToConfig` -/

theorem envView_concat (options : List ConfigOptionDescriptor) (option : ConfigOptionDescriptor)
    (vars : Key → Option Key) (includeAliases : Bool) :
    envView js (options ++ [option]) vars includeAliases =
      match envValue js vars includeAliases option with
      | some d => (envView js options vars includeAliases).set (wholePath (optionPath option)) d.view
      | none => envView js options vars includeAliases := by
  rw [envView, List.foldl_append]
  rfl

theorem Data.view_ne_foreign (d : Data) (c : ℕ) (r : List Key) :
    d.view r ≠ .value (.scalar (.foreign c)) := by
  have htree : ∀ x : Option Data, View.ofTree Data.kind Data.member x r ≠
      .value (.scalar (.foreign c)) := by
    induction r with
    | nil =>
      intro x
      cases x with
      | none => simp [View.ofTree, Data.kind]
      | some d =>
        cases d with
        | leaf l => simp [View.ofTree, Data.kind]
        | node isArray members => cases isArray <;> simp [View.ofTree, Data.kind]
    | cons k r ih =>
      intro x
      unfold View.ofTree
      split
      · exact ih _
      · simp
  exact htree (some d)

theorem envView_ne_foreign (options : List ConfigOptionDescriptor) (vars : Key → Option Key)
    (includeAliases : Bool) (c : ℕ) (r : List Key) :
    envView js options vars includeAliases r ≠ .value (.scalar (.foreign c)) := by
  induction options using List.reverseRecOn generalizing r with
  | nil => cases r <;> simp [envView, View.empty]
  | append_singleton options option ih =>
    rw [envView_concat]
    split
    · exact View.set_ne_value (Data.view_ne_foreign _ c) ih r
    · exact ih r

/-- What the option is read from can be parsed. -/
def Parses (js : Conversions) (vars : Key → Option Key) (includeAliases : Bool)
    (option : ConfigOptionDescriptor) : Prop :=
  ∀ value, (envKey vars includeAliases option).bind vars = some value →
    coerceEnv js value (option.type.getD .string) ≠ none

theorem setEnvOption_spec {vars : Key → Option Key} {includeAliases : Bool}
    {before : List ConfigOptionDescriptor} {option : ConfigOptionDescriptor}
    (hpath : protoKey ∉ optionPath option) (hparses : Parses js vars includeAliases option)
    (B : Building h₀ h lo pos (fun _ => envView js before vars includeAliases)) :
    ∃ h' pos', setEnvOption js vars includeAliases lo h option = .ok h' ∧ h.Extends h' lo ∧
      (∀ x, x < lo → h'.obj x = h.obj x) ∧
      Building h₀ h' lo pos' (fun _ => envView js (before ++ [option]) vars includeAliases) := by
  rw [envView_concat]
  unfold setEnvOption envValue
  cases hvalue : (envKey vars includeAliases option).bind vars with
  | none => exact ⟨h, pos, rfl, Extends.refl h lo, fun _ _ => rfl, B⟩
  | some value =>
    cases hcoerce : coerceEnv js value (option.type.getD .string) with
    | none => exact absurd hcoerce (hparses value hvalue)
    | some d =>
      obtain ⟨pos₁, N, H⟩ := allocData_spec B.placed (wholePath (optionPath option)) d
      obtain ⟨h₂, pos₂, hset, hgrown, hframe, B₂⟩ := (B.built N).setPath hpath H.place
        (fun r _ _ c => envView_ne_foreign before vars includeAliases c r)
      refine ⟨h₂, pos₂, ?_, N.grown.trans hgrown, ?_, ?_⟩
      · simp only [hcoerce]
        exact hset
      · intro x hx
        rw [hframe x hx, N.frame x (Nat.lt_trans hx B.lt)]
      · simp only [Option.bind_some, hcoerce]
        refine ⟨B₂.placed, B₂.le, B₂.lt, B₂.root, B₂.isArray, fun e he => ?_⟩
        rw [B₂.view e he]
        congr 1
        exact View.ofTree_eq_of_contents (H.contents e he)

/-! ## Every source -/

/-- A record is deep, but not infinitely. -/
def Finite (T : View Key (Content Key Scalar)) : Prop := ∃ n, T.Bounded n

/-- What a source is assumed to be: a JSON object, variables that can be parsed, or an ordinary
object with such values. -/
def Source.Loadable (js : Conversions) (options : List ConfigOptionDescriptor) (h : Heap) :
    Source → Prop
  | .object (some a) => a < h.next ∧ (h.obj a).isArray = false ∧ Finite (h.view (.object a))
  | .object none => True
  | .env vars includeAliases => ∀ option ∈ options, Parses js vars includeAliases option
  | .cli values => Options h values ∧ ∀ option ∈ options, Finite (h.view (h.get values option.name))

/-- The source does not share objects with what is built from it. -/
def Source.Unshared (options : List ConfigOptionDescriptor) (h : Heap) : Source → Prop
  | .cli values => Loader.Unshared options h values
  | _ => True

/-- The object looks as the source says. -/
def Shows (h : Heap) (a : Option ℕ) (T : View Key (Content Key Scalar)) : Prop :=
  match a with
  | some a => a < h.next ∧ (h.obj a).isArray = false ∧ h.view (.object a) = T
  | none => T = View.empty

theorem Shows.mono {b : Option ℕ} {V : View Key (Content Key Scalar)} (U : Usable h)
    (hb : Shows h b V) (hnext : h.next ≤ h'.next) (hold : ∀ x, x < h.next → h'.obj x = h.obj x) :
    Shows h' b V := by
  cases b with
  | none => exact hb
  | some b =>
    obtain ⟨hlt, harr, hview⟩ := hb
    refine ⟨Nat.lt_of_lt_of_le hlt hnext, by rw [hold b hlt, harr], ?_⟩
    rw [← hview]
    exact viewFrom_old U.old (fun c hc => by cases hc; exact hlt) hold 0

theorem Building.ready (R : Ready h₀ h) (U : Usable h₀) (hgrown : h.Extends h' h.next)
    (hframe : ∀ x, x < h.next → h'.obj x = h.obj x) {pos : ℕ → List Key}
    (B : Building h₀ h' h.next pos T) : Ready h₀ h' := by
  have hle : h₀.next ≤ h.next := R.grown.next
  refine ⟨⟨B.placed.pristine, Nat.lt_of_lt_of_le U.builtin (Nat.le_trans hle hgrown.next), ?_⟩, ?_, ?_⟩
  · intro a ha _ c hc
    refine ⟨?_, Set.notMem_empty c⟩
    by_cases hlt : a < h.next
    · rw [hframe a hlt] at hc
      exact Nat.lt_of_lt_of_le (R.usable.old a hlt c hc) hgrown.next
    · have hlo : h.next ≤ a := Nat.not_lt.mp hlt
      rcases hc with ⟨k, hk⟩ | hproto
      · have hown : h'.own a k = .object c := by simp [own, B.placed.methods a hlo ha, hk]
        rcases B.placed.edges a k hlo ha c hown with hold | ⟨-, hclt, -⟩
        · exact Nat.lt_of_lt_of_le hold (Nat.le_trans hle hgrown.next)
        · exact hclt
      · exact Nat.lt_of_lt_of_le (B.placed.prototype a hlo ha c hproto)
          (Nat.le_trans hle hgrown.next)
  · refine R.grown.trans ⟨hgrown.next, ?_, hgrown.isArray⟩
    obtain ⟨w, hw, hwlo⟩ := hgrown.written
    exact ⟨w, hw, fun a ha => Nat.le_trans hle (hwlo a ha)⟩
  · intro x hx
    rw [hframe x (Nat.lt_of_lt_of_le hx hle), R.old x hx]

section

variable (set : Heap → ConfigOptionDescriptor → Except JsError Heap)
  (view : List ConfigOptionDescriptor → ℕ → View Key (Content Key Scalar))
  (hset : ∀ {h pos before option after}, options = before ++ option :: after →
    (∀ x, x < h₀.next → h.obj x = h₀.obj x) → Building h₀ h lo pos (view before) →
    ∃ h' pos', set h option = .ok h' ∧ h.Extends h' lo ∧ (∀ x, x < lo → h'.obj x = h.obj x) ∧
      Building h₀ h' lo pos' (view (before ++ [option])))
include hset

theorem Building.foldlM {before after : List ConfigOptionDescriptor}
    (hsplit : options = before ++ after) (hold : ∀ x, x < h₀.next → h.obj x = h₀.obj x)
    (B : Building h₀ h lo pos (view before)) :
    ∃ h' pos', after.foldlM set h = .ok h' ∧ h.Extends h' lo ∧
      (∀ x, x < lo → h'.obj x = h.obj x) ∧ Building h₀ h' lo pos' (view options) := by
  induction after generalizing h pos before with
  | nil =>
    rw [List.append_nil] at hsplit
    subst hsplit
    exact ⟨h, pos, rfl, Extends.refl h lo, fun _ _ => rfl, B⟩
  | cons option after ih =>
    obtain ⟨h₁, pos₁, hset, hgrown, hframe, B₁⟩ := hset hsplit hold B
    have hsplit' : options = (before ++ [option]) ++ after := by
      rw [hsplit, List.append_assoc]
      rfl
    obtain ⟨h₂, pos₂, hfold, hgrown', hframe', B₂⟩ := ih hsplit'
      (fun x hx => by rw [hframe x (Nat.lt_of_lt_of_le hx B.le), hold x hx]) B₁
    refine ⟨h₂, pos₂, ?_, hgrown.trans hgrown', ?_, B₂⟩
    · rw [List.foldlM_cons, hset]
      exact hfold
    · intro x hx
      rw [hframe' x hx, hframe x hx]

theorem Building.loop (U : Usable h₀) (R : Ready h₀ h) (hlo : h.next = lo)
    (hempty : view [] = fun _ => View.empty) :
    ∃ h', options.foldlM set (h.alloc (record empty)).1 = .ok h' ∧ Ready h₀ h' ∧
      h.Extends h' h.next ∧ (∀ x, x < h.next → h'.obj x = h.obj x) ∧
      Shows h' (some h.next) (view options 0) := by
  subst hlo
  have hstart : ∀ x, x < h.next → (h.alloc (record empty)).1.obj x = h.obj x :=
    fun x hx => obj_alloc_of_ne (Nat.ne_of_lt hx)
  obtain ⟨h', pos', hfold, hgrown, hframe, B⟩ := Building.foldlM set view hset (List.nil_append _).symm
    (fun x hx => by rw [hstart x (Nat.lt_of_lt_of_le hx R.grown.next), R.old x hx])
    (hempty ▸ Building.start U R)
  have hgrown := (extends_alloc h (record empty) h.next).trans hgrown
  have hframe : ∀ x, x < h.next → h'.obj x = h.obj x := fun x hx => by
    rw [hframe x hx, hstart x hx]
  exact ⟨h', hfold, B.ready R U hgrown hframe, hgrown, hframe, B.lt, B.isArray,
    B.view 0 (Nat.zero_le _)⟩

end

section

variable (U : Usable h₀) (R : Ready h₀ h)
  (hpaths : ∀ option ∈ options, protoKey ∉ optionPath option)
include U R hpaths

theorem toConfig_spec {source : Source}
    (hs : source.Loadable js options h₀) (hshared : source.Unshared options h₀) :
    ∃ h' a, source.toConfig js options h = .ok (h', a) ∧ Ready h₀ h' ∧ h.Extends h' h.next ∧
      (∀ x, x < h.next → h'.obj x = h.obj x) ∧ Shows h' a (source.view js options h₀) := by
  have hle : h₀.next ≤ h.next := R.grown.next
  have hmem : ∀ {before option after}, options = before ++ option :: after → option ∈ options := by
    intro before option after hsplit
    rw [hsplit]
    simp
  cases source with
  | object a =>
    refine ⟨h, a, rfl, R, Extends.refl h _, fun _ _ => rfl, ?_⟩
    cases a with
    | none => rfl
    | some a =>
      obtain ⟨hlt, harr, -⟩ := hs
      refine ⟨Nat.lt_of_lt_of_le hlt hle, by rw [R.old a hlt, harr], ?_⟩
      exact viewFrom_old U.old (fun c hc => by cases hc; exact hlt) R.old 0
  | env vars includeAliases =>
    obtain ⟨h', hfold, hshows⟩ := Building.loop (setEnvOption js vars includeAliases h.next)
      (fun options _ => envView js options vars includeAliases) (fun hsplit _ B =>
        setEnvOption_spec (hpaths _ (hmem hsplit)) (hs _ (hmem hsplit)) B) U R rfl rfl
    refine ⟨h', some h.next, ?_, hshows⟩
    show (do
      let h ← options.foldlM (setEnvOption js vars includeAliases h.next)
        (h.alloc (record empty)).1
      return (h, some _)) = _
    rw [hfold]
    rfl
  | cli values =>
    obtain ⟨h', hfold, hshows⟩ := Building.loop (setCliOption values h.next)
      (fun options e => cliViewFrom options h₀ e values) (fun hsplit hold B =>
        setCliOption_spec U hs.1 (hpaths _ (hmem hsplit)) hold B (hshared _ _ _ hsplit)) U R rfl rfl
    refine ⟨h', some h.next, ?_, hshows⟩
    show (do
      let h ← options.foldlM (setCliOption values h.next) (h.alloc (record empty)).1
      return (h, some _)) = _
    rw [hfold]
    rfl

theorem toConfigs_spec {sources : List Source}
    (hs : ∀ source ∈ sources, source.Loadable js options h₀ ∧ source.Unshared options h₀) :
    ∃ h' as, toConfigs js options h sources = .ok (h', as) ∧ Ready h₀ h' ∧
      h.Extends h' h.next ∧ (∀ x, x < h.next → h'.obj x = h.obj x) ∧
      List.Forall₂ (fun source a => Shows h' a (source.view js options h₀)) sources as := by
  induction sources generalizing h with
  | nil => exact ⟨h, [], rfl, R, Extends.refl h _, fun _ _ => rfl, .nil⟩
  | cons source sources ih =>
    obtain ⟨hsource, hrest⟩ := List.forall_mem_cons.mp hs
    obtain ⟨h₁, a, hbuild, R₁, hgrown, hframe, hshows⟩ :=
      toConfig_spec U R hpaths hsource.1 hsource.2
    obtain ⟨h₂, as, hbuilds, R₂, hgrown', hframe', hall⟩ := ih R₁ hrest
    have hnext : h.next ≤ h₁.next := hgrown.next
    refine ⟨h₂, a :: as, ?_, R₂, ?_, ?_, .cons (hshows.mono R₁.usable hgrown'.next hframe') hall⟩
    · simp only [toConfigs, hbuild, bind, Except.bind, hbuilds]
      rfl
    · refine hgrown.trans ⟨hgrown'.next, ?_, hgrown'.isArray⟩
      obtain ⟨w, hw, hwlo⟩ := hgrown'.written
      exact ⟨w, hw, fun a ha => Nat.le_trans hnext (hwlo a ha)⟩
    · intro x hx
      rw [hframe' x (Nat.lt_of_lt_of_le hx hnext), hframe x hx]

end

end TransformHub.Config.Loader
