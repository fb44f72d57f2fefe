import TransformHub.Config.ConfigPlaces

/-!
# Setting a path

`setPath` in an object whose members have their places: the view of the object gets the value at the
path, and what is not on the path stays as it is.
-/

namespace TransformHub.Config.Loader

open ObjectHeap Heap OrderedMap

variable {h h' : Heap} {b lo a c : ℕ} {k : Key} {q : List Key} {v : Value}
  {pos : ℕ → List Key}

/-! ## Reading a member of a record -/

theorem plainObject?_eq_some :
    plainObject? h v = some c ↔ v = .object c ∧ (h.obj c).isArray = false := by
  cases v with
  | undefined | leaf l => simp [plainObject?]
  | object a =>
    simp only [plainObject?, Value.object.injEq]
    split_ifs with harr
    · constructor
      · exact nofun
      · rintro ⟨rfl, hplain⟩
        rw [hplain] at harr
        cases harr
    · rw [Option.some.injEq]
      constructor
      · rintro rfl
        exact ⟨rfl, Bool.eq_false_iff.mpr harr⟩
      · exact fun hac => hac.1

theorem plainObject?_get (hp : h.Pristine) (ho : h.Ordinary a) (ha : a ≠ objectPrototype)
    (hnext : 1 ≤ h.next) (hk : k ≠ protoKey) :
    plainObject? h (h.get a k) = plainObject? h (h.own a k) := by
  apply Option.ext
  intro c
  rw [plainObject?_eq_some, plainObject?_eq_some]
  constructor
  · rintro ⟨hc, harr⟩
    exact ⟨(get_ordinary hp ho ha hnext hk (.inl hc)).2, harr⟩
  · rintro ⟨hc, harr⟩
    exact ⟨(get_ordinary hp ho ha hnext hk (.inr hc)).1, harr⟩

section

variable {e : ℕ} (he : e ≤ a) (harr : (h.obj a).isArray = false)
include he harr

theorem kind_record : h.kind e (.object a) = .record := by
  simp [kind, harr, he]

theorem viewFrom_root :
    h.viewFrom e (.object a) [] = .inner := View.ofTree_root_inner (kind_record he harr)

theorem viewFrom_child (k : Key) : (h.viewFrom e (.object a)).child k = h.viewFrom e (h.own a k) :=
  View.ofTree_child (kind_record he harr) k

end

theorem asRecord_viewFrom {e : ℕ} (hv : plainObject? h v = none) :
    (h.viewFrom e v).asRecord = View.empty := by
  apply View.asRecord_of_ne
  intro hinner
  have hrecord := View.ofTree_root_eq_inner_iff.mp hinner
  cases v with
  | undefined | leaf l => cases hrecord
  | object c =>
    simp only [kind] at hrecord
    split_ifs at hrecord with harr
    have hsome : plainObject? h (.object c) = some c :=
      plainObject?_eq_some.mpr ⟨rfl, Bool.eq_false_iff.mpr harr⟩
    rw [hsome] at hv
    cases hv

theorem own_empty (hobj : h.obj a = record empty) (k : Key) : h.own a k = .undefined := by
  simp [own, hobj, record]

theorem viewFrom_empty {e : ℕ} (he : e ≤ a) (hobj : h.obj a = record empty) :
    h.viewFrom e (.object a) = View.empty := by
  have harr : (h.obj a).isArray = false := by rw [hobj]; rfl
  apply View.eq_of_child
  · exact viewFrom_root he harr
  · intro k
    rw [viewFrom_child he harr, own_empty hobj]
    funext p
    cases p <;> rfl

theorem not_prefix_of_ne {j k : Key} (hjk : j ≠ k) {x : List Key} (hj : q ++ [j] <+: x) :
    ¬ q ++ [k] <+: x := by
  rintro ⟨s, rfl⟩
  obtain ⟨t, ht⟩ := hj
  rw [List.append_assoc, List.append_assoc] at ht
  exact hjk (List.cons.inj (List.append_cancel_left ht)).1

/-- No object below `b` lies on the path, the last part apart. -/
def Uncrossed (h : Heap) (b : ℕ) : ℕ → List Key → Prop
  | a, part :: key :: path =>
    ∀ c, h.own a part = .object c → (h.obj c).isArray = false →
      b ≤ c ∧ Uncrossed h b c (key :: path)
  | _, _ => True

theorem uncrossed_empty (hobj : h.obj a = record empty) (path : List Key) :
    Uncrossed h b a path := by
  cases path with
  | nil => trivial
  | cons part path =>
    cases path with
    | nil => trivial
    | cons key path =>
      intro c hc
      rw [own_empty hobj] at hc
      cases hc

/-! ## One part of the path -/

/-- The record that stands at the next part of the path, after it has been made if need be. -/
structure Entered (h h' : Heap) (b lo : ℕ) (pos pos' : ℕ → List Key) (a : ℕ) (part : Key)
    (path : List Key) (c : ℕ) : Prop where
  placed : h'.Placed b lo pos'
  grown : h.Extends h' lo
  same : ∀ x, x < h.next → pos' x = pos x
  frame : ∀ x, x < h.next → x ≠ a → h'.obj x = h.obj x
  own : h'.own a part = .object c
  get : h'.get a part = .object c
  lo_le : lo ≤ c
  lt : c < h'.next
  isArray : (h'.obj c).isArray = false
  place : pos' c = pos a ++ [part]
  others : ∀ j, j ≠ part → h'.own a j = h.own a j
  uncrossed : Uncrossed h' b c path
  view : ∀ e, e ≤ b → (h'.viewFrom e (.object c)).asRecord = (h.viewFrom e (h.own a part)).asRecord

theorem enter_spec (P : h.Placed b lo pos) (hlo : lo ≤ a) (ha : a < h.next)
    (harr : (h.obj a).isArray = false) {part key : Key} {path : List Key} (hpart : part ≠ protoKey)
    (hopen : Uncrossed h b a (part :: key :: path)) :
    ∃ h' pos' c, enter h a part = .ok h' ∧ Entered h h' b lo pos pos' a part (key :: path) c := by
  have ho : h.Ordinary a := P.ordinary hlo ha harr
  have hne : a ≠ objectPrototype := P.ne_objectPrototype hlo
  have hget := plainObject?_get P.pristine ho hne P.one_le hpart
  cases hplain : plainObject? h (h.own a part) with
  | some c =>
    obtain ⟨hown, hcarr⟩ := plainObject?_eq_some.mp hplain
    obtain ⟨hbc, hrest⟩ := hopen c hown hcarr
    refine ⟨h, pos, c, by rw [enter, hget, hplain], ?_⟩
    rcases P.edges a part hlo ha c hown with hold | ⟨hclo, hclt, hcpos⟩
    · exact absurd hold (by omega)
    · exact ⟨P, Extends.refl h lo, fun _ _ => rfl, fun _ _ _ => rfl, hown,
        (get_ordinary P.pristine ho hne P.one_le hpart (.inr hown)).1, hclo, hclt, hcarr, hcpos,
        fun _ _ => rfl, hrest, fun e _ => by rw [hown]⟩
  | none =>
    have P₁ := P.alloc (o := record empty) (pos a ++ [part]) (.inl rfl)
      nofun
    have hpos : ∀ x, x < h.next → Function.update pos h.next (pos a ++ [part]) x = pos x :=
      fun x hx => Function.update_of_ne (Nat.ne_of_lt hx) ..
    have hself : Function.update pos h.next (pos a ++ [part]) h.next = pos a ++ [part] :=
      Function.update_self ..
    have ha₁ : a < (h.alloc (record empty)).1.next := Nat.lt_succ_of_lt ha
    have hobj : (h.alloc (record empty)).1.obj a = h.obj a :=
      obj_alloc_of_ne (Nat.ne_of_lt ha)
    have harr₁ : ((h.alloc (record empty)).1.obj a).isArray = false := by
      rw [hobj, harr]
    have P₂ := P₁.setOwn (k := part) (v := .object h.next) hlo (by
      rintro _ ⟨⟩
      exact .inr ⟨P.le, Nat.lt_succ_self _, by rw [hself, hpos a ha]⟩)
    have hfresh : ((h.alloc (record empty)).1.setOwn a part (.object h.next)).obj
        h.next = record empty := by
      rw [obj_setOwn_of_ne (Nat.ne_of_gt ha), obj_alloc_self]
    have hown : ((h.alloc (record empty)).1.setOwn a part (.object h.next)).own a part =
        .object h.next := own_setOwn_self (P₁.methods a hlo ha₁)
    have ho₂ := P₂.ordinary hlo ha₁ (by rw [isArray_setOwn, harr₁])
    refine ⟨_, _, h.next, ?_, P₂, ?_, hpos, ?_, hown, ?_, P.le, Nat.lt_succ_self _, ?_, hself, ?_,
      uncrossed_empty hfresh _, ?_⟩
    · rw [enter, hget, hplain]
      exact put_of_ne hpart _ _
    · exact (extends_alloc h _ lo).trans (extends_setOwn hlo _ _)
    · intro x hx hxa
      rw [obj_setOwn_of_ne hxa, obj_alloc_of_ne (Nat.ne_of_lt hx)]
    · exact (get_ordinary P₂.pristine ho₂ hne P₂.one_le hpart (.inr hown)).1
    · rw [hfresh]
      rfl
    · intro j hj
      rw [own_setOwn_of_ne hj, own_congr hobj]
    · intro e he
      rw [viewFrom_empty (Nat.le_trans he (Nat.le_trans P.b_le P.le)) hfresh,
        asRecord_viewFrom hplain]
      rfl

/-! ## The whole path -/

/-- What `setPath` does. -/
structure PathSet (h h' : Heap) (b lo : ℕ) (pos pos' : ℕ → List Key) (a : ℕ) (path : List Key)
    (v : Value) : Prop where
  placed : h'.Placed b lo pos'
  grown : h.Extends h' lo
  same : ∀ x, x < h.next → pos' x = pos x
  frame : ∀ x, x < h.next → x < lo ∨ ¬ pos a <+: pos x ∨ (pos a ++ path).length ≤ (pos x).length →
    h'.obj x = h.obj x
  view : ∀ e, e ≤ b →
    h'.viewFrom e (.object a) = (h.viewFrom e (.object a)).set path (h.viewFrom e v)

theorem setPath_last (P : h.Placed b lo pos) (hlo : lo ≤ a) (ha : a < h.next)
    (harr : (h.obj a).isArray = false) (hk : k ≠ protoKey) (hv : h.At b lo pos (pos a ++ [k]) v) :
    ∃ h' pos', setPath h a [k] v = .ok h' ∧ PathSet h h' b lo pos pos' a [k] v := by
  refine ⟨h.setOwn a k v, pos, ?_, P.setOwn hlo hv, extends_setOwn hlo k v, fun _ _ => rfl, ?_, ?_⟩
  · exact put_of_ne hk a v
  · rintro x - hx
    apply obj_setOwn_of_ne
    rintro rfl
    rcases hx with hx | hx | hx
    · omega
    · exact hx (List.prefix_refl _)
    · rw [List.length_append, List.length_singleton] at hx
      omega
  · intro e he
    have hea : e ≤ a := by
      have hb : b ≤ lo := P.b_le
      omega
    have hsame : ∀ j, ∀ u, h.At b lo pos (pos a ++ [j]) u →
        (h.setOwn a k v).viewFrom e u = h.viewFrom e u := by
      intro j u hu
      apply P.viewFrom_congr hu
      intro c hc hcase
      apply obj_setOwn_of_ne
      rintro rfl
      have hb : b ≤ lo := P.b_le
      rcases hcase with hcase | ⟨-, hpre⟩
      · omega
      · have hlen := hpre.length_le
        rw [List.length_append, List.length_singleton] at hlen
        omega
    have harr' : ((h.setOwn a k v).obj a).isArray = false := by rw [isArray_setOwn, harr]
    apply View.eq_of_child
    · exact viewFrom_root hea harr'
    · intro j
      rw [viewFrom_child hea harr']
      by_cases hj : j = k
      · subst hj
        rw [View.set_child_self, own_setOwn_self (P.methods a hlo ha)]
        exact hsame j v hv
      · rw [View.set_child_of_ne _ hj, View.asRecord_of_inner (viewFrom_root hea harr),
          viewFrom_child hea harr, own_setOwn_of_ne hj]
        exact hsame j _ (P.edges a j hlo ha)

theorem setPath_spec {path : List Key} (P : h.Placed b lo pos) (hlo : lo ≤ a) (ha : a < h.next)
    (harr : (h.obj a).isArray = false) (hpath : path ≠ []) (hproto : protoKey ∉ path)
    (hv : h.At b lo pos (pos a ++ path) v) (hopen : Uncrossed h b a path) :
    ∃ h' pos', setPath h a path v = .ok h' ∧ PathSet h h' b lo pos pos' a path v := by
  -- along the path, the cursor goes to records whose places are longer and longer
  induction path generalizing h pos a with
  | nil => exact absurd rfl hpath
  | cons part path ih =>
    rw [List.mem_cons, not_or] at hproto
    cases path with
    | nil => exact setPath_last P hlo ha harr (Ne.symm hproto.1) hv
    | cons key path =>
      obtain ⟨h₁, pos₁, c, henter, E⟩ :=
        enter_spec P hlo ha harr (Ne.symm hproto.1) hopen
      have hpos₁ : pos₁ c ++ key :: path = pos a ++ part :: key :: path := by
        rw [E.place, List.append_assoc]
        rfl
      have hv₁ : h₁.At b lo pos₁ (pos₁ c ++ key :: path) v := by
        rw [hpos₁]
        exact hv.mono E.grown.next E.same
      obtain ⟨h₂, pos₂, hset, S⟩ := ih E.placed E.lo_le E.lt E.isArray (by simp) hproto.2 hv₁
        E.uncrossed
      have hnext : h.next ≤ h₁.next := E.grown.next
      have ha₁ : a < h₁.next := by omega
      have hobj : h₂.obj a = h₁.obj a := by
        apply S.frame a ha₁
        refine .inr (.inl fun hpre => ?_)
        have hlen := hpre.length_le
        rw [E.place, E.same a ha, List.length_append, List.length_singleton] at hlen
        omega
      refine ⟨h₂, pos₂, ?_, S.placed, E.grown.trans S.grown, ?_, ?_, ?_⟩
      · simp only [setPath, henter, bind, Except.bind, E.get, hset]
      · intro x hx
        rw [S.same x (by omega), E.same x hx]
      · intro x hx hcase
        have hxa : x ≠ a := by
          rintro rfl
          rcases hcase with hcase | hcase | hcase
          · omega
          · exact hcase (List.prefix_refl _)
          · rw [List.length_append, List.length_cons] at hcase
            omega
        rw [S.frame x (by omega) ?_, E.frame x hx hxa]
        rw [hpos₁, E.same x hx, E.place]
        rcases hcase with hcase | hcase | hcase
        · exact .inl hcase
        · exact .inr (.inl fun hpre => hcase ((List.prefix_append _ _).trans hpre))
        · exact .inr (.inr hcase)
      · intro e he
        have hb : b ≤ lo := P.b_le
        have hea : e ≤ a := by omega
        have hec : e ≤ c := by
          have hclo : lo ≤ c := E.lo_le
          omega
        have harr₂ : (h₂.obj a).isArray = false := by rw [hobj, E.grown.isArray a ha, harr]
        apply View.eq_of_child
        · exact viewFrom_root hea harr₂
        · intro j
          rw [viewFrom_child hea harr₂, own_congr hobj]
          by_cases hj : j = part
          · subst hj
            have hview : h₁.viewFrom e v = h.viewFrom e v := by
              apply P.viewFrom_congr hv
              intro x hx hcase
              apply E.frame x hx
              rintro rfl
              rcases hcase with hcase | ⟨-, hpre⟩
              · omega
              · have hlen := hpre.length_le
                rw [List.length_append, List.length_cons] at hlen
                omega
            rw [View.set_child_self, View.asRecord_of_inner (viewFrom_root hea harr),
              viewFrom_child hea harr, E.own, S.view e he, hview]
            exact View.set_congr (E.view e he) _ _ _
          · rw [View.set_child_of_ne _ hj, View.asRecord_of_inner (viewFrom_root hea harr),
              viewFrom_child hea harr, E.others j hj]
            apply P.viewFrom_congr (P.edges a j hlo ha)
            intro x hx hcase
            have hxa : x ≠ a := by
              rintro rfl
              rcases hcase with hcase | ⟨-, hpre⟩
              · omega
              · have hlen := hpre.length_le
                rw [List.length_append, List.length_singleton] at hlen
                omega
            rw [S.frame x (by omega) ?_, E.frame x hx hxa]
            rw [E.same x hx, E.place]
            rcases hcase with hcase | ⟨-, hpre⟩
            · exact .inl (by omega)
            · exact .inr (.inl (not_prefix_of_ne hj hpre))

/-- The last part of an empty path is `undefined`. -/
def wholePath (path : List Key) : List Key := if path = [] then ["undefined".toList] else path

theorem setPath_whole (h : Heap) (a : ℕ) (path : List Key) (v : Value) :
    setPath h a path v = setPath h a (wholePath path) v := by
  cases path <;> rfl

theorem wholePath_ne_nil (path : List Key) : wholePath path ≠ [] := by
  cases path <;> simp [wholePath]

theorem protoKey_notMem_wholePath {path : List Key} (hproto : protoKey ∉ path) :
    protoKey ∉ wholePath path := by
  cases path with
  | nil => decide
  | cons k path => exact hproto

end TransformHub.Config.Loader
