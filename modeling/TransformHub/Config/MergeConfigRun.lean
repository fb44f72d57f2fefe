import TransformHub.Config.SetPath

/-!
# What `mergeConfig` does

In a result that nobody else refers to, `mergeConfig` with a source without a `__proto__` member
lays the source over the target, key by key, and a member that is a record is merged in turn.
-/

namespace TransformHub.Config.Loader

open ObjectHeap Heap

variable {h h' : Heap} {lo s t n : ℕ} {k : Key} {q : List Key} {v : Value} {pos : ℕ → List Key}

/-- The objects from `lo` on belong to the result, a record of it refers to no older object, and
none has a member `__proto__`. -/
structure Merging (h : Heap) (lo : ℕ) (pos : ℕ → List Key) : Prop where
  placed : h.Placed lo lo pos
  owned : ∀ a, lo ≤ a → a < h.next → (h.obj a).isArray = false →
    ∀ k c, h.own a k = .object c → lo ≤ c
  ordinaryKeys : ∀ a, lo ≤ a → a < h.next → (h.obj a).isArray = false →
    (h.obj a).props.get? protoKey = none

theorem Merging.alloc (M : Merging h lo pos) {o : Obj} (q : List Key)
    (ho : o = record OrderedMap.empty ∨ o = array o.props)
    (hprops : ∀ k c, o.props.get? k = some (.object c) → c < lo) :
    Merging (h.alloc o).1 lo (Function.update pos h.next q) := by
  have hnew : o = record o.props ∨ o = array o.props := by
    rcases ho with rfl | ho
    · exact .inl rfl
    · exact .inr ho
  refine ⟨M.placed.alloc q hnew fun k c hc => .inl (hprops k c hc), ?_, ?_⟩
  · intro a hlo ha harr k c hc
    by_cases hnew : a = h.next
    · subst hnew
      rw [obj_alloc_self] at harr
      rcases ho with rfl | ho
      · rw [own_empty obj_alloc_self] at hc
        cases hc
      · rw [ho] at harr
        cases harr
    · rw [obj_alloc_of_ne hnew] at harr
      rw [own_congr (obj_alloc_of_ne hnew)] at hc
      rw [next_alloc] at ha
      exact M.owned a hlo (by omega) harr k c hc
  · intro a hlo ha harr
    by_cases hnew : a = h.next
    · subst hnew
      rw [obj_alloc_self] at harr ⊢
      rcases ho with rfl | ho
      · rfl
      · rw [ho] at harr
        cases harr
    · rw [obj_alloc_of_ne hnew] at harr ⊢
      rw [next_alloc] at ha
      exact M.ordinaryKeys a hlo (by omega) harr

theorem Merging.setOwn (M : Merging h lo pos) (ht : lo ≤ t) (hk : k ≠ protoKey)
    (hv : ∀ c, v = .object c → lo ≤ c ∧ c < h.next ∧ pos c = pos t ++ [k]) :
    Merging (h.setOwn t k v) lo pos := by
  refine ⟨M.placed.setOwn ht fun c hc => .inr (hv c hc), ?_, ?_⟩
  · intro a hlo ha harr j c hc
    rw [isArray_setOwn] at harr
    by_cases hat : a = t
    · subst hat
      by_cases hj : j = k
      · subst hj
        rw [own_setOwn_self (M.placed.methods a hlo ha)] at hc
        exact (hv c hc).1
      · rw [own_setOwn_of_ne hj] at hc
        exact M.owned a hlo ha harr j c hc
    · rw [own_congr (obj_setOwn_of_ne hat)] at hc
      exact M.owned a hlo ha harr j c hc
  · intro a hlo ha harr
    rw [isArray_setOwn] at harr
    by_cases hat : a = t
    · subst hat
      rw [obj_setOwn_self, OrderedMap.get?_set_of_ne _ hk]
      exact M.ordinaryKeys a hlo ha harr
    · rw [obj_setOwn_of_ne hat]
      exact M.ordinaryKeys a hlo ha harr

theorem Merging.view_old (M : Merging h lo pos) (hv : ∀ c, v = .object c → c < lo)
    (hsame : ∀ c, c < lo → h'.obj c = h.obj c) : h'.view v = h.view v :=
  viewFrom_old M.placed.old hv hsame 0

theorem Merging.member_old (M : Merging h lo pos) (hs : s < lo) (k : Key) :
    ∀ c, h.own s k = .object c → c < lo :=
  fun c hc => M.placed.old s hs c (.inl ⟨k, own_eq_object hc⟩)

/-! ## The elements of an array -/

theorem get_elements (h : Heap) (a : ℕ) (j : Key) :
    ((elements h a).get? j).getD .undefined = h.own a j := by
  have hget : (elements h a).get? j = ((h.keys a).find? fun k => k = j).map (h.own a) := by
    apply OrderedMap.get?_ofEntries_map (f := fun k => k)
    rw [List.map_id']
    exact keys_nodup h a
  rw [hget]
  cases hfind : (h.keys a).find? (fun k => decide (k = j)) with
  | none =>
    have hj : j ∉ h.keys a := by
      intro hj
      have := List.find?_eq_none.mp hfind j hj
      simp at this
    rw [own_of_notMem_keys hj]
    rfl
  | some k =>
    have hk : k = j := by simpa using List.find?_some hfind
    subst hk
    rfl

theorem own_elements {a c : ℕ} (hobj : h'.obj c = array (elements h a)) (j : Key) :
    h'.own c j = h.own a j := by
  rw [← get_elements h a j]
  simp [own, hobj, array]

theorem view_copy {a c : ℕ} (hobj : h'.obj c = array (elements h a))
    (harr : (h.obj a).isArray = true)
    (hmembers : ∀ j, View.contents (h'.kind 0) h'.member (h.own a j) =
      View.contents (h.kind 0) h.member (h.own a j)) :
    h'.view (.object c) = h.view (.object a) := by
  apply View.ofTree_eq_of_contents
  funext p
  cases p with
  | nil =>
    show h'.kind 0 (.object c) = h.kind 0 (.object a)
    simp [kind, hobj, harr, array]
  | cons j p =>
    show View.contents _ _ (h'.own c j) p = View.contents _ _ (h.own a j) p
    rw [own_elements hobj, hmembers j]

/-! ## One key -/

/-- What both the merge of a source and the merge of one key keep. -/
structure Kept (h h' : Heap) (lo : ℕ) (pos pos' : ℕ → List Key) : Prop where
  merging : Merging h' lo pos'
  grown : h.Extends h' lo
  same : ∀ x, x < h.next → pos' x = pos x
  old : ∀ x, x < lo → h'.obj x = h.obj x

/-- The source is laid over the target. -/
structure Merged (h h' : Heap) (lo : ℕ) (pos pos' : ℕ → List Key) (t s : ℕ) : Prop
    extends Kept h h' lo pos pos' where
  frame : ∀ x, x < h.next → ¬ pos t <+: pos x → h'.obj x = h.obj x
  view : h'.view (.object t) = (h.view (.object s)).atop (h.view (.object t))

/-- The member of the source is laid over the member of the target. -/
structure KeyMerged (h h' : Heap) (lo : ℕ) (pos pos' : ℕ → List Key) (t s : ℕ) (k : Key) : Prop
    extends Kept h h' lo pos pos' where
  frame : ∀ x, x < h.next → x ≠ t → ¬ pos t ++ [k] <+: pos x → h'.obj x = h.obj x
  others : ∀ j, j ≠ k → h'.own t j = h.own t j
  view : h'.view (h'.own t k) = (h.view (h.own s k)).atop (h.view (h.own t k))

/-- Of a record that is a source: it is older than the result, and has no `__proto__` member. -/
structure Mergeable (h : Heap) (lo s : ℕ) (n : ℕ) : Prop where
  lt : s < lo
  isArray : (h.obj s).isArray = false
  ordinaryKeys : ∀ p, protoKey ∈ p → h.view (.object s) p = .absent
  bounded : (h.view (.object s)).Bounded n

/-- `mergeConfig` with `n` frames of the call stack merges what is no deeper. -/
def Merges (lo n : ℕ) : Prop :=
  ∀ {h : Heap} {pos : ℕ → List Key} {t s : ℕ}, Merging h lo pos → lo ≤ t → t < h.next →
    (h.obj t).isArray = false → Mergeable h lo s n →
    ∃ h' pos', mergeConfig n h t s = .ok h' ∧ Merged h h' lo pos pos' t s

theorem view_child {a : ℕ} (harr : (h.obj a).isArray = false) (k : Key) :
    (h.view (.object a)).child k = h.view (h.own a k) := viewFrom_child (Nat.zero_le a) harr k

/-- One member of a source, of which no path goes through `__proto__`. -/
structure MergeableKey (h : Heap) (lo s : ℕ) (k : Key) (n : ℕ) : Prop where
  lt : s < lo
  ordinaryKeys : ∀ p, protoKey ∈ k :: p → h.view (h.own s k) p = .absent
  bounded : (h.view (h.own s k)).Bounded n

theorem Mergeable.key (hs : Mergeable h lo s (n + 1)) (k : Key) : MergeableKey h lo s k n := by
  have hmember : ∀ p, h.view (h.own s k) p = h.view (.object s) (k :: p) :=
    fun p => (congrFun (view_child hs.isArray k) p).symm
  refine ⟨hs.lt, fun p hp => ?_, fun p hp => ?_⟩
  · rw [hmember]
    exact hs.ordinaryKeys _ hp
  · rw [hmember]
    exact hs.bounded _ (by rw [List.length_cons]; omega)

theorem MergeableKey.member (M : Merging h lo pos) (hs : MergeableKey h lo s k n) {c : ℕ}
    (hc : plainObject? h (h.own s k) = some c) : Mergeable h lo c n := by
  obtain ⟨hown, harr⟩ := plainObject?_eq_some.mp hc
  refine ⟨M.member_old hs.lt k c hown, harr, fun p hp => ?_, ?_⟩
  · rw [← hown]
    exact hs.ordinaryKeys p (List.mem_cons_of_mem k hp)
  · rw [← hown]
    exact hs.bounded

theorem view_root_ne_absent (hv : v ≠ .undefined) : h.view v [] ≠ .absent := by
  intro habsent
  have hkind := View.ofTree_root_eq_absent_iff.mp habsent
  cases v with
  | undefined => exact hv rfl
  | leaf l => cases hkind
  | object c =>
    simp only [kind, Nat.not_lt_zero, if_false] at hkind
    split_ifs at hkind

theorem MergeableKey.ne_protoKey (hs : MergeableKey h lo s k n) (hk : h.own s k ≠ .undefined) :
    k ≠ protoKey := by
  rintro rfl
  exact view_root_ne_absent hk (hs.ordinaryKeys [] (List.mem_singleton_self _))

theorem Mergeable.kept {pos' : ℕ → List Key} (hs : Mergeable h lo s n) (M : Merging h lo pos)
    (K : Kept h h' lo pos pos') : Mergeable h' lo s n := by
  have hview : h'.view (.object s) = h.view (.object s) := by
    refine M.view_old ?_ K.old
    rintro _ ⟨⟩
    exact hs.lt
  refine ⟨hs.lt, ?_, ?_, ?_⟩
  · rw [K.old s hs.lt, hs.isArray]
  · rw [hview]
    exact hs.ordinaryKeys
  · rw [hview]
    exact hs.bounded

theorem Kept.trans {h'' : Heap} {pos' pos'' : ℕ → List Key} (K : Kept h h' lo pos pos')
    (K' : Kept h' h'' lo pos' pos'') : Kept h h'' lo pos pos'' := by
  refine ⟨K'.merging, K.grown.trans K'.grown, fun x hx => ?_, fun x hx => ?_⟩
  · rw [K'.same x (Nat.lt_of_lt_of_le hx K.grown.next), K.same x hx]
  · rw [K'.old x hx, K.old x hx]

theorem Merging.kept_refl (M : Merging h lo pos) : Kept h h lo pos pos :=
  ⟨M, Extends.refl h lo, fun _ _ => rfl, fun _ _ => rfl⟩

theorem Merging.kept_alloc (M : Merging h lo pos) {o : Obj} (q : List Key)
    (ho : o = record OrderedMap.empty ∨ o = array o.props)
    (hprops : ∀ k c, o.props.get? k = some (.object c) → c < lo) :
    Kept h (h.alloc o).1 lo pos (Function.update pos h.next q) := by
  have hnext : lo ≤ h.next := M.placed.le
  refine ⟨M.alloc q ho hprops, extends_alloc h o lo, fun x hx => ?_, fun x hx => ?_⟩
  · exact Function.update_of_ne (Nat.ne_of_lt hx) ..
  · exact obj_alloc_of_ne (by omega)

theorem Merging.kept_setOwn (M : Merging h lo pos) (ht : lo ≤ t) (hk : k ≠ protoKey)
    (hv : ∀ c, v = .object c → lo ≤ c ∧ c < h.next ∧ pos c = pos t ++ [k]) :
    Kept h (h.setOwn t k v) lo pos pos :=
  ⟨M.setOwn ht hk hv, extends_setOwn ht k v, fun _ _ => rfl, fun x hx => obj_setOwn_of_ne (by omega)⟩

theorem KeyMerged.assign {pos' : ℕ → List Key} (K : Kept h h' lo pos pos')
    (hframe : ∀ x, x < h.next → x ≠ t → ¬ pos t ++ [k] <+: pos x → h'.obj x = h.obj x)
    (ht : lo ≤ t) (hlt : t < h.next) (hobj : h'.obj t = h.obj t) (hk : k ≠ protoKey)
    (hv : ∀ c, v = .object c → lo ≤ c ∧ c < h'.next ∧ pos' c = pos' t ++ [k])
    (hview : h'.view v = (h.view (h.own s k)).atop (h.view (h.own t k))) :
    ∃ h'' pos'', h'.put t k v = .ok h'' ∧ KeyMerged h h'' lo pos pos'' t s k := by
  have P : h'.Placed lo lo pos' := K.merging.placed
  have hlt' : t < h'.next := Nat.lt_of_lt_of_le hlt K.grown.next
  refine ⟨h'.setOwn t k v, pos', ?_, K.trans (K.merging.kept_setOwn ht hk hv), ?_, ?_, ?_⟩
  · exact put_of_ne hk t v
  · intro x hx hxt hpre
    rw [obj_setOwn_of_ne hxt, hframe x hx hxt hpre]
  · intro j hj
    rw [own_setOwn_of_ne hj, own_congr hobj]
  · rw [own_setOwn_self (P.methods t ht hlt'), ← hview]
    -- the value does not contain the target
    refine P.viewFrom_congr (q := pos' t ++ [k]) (fun c hc => .inr (hv c hc)) ?_ 0
    intro c hc hcase
    apply obj_setOwn_of_ne
    rintro rfl
    rcases hcase with hcase | ⟨-, hpre⟩
    · omega
    · have hlen := hpre.length_le
      rw [List.length_append, List.length_singleton] at hlen
      omega

theorem over_of_not_plain {S : View Key (Content Key Scalar)} (hS : S [] = .inner)
    (hv : plainObject? h v = none) : S.atop (h.view v) = S.atop View.empty := by
  apply View.eq_of_child
  · rw [View.atop_nil_of_inner _ hS, View.atop_nil_of_inner _ hS]
  · intro j
    rw [View.atop_child _ hS, View.atop_child _ hS]
    apply congrArg
    funext p
    refine View.ofTree_cons_of_ne (fun hrecord => ?_) j p
    have hinner : h.view v [] = .inner := View.ofTree_root_eq_inner_iff.mpr hrecord
    have hrecord : (h.view v).asRecord = h.view v := View.asRecord_of_inner hinner
    cases v with
    | undefined | leaf l => cases hinner
    | object c =>
      have hkind : h.kind 0 (.object c) = .record := View.ofTree_root_eq_inner_iff.mp hinner
      simp only [kind] at hkind
      split_ifs at hkind with harr
      have hsome : plainObject? h (.object c) = some c :=
        plainObject?_eq_some.mpr ⟨rfl, Bool.eq_false_iff.mpr harr⟩
      rw [hsome] at hv
      cases hv

theorem array?_of_plainObject? (hv : plainObject? h v = none) :
    (∃ c, v = .object c ∧ (h.obj c).isArray = true ∧ array? h v = some c) ∨
      ((∀ c, v ≠ .object c) ∧ array? h v = none) := by
  cases v with
  | undefined | leaf l => exact .inr ⟨nofun, rfl⟩
  | object c =>
    simp only [plainObject?] at hv
    split_ifs at hv with harr
    exact .inl ⟨c, rfl, harr, by simp [array?, harr]⟩

theorem mergeKey_spec (ih : Merges lo n) (M : Merging h lo pos) (ht : lo ≤ t) (hlt : t < h.next)
    (harr : (h.obj t).isArray = false) (hs : MergeableKey h lo s k n) (hk : k ∈ h.keys s) :
    ∃ h' pos', mergeKey (mergeConfig n) t s h k = .ok h' ∧ KeyMerged h h' lo pos pos' t s k := by
  have P : h.Placed lo lo pos := M.placed
  have hle : lo ≤ h.next := P.le
  by_cases hundef : h.own s k = .undefined
  · refine ⟨h, pos, by simp [mergeKey, get_of_mem_keys hk, hundef], M.kept_refl, fun _ _ _ _ => rfl,
      fun _ _ => rfl, ?_⟩
    rw [hundef, View.atop_of_absent]
    rfl
  have hproto : k ≠ protoKey := hs.ne_protoKey hundef
  have htarget := plainObject?_get P.pristine (P.ordinary ht hlt harr) (P.ne_objectPrototype ht)
    P.one_le hproto
  have hold := M.member_old hs.lt k
  cases hplain : plainObject? h (h.own s k) with
  | some v =>
    have hv : Mergeable h lo v n := hs.member M hplain
    obtain ⟨hown, hvarr⟩ := plainObject?_eq_some.mp hplain
    have hinner : h.view (.object v) [] = .inner := viewFrom_root (Nat.zero_le v) hvarr
    cases hexisting : plainObject? h (h.own t k) with
    | some c =>
      -- the member of the target is a record of the result, with its own place
      obtain ⟨hcown, hcarr⟩ := plainObject?_eq_some.mp hexisting
      have hclo : lo ≤ c := M.owned t ht hlt harr k c hcown
      rcases P.edges t k ht hlt c hcown with hcold | ⟨-, hclt, hcpos⟩
      · omega
      obtain ⟨h', pos', hmerge, G⟩ := ih M hclo hclt hcarr hv
      have hobj : h'.obj t = h.obj t := by
        refine G.frame t hlt fun hpre => ?_
        have hlen := hpre.length_le
        rw [hcpos, List.length_append, List.length_singleton] at hlen
        omega
      refine ⟨h', pos', ?_, G.toKept, fun x hx _ hpre => G.frame x hx (by rwa [hcpos]),
        fun j _ => own_congr hobj, ?_⟩
      · simp only [mergeKey, get_of_mem_keys hk, hundef, if_false, htarget, hplain, hexisting]
        exact hmerge
      · rw [own_congr hobj, hcown, hown]
        exact G.view
    | none =>
      have hfresh := M.kept_alloc (o := record OrderedMap.empty) (pos t ++ [k])
        (.inl rfl) nofun
      have hself : Function.update pos h.next (pos t ++ [k]) h.next = pos t ++ [k] :=
        Function.update_self ..
      obtain ⟨h₁, pos₁, hmerge, G⟩ := ih hfresh.merging hle (Nat.lt_succ_self _)
        (by rw [obj_alloc_self]; rfl) (hv.kept M hfresh)
      have hframe : ∀ x, x < h.next → ¬ pos t ++ [k] <+: pos x → h₁.obj x = h.obj x := by
        intro x hx hpre
        rw [G.frame x (Nat.lt_succ_of_lt hx), obj_alloc_of_ne (Nat.ne_of_lt hx)]
        rwa [hself, Function.update_of_ne (Nat.ne_of_lt hx)]
      have hlonger : ¬ pos t ++ [k] <+: pos t := by
        intro hpre
        have hlen := hpre.length_le
        rw [List.length_append, List.length_singleton] at hlen
        omega
      obtain ⟨h₂, pos₂, hput, hassigned⟩ := KeyMerged.assign (k := k) (v := .object h.next)
        (s := s) (hfresh.trans G.toKept) (fun x hx _ => hframe x hx) ht hlt
        (hframe t hlt hlonger) hproto (by
          rintro _ ⟨⟩
          refine ⟨hle, Nat.lt_of_lt_of_le (Nat.lt_succ_self _) G.grown.next, ?_⟩
          rw [G.same _ (Nat.lt_succ_self _), hself, G.same t (Nat.lt_succ_of_lt hlt),
            Function.update_of_ne (Nat.ne_of_lt hlt)]) (by
          rw [G.view, hown, over_of_not_plain hinner hexisting]
          congr 1
          · exact M.view_old (fun c hc => by cases hc; exact hv.lt) hfresh.old
          · exact viewFrom_empty (Nat.zero_le _) obj_alloc_self)
      refine ⟨h₂, pos₂, ?_, hassigned⟩
      simp only [mergeKey, get_of_mem_keys hk, hundef, if_false, htarget, hplain, hexisting]
      show (do let h ← mergeConfig n (h.alloc (record OrderedMap.empty)).1 h.next v
               h.put t k (.object _)) = _
      rw [hmerge]
      exact hput
  | none =>
    rcases array?_of_plainObject? hplain with ⟨v, hown, hvarr, harray⟩ | ⟨hno, harray⟩
    · have hfresh := M.kept_alloc (o := array (elements h v)) (pos t ++ [k]) (.inr rfl)
        (fun j c hc => by
          refine M.member_old (hold v hown) j c ?_
          have hc : (elements h v).get? j = some (.object c) := hc
          rw [← get_elements, hc]
          rfl)
      have hself : Function.update pos h.next (pos t ++ [k]) h.next = pos t ++ [k] :=
        Function.update_self ..
      obtain ⟨h₂, pos₂, hput, hassigned⟩ := KeyMerged.assign (k := k) (v := .object h.next)
        (s := s) hfresh (fun x hx _ _ => obj_alloc_of_ne (Nat.ne_of_lt hx)) ht hlt
        (obj_alloc_of_ne (Nat.ne_of_lt hlt)) hproto (by
          rintro _ ⟨⟩
          exact ⟨hle, Nat.lt_succ_self _, by
            rw [hself, Function.update_of_ne (Nat.ne_of_lt hlt)]⟩) (by
          have hvalue : h.view (h.own s k) [] ≠ .inner ∧ h.view (h.own s k) [] ≠ .absent := by
            rw [hown]
            simp [view, viewFrom, View.ofTree, kind, hvarr]
          have hover : (h.view (h.own s k)).atop (h.view (h.own t k)) = h.view (h.own s k) := by
            cases hroot : h.view (h.own s k) [] with
            | absent => exact absurd hroot hvalue.2
            | inner => exact absurd hroot hvalue.1
            | value a => exact View.atop_of_value _ hroot
          rw [hover, hown]
          exact view_copy obj_alloc_self hvarr fun j =>
            contents_old M.placed.old (M.member_old (hold v hown) j) hfresh.old 0)
      refine ⟨h₂, pos₂, ?_, hassigned⟩
      simp only [mergeKey, get_of_mem_keys hk, hundef, if_false, htarget, hplain, harray]
      exact hput
    · obtain ⟨l, hl⟩ : ∃ l, h.own s k = .leaf l := by
        cases hown : h.own s k with
        | undefined => exact absurd hown hundef
        | leaf l => exact ⟨l, rfl⟩
        | object c => exact absurd hown (hno c)
      obtain ⟨h₂, pos₂, hput, hassigned⟩ := KeyMerged.assign (k := k) (v := h.own s k) (s := s)
        M.kept_refl (fun x hx _ _ => rfl) ht hlt rfl hproto (fun c hc => absurd hc (hno c)) (by
          rw [hl]
          have hvalue : h.view (.leaf l) [] = .value (.scalar (.leaf l)) := rfl
          exact (View.atop_of_value _ hvalue).symm)
      refine ⟨h₂, pos₂, ?_, hassigned⟩
      simp only [mergeKey, get_of_mem_keys hk, hundef, if_false, htarget, hplain, harray]
      exact hput

/-! ## All keys -/

/-- The listed members of the source are laid over the members of the target. -/
structure KeysMerged (h h' : Heap) (lo : ℕ) (pos pos' : ℕ → List Key) (t s : ℕ) (ks : List Key) :
    Prop extends Kept h h' lo pos pos' where
  frame : ∀ x, x < h.next → ¬ pos t <+: pos x → h'.obj x = h.obj x
  merged : ∀ j, j ∈ ks → h'.view (h'.own t j) = (h.view (h.own s j)).atop (h.view (h.own t j))
  others : ∀ j, j ∉ ks → h'.view (h'.own t j) = h.view (h.own t j)

theorem mergeKeys_spec (ih : Merges lo n) {ks : List Key} (hks : ks.Nodup)
    (M : Merging h lo pos) (ht : lo ≤ t) (hlt : t < h.next) (harr : (h.obj t).isArray = false)
    (hs : Mergeable h lo s (n + 1)) (hkeys : ∀ k ∈ ks, k ∈ h.keys s) :
    ∃ h' pos', ks.foldlM (mergeKey (mergeConfig n) t s) h = .ok h' ∧
      KeysMerged h h' lo pos pos' t s ks := by
  induction ks generalizing h pos with
  | nil =>
    exact ⟨h, pos, rfl, M.kept_refl, fun _ _ _ => rfl, nofun, fun _ _ => rfl⟩
  | cons k ks ihks =>
    obtain ⟨hk, hnodup⟩ := List.nodup_cons.mp hks
    obtain ⟨hkmem, hrest⟩ := List.forall_mem_cons.mp hkeys
    obtain ⟨h₁, pos₁, hkey, G⟩ := mergeKey_spec ih M ht hlt harr (hs.key k) hkmem
    have hold₁ : h₁.obj s = h.obj s := G.old s hs.lt
    obtain ⟨h₂, pos₂, hfold, F⟩ := ihks hnodup G.merging (Nat.lt_of_lt_of_le hlt G.grown.next)
      (by rw [G.grown.isArray t hlt, harr]) (hs.kept M G.toKept)
      (fun j hj => by
        rw [keys, hold₁]
        exact hrest j hj)
    have hother : ∀ j, j ≠ k → h₁.view (h₁.own t j) = h.view (h.own t j) := by
      intro j hj
      rw [G.others j hj]
      apply M.placed.viewFrom_congr (M.placed.edges t j ht hlt)
      intro x hx hcase
      rcases hcase with hcase | ⟨-, hpre⟩
      · exact G.old x hcase
      · refine G.frame x hx ?_ (not_prefix_of_ne hj hpre)
        rintro rfl
        have hlen := hpre.length_le
        rw [List.length_append, List.length_singleton] at hlen
        omega
    refine ⟨h₂, pos₂, ?_, G.toKept.trans F.toKept, ?_, ?_, ?_⟩
    · rw [List.foldlM_cons, hkey]
      exact hfold
    · intro x hx hpre
      rw [F.frame x (Nat.lt_of_lt_of_le hx G.grown.next) ?_]
      · apply G.frame x hx
        · rintro rfl
          exact hpre (List.prefix_refl _)
        · exact fun hpre' => hpre ((List.prefix_append _ _).trans hpre')
      · rwa [G.same t hlt, G.same x hx]
    · intro j hj
      by_cases hjk : j = k
      · subst hjk
        rw [F.others j hk, G.view]
      · have hjks : j ∈ ks := (List.mem_cons.mp hj).resolve_left hjk
        rw [F.merged j hjks, hother j hjk, own_congr hold₁]
        congr 1
        exact M.view_old (M.member_old hs.lt j) G.old
    · intro j hj
      rw [List.mem_cons, not_or] at hj
      rw [F.others j hj.2, hother j hj.1]

theorem mergeConfig_spec (n : ℕ) : Merges lo n := by
  induction n with
  | zero =>
    intro h pos t s M ht hlt harr hs
    have habsent := hs.bounded [] (Nat.le_refl 0)
    have hinner : h.view (.object s) [] = .inner := viewFrom_root (Nat.zero_le s) hs.isArray
    rw [hinner] at habsent
    cases habsent
  | succ n ih =>
    intro h pos t s M ht hlt harr hs
    obtain ⟨h', pos', hfold, F⟩ :=
      mergeKeys_spec ih (keys_nodup h s) M ht hlt harr hs fun k hk => hk
    have harr' : (h'.obj t).isArray = false := by rw [F.grown.isArray t hlt, harr]
    have hinner : h.view (.object s) [] = .inner := viewFrom_root (Nat.zero_le s) hs.isArray
    refine ⟨h', pos', hfold, F.toKept, F.frame, ?_⟩
    apply View.eq_of_child
    · rw [View.atop_nil_of_inner _ hinner]
      exact viewFrom_root (Nat.zero_le t) harr'
    · intro j
      rw [View.atop_child _ hinner, view_child harr', view_child hs.isArray, view_child harr]
      by_cases hj : j ∈ h.keys s
      · exact F.merged j hj
      · rw [F.others j hj, own_of_notMem_keys hj, View.atop_of_absent]
        rfl

end TransformHub.Config.Loader
