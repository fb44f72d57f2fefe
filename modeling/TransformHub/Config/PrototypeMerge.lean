import Mathlib.Data.Set.Insert
import TransformHub.Config.MergeConfigRun

/-!
# Merging a source with a `__proto__` member

The target's `__proto__` is the accessor of `Object.prototype`, so the member of the source is
merged into the prototype or becomes it, and the result never gets the member.
-/

namespace TransformHub.Config.Loader

open ObjectHeap Heap

variable {h h' : Heap} {lo s t n : ℕ} {k : Key} {q : List Key} {v : Value} {pos : ℕ → List Key}
  {D : Set ℕ}

theorem exists_of_bind {ε α β : Type} {x : Except ε α} {f : α → Except ε β} {r : β}
    (h : (x >>= f) = .ok r) : ∃ a, x = .ok a ∧ f a = .ok r := by
  cases x with
  | error e => cases h
  | ok a => exact ⟨a, rfl, h⟩

/-! ## What is out of reach stays as it is -/

/-- The objects in `D` are there, and are neither built in nor referred to from outside. -/
structure Closed (h : Heap) (D : Set ℕ) : Prop where
  sealed : h.Sealed D
  lt : ∀ a ∈ D, a < h.next
  object : objectPrototype < h.next ∧ objectPrototype ∉ D
  array : arrayPrototype < h.next ∧ arrayPrototype ∉ D

/-- The objects in `D` stay as they are, and are still not referred to. -/
structure Spares (h h' : Heap) (D : Set ℕ) : Prop where
  closed : Closed h' D
  next : h.next ≤ h'.next
  frame : ∀ a ∈ D, h'.obj a = h.obj a

theorem Closed.spares (C : Closed h D) : Spares h h D := ⟨C, Nat.le_refl _, fun _ _ => rfl⟩

theorem Spares.trans {h'' : Heap} (S : Spares h h' D) (S' : Spares h' h'' D) : Spares h h'' D :=
  ⟨S'.closed, Nat.le_trans S.next S'.next, fun a ha => by rw [S'.frame a ha, S.frame a ha]⟩

theorem Closed.of_next (C : Closed h D) (hs : h'.Sealed D) (hnext : h.next ≤ h'.next) :
    Closed h' D :=
  ⟨hs, fun a ha => Nat.lt_of_lt_of_le (C.lt a ha) hnext,
    ⟨Nat.lt_of_lt_of_le C.object.1 hnext, C.object.2⟩,
    ⟨Nat.lt_of_lt_of_le C.array.1 hnext, C.array.2⟩⟩

theorem Closed.next_notMem (C : Closed h D) : h.next ∉ D :=
  fun hmem => Nat.lt_irrefl _ (C.lt _ hmem)

theorem Closed.alloc (C : Closed h D) {o : Obj}
    (ho : ∀ c, o.Refers c → c < h.next ∧ c ∉ D) : Spares h (h.alloc o).1 D :=
  ⟨C.of_next (C.sealed.alloc ho) (Nat.le_succ _), Nat.le_succ _,
    fun a ha => obj_alloc_of_ne (Nat.ne_of_lt (C.lt a ha))⟩

theorem Closed.alloc_record (C : Closed h D) :
    Spares h (h.alloc (record OrderedMap.empty)).1 D := by
  apply C.alloc
  rintro c (⟨k, hk⟩ | hproto)
  · cases hk
  · cases hproto
    exact C.object

variable {a : ℕ}

theorem Closed.alloc_elements (C : Closed h D) (ha : a < h.next) (haD : a ∉ D) :
    Spares h (h.alloc (ObjectHeap.array (elements h a))).1 D := by
  apply C.alloc
  rintro c (⟨k, hk⟩ | hproto)
  · have hk : (elements h a).get? k = some (.object c) := hk
    have hown : h.own a k = .object c := by
      rw [← get_elements, hk]
      rfl
    exact C.sealed a ha haD c (.inl ⟨k, own_eq_object hown⟩)
  · cases hproto
    exact C.array

theorem put_cases (hput : h.put a k v = .ok h') :
    h' = h.setOwn a k v ∨ h' = h ∨
      ∃ p, h' = h.write a { h.obj a with proto := p } ∧ ∀ c, p = some c → v = .object c := by
  unfold Heap.put at hput
  split at hput
  · cases v with
    | undefined =>
      cases hput
      exact .inr (.inl rfl)
    | leaf l =>
      cases l with
      | null =>
        simp only [setPrototype] at hput
        split_ifs at hput
        · cases hput
          exact .inr (.inl rfl)
        · cases hput
          exact .inr (.inr ⟨none, rfl, nofun⟩)
      | _ =>
        cases hput
        exact .inr (.inl rfl)
    | object p =>
      simp only [setPrototype] at hput
      split_ifs at hput
      · cases hput
        exact .inr (.inl rfl)
      · cases hput
        refine .inr (.inr ⟨some p, rfl, ?_⟩)
        rintro c ⟨⟩
        rfl
  · cases hput
    exact .inl rfl

theorem Closed.put (C : Closed h D) (hv : h.Outside D v) (hput : h.put a k v = .ok h') :
    Closed h' D ∧ h'.next = h.next ∧ ∀ c, c ≠ a → h'.obj c = h.obj c := by
  rcases put_cases hput with rfl | rfl | ⟨p, rfl, hp⟩
  · exact ⟨C.of_next (C.sealed.setOwn hv) (Nat.le_refl _), rfl, fun c hc => obj_setOwn_of_ne hc⟩
  · exact ⟨C, rfl, fun _ _ => rfl⟩
  · exact ⟨C.of_next (C.sealed.writeProto fun c hc => hv c (hp c hc)) (Nat.le_refl _), rfl,
      fun c hc => obj_write_of_ne hc⟩

theorem Closed.put_spares (C : Closed h D) (haD : a ∉ D) (hv : h.Outside D v)
    (hput : h.put a k v = .ok h') : Spares h h' D := by
  obtain ⟨C', hnext, hframe⟩ := C.put hv hput
  refine ⟨C', Nat.le_of_eq hnext.symm, fun c hc => hframe c ?_⟩
  rintro rfl
  exact haD hc

theorem mergeKey_cases {merge : Heap → ℕ → ℕ → Except JsError Heap}
    (hkey : mergeKey merge t s h k = .ok h') :
    h' = h ∨
      (∃ v c, h.get s k = .object v ∧ h.get t k = .object c ∧ merge h c v = .ok h') ∨
      (∃ v h₁, h.get s k = .object v ∧ plainObject? h (h.get t k) = none ∧
        merge (h.alloc (record OrderedMap.empty)).1 h.next v = .ok h₁ ∧
          h₁.put t k (.object h.next) = .ok h') ∨
      (∃ v, h.get s k = .object v ∧
        (h.alloc (array (elements h v))).1.put t k (.object h.next) = .ok h') ∨
      h.put t k (h.get s k) = .ok h' := by
  simp only [mergeKey] at hkey
  split_ifs at hkey
  · cases hkey
    exact .inl rfl
  cases hv : plainObject? h (h.get s k) with
  | some v =>
    obtain ⟨hget, -⟩ := plainObject?_eq_some.mp hv
    cases hc : plainObject? h (h.get t k) with
    | some c =>
      rw [hv, hc] at hkey
      exact .inr (.inl ⟨v, c, hget, (plainObject?_eq_some.mp hc).1, hkey⟩)
    | none =>
      rw [hv, hc] at hkey
      obtain ⟨h₁, hmerge, hput⟩ := exists_of_bind hkey
      exact .inr (.inr (.inl ⟨v, h₁, hget, rfl, hmerge, hput⟩))
  | none =>
    rw [hv] at hkey
    cases ha : array? h (h.get s k) with
    | some v =>
      rw [ha] at hkey
      rcases array?_of_plainObject? hv with ⟨c, hget, -, harray⟩ | ⟨-, hnone⟩
      · rw [ha] at harray
        cases harray
        exact .inr (.inr (.inr (.inl ⟨v, hget, hkey⟩)))
      · rw [ha] at hnone
        cases hnone
    | none =>
      rw [ha] at hkey
      exact .inr (.inr (.inr (.inr hkey)))

/-- A merge outside `D` spares `D`. -/
def SparesAll (D : Set ℕ) (merge : Heap → ℕ → ℕ → Except JsError Heap) : Prop :=
  ∀ {h h' : Heap} {t s : ℕ}, Closed h D → t < h.next → t ∉ D → s < h.next → s ∉ D →
    merge h t s = .ok h' → Spares h h' D

theorem SparesAll.mergeKey {merge : Heap → ℕ → ℕ → Except JsError Heap} (ih : SparesAll D merge)
    (C : Closed h D) (ht : t < h.next) (htD : t ∉ D) (hs : s < h.next) (hsD : s ∉ D)
    (hkey : mergeKey merge t s h k = .ok h') : Spares h h' D := by
  have hsource := C.sealed.get hs hsD k
  have hfresh : ∀ {h₁ : Heap}, h.next < h₁.next → h₁.Outside D (.object h.next) := by
    rintro h₁ hlt _ ⟨⟩
    exact ⟨hlt, C.next_notMem⟩
  rcases mergeKey_cases hkey with rfl | ⟨v, c, hv, hc, hmerge⟩ | ⟨v, h₁, hv, -, hmerge, hput⟩ |
    ⟨v, hv, hput⟩ | hput
  · exact C.spares
  · obtain ⟨hclt, hcD⟩ := C.sealed.get ht htD k c hc
    obtain ⟨hvlt, hvD⟩ := hsource v hv
    exact ih C hclt hcD hvlt hvD hmerge
  · obtain ⟨hvlt, hvD⟩ := hsource v hv
    have S := C.alloc_record
    have S₁ := S.trans (ih S.closed (Nat.lt_succ_self _) C.next_notMem (Nat.lt_succ_of_lt hvlt) hvD
      hmerge)
    have hlt : h.next < h₁.next := Nat.lt_of_lt_of_le (Nat.lt_succ_self _)
      (ih S.closed (Nat.lt_succ_self _) C.next_notMem (Nat.lt_succ_of_lt hvlt) hvD hmerge).next
    exact S₁.trans (S₁.closed.put_spares htD (hfresh hlt) hput)
  · obtain ⟨hvlt, hvD⟩ := hsource v hv
    have S := C.alloc_elements hvlt hvD
    exact S.trans (S.closed.put_spares htD (hfresh (Nat.lt_succ_self _)) hput)
  · exact C.put_spares htD hsource hput

variable {ks : List Key}

theorem SparesAll.mergeKeys {merge : Heap → ℕ → ℕ → Except JsError Heap} (ih : SparesAll D merge)
    (C : Closed h D) (ht : t < h.next) (htD : t ∉ D) (hs : s < h.next) (hsD : s ∉ D)
    (hfold : ks.foldlM (Loader.mergeKey merge t s) h = .ok h') : Spares h h' D := by
  induction ks generalizing h with
  | nil =>
    cases hfold
    exact C.spares
  | cons k ks ihks =>
    rw [List.foldlM_cons] at hfold
    obtain ⟨h₁, hkey, hrest⟩ := exists_of_bind hfold
    have S := ih.mergeKey C ht htD hs hsD hkey
    exact S.trans (ihks S.closed (Nat.lt_of_lt_of_le ht S.next) (Nat.lt_of_lt_of_le hs S.next)
      hrest)

theorem sparesAll_mergeConfig (D : Set ℕ) (n : ℕ) : SparesAll D (mergeConfig n) := by
  induction n with
  | zero =>
    intro h h' t s _ _ _ _ _ hmerge
    cases hmerge
  | succ n ih => exact fun C ht htD hs hsD hmerge => ih.mergeKeys C ht htD hs hsD hmerge

/-! ## A target that is kept apart -/

/-- The target is in `D`, and only its members under the keys in `K` are as well. -/
structure Level (h : Heap) (D : Set ℕ) (t : ℕ) (K : Set Key) : Prop where
  mem : t ∈ D
  proto : ∀ c, (h.obj t).proto = some c → c < h.next ∧ c ∉ D
  members : ∀ j, j ∉ K → ∀ c, (h.obj t).props.get? j = some (.object c) → c < h.next ∧ c ∉ D

variable {K : Set Key}

theorem Level.congr (L : Level h D t K) (hobj : h'.obj t = h.obj t) (hnext : h.next ≤ h'.next) :
    Level h' D t K := by
  refine ⟨L.mem, fun c hc => ?_, fun j hj c hc => ?_⟩
  · rw [hobj] at hc
    obtain ⟨hlt, hD⟩ := L.proto c hc
    exact ⟨Nat.lt_of_lt_of_le hlt hnext, hD⟩
  · rw [hobj] at hc
    obtain ⟨hlt, hD⟩ := L.members j hj c hc
    exact ⟨Nat.lt_of_lt_of_le hlt hnext, hD⟩

theorem Level.spares (L : Level h D t K) (S : Spares h h' D) : Level h' D t K :=
  L.congr (S.frame t L.mem) S.next

theorem Level.setOwn (L : Level h D t {k}) (v : Value) : Level (h.setOwn t k v) D t {k} := by
  refine ⟨L.mem, fun c hc => ?_, fun j hj c hc => ?_⟩
  · rw [proto_setOwn] at hc
    exact L.proto c hc
  · have hjk : j ≠ k := fun hjk => hj (Set.mem_singleton_iff.mpr hjk)
    rw [obj_setOwn_self] at hc
    have hc : ((h.obj t).props.set k v).get? j = some (.object c) := hc
    rw [OrderedMap.get?_set_of_ne _ (Ne.symm hjk)] at hc
    exact L.members j hj c hc

theorem Level.get (L : Level h D t K) (C : Closed h D) (hk : k ∉ K) : h.Outside D (h.get t k) := by
  have hproto : h.Outside D (h.prototypeOf t) := by
    intro c hc
    unfold prototypeOf at hc
    split at hc
    · rename_i q hq
      cases hc
      exact L.proto _ hq
    · cases hc
  intro c hc
  unfold Heap.get at hc
  cases hfind : h.find t k with
  | nothing =>
    rw [hfind] at hc
    cases hc
  | accessor =>
    rw [hfind] at hc
    exact hproto c hc
  | data w =>
    rw [hfind] at hc
    subst hc
    rw [find, lookup] at hfind
    cases hget : (h.obj t).props.get? k with
    | some w =>
      rw [hget] at hfind
      cases hfind
      exact L.members k hk c hget
    | none =>
      rw [hget] at hfind
      simp only at hfind
      split_ifs at hfind
      · cases hfind
      · cases hq : (h.obj t).proto with
        | none =>
          rw [hq] at hfind
          cases hfind
        | some q =>
          rw [hq] at hfind
          obtain ⟨hqlt, hqD⟩ := L.proto q hq
          exact C.sealed.lookup hqlt hqD hfind c rfl

/-- What the merge of another key leaves of `D` and of the target. -/
structure LevelKept (h h' : Heap) (D : Set ℕ) (t : ℕ) (K : Set Key) (k : Key) : Prop where
  level : Level h' D t K
  closed : Closed h' D
  next : h.next ≤ h'.next
  frame : ∀ a ∈ D, a ≠ t → h'.obj a = h.obj a
  others : ∀ i, i ≠ k → (h'.obj t).props.get? i = (h.obj t).props.get? i

theorem Level.put (L : Level h D t K) (C : Closed h D) (hv : h.Outside D v)
    (hput : h.put t k v = .ok h') : LevelKept h h' D t K k := by
  obtain ⟨C', hnext, hframe⟩ := C.put hv hput
  refine ⟨?_, C', Nat.le_of_eq hnext.symm, fun a _ hat => hframe a hat, ?_⟩
  · refine ⟨L.mem, fun c hc => ?_, fun j hj c hc => ?_⟩
    · rcases put_cases hput with rfl | rfl | ⟨p, rfl, hp⟩
      · rw [proto_setOwn] at hc
        exact L.proto c hc
      · exact L.proto c hc
      · rw [obj_write_self] at hc
        exact hv c (hp c hc)
    · rcases put_cases hput with rfl | rfl | ⟨p, rfl, hp⟩
      · rw [obj_setOwn_self] at hc
        have hc : ((h.obj t).props.set k v).get? j = some (.object c) := hc
        rw [OrderedMap.get?_set] at hc
        split_ifs at hc
        · exact hv c (Option.some.inj hc)
        · exact L.members j hj c hc
      · exact L.members j hj c hc
      · rw [obj_write_self] at hc
        exact L.members j hj c hc
  · intro i hi
    rcases put_cases hput with rfl | rfl | ⟨p, rfl, -⟩
    · rw [obj_setOwn_self]
      exact OrderedMap.get?_set_of_ne _ (Ne.symm hi) v
    · rfl
    · rw [obj_write_self]

theorem Level.kept_spares (L : Level h D t K) (S : Spares h h' D) : LevelKept h h' D t K k :=
  ⟨L.spares S, S.closed, S.next, fun a ha _ => S.frame a ha, fun i _ => by rw [S.frame t L.mem]⟩

theorem LevelKept.after_spares {h₁ : Heap} (S : Spares h h₁ D) (G : LevelKept h₁ h' D t K k) :
    LevelKept h h' D t K k := by
  refine ⟨G.level, G.closed, Nat.le_trans S.next G.next, fun a ha hat => ?_, fun i hi => ?_⟩
  · rw [G.frame a ha hat, S.frame a ha]
  · rw [G.others i hi, S.frame t G.level.mem]

theorem Level.mergeKey (L : Level h D t K) (C : Closed h D) (hk : k ∉ K) (hs : s < h.next)
    (hsD : s ∉ D) (hkey : mergeKey (mergeConfig n) t s h k = .ok h') :
    LevelKept h h' D t K k := by
  have ih : SparesAll D (mergeConfig n) := sparesAll_mergeConfig D n
  have hsource := C.sealed.get hs hsD k
  have hfresh : ∀ {h₁ : Heap}, h.next < h₁.next → h₁.Outside D (.object h.next) := by
    rintro h₁ hlt _ ⟨⟩
    exact ⟨hlt, C.next_notMem⟩
  rcases mergeKey_cases hkey with rfl | ⟨v, c, hv, hc, hmerge⟩ | ⟨v, h₁, hv, -, hmerge, hput⟩ |
    ⟨v, hv, hput⟩ | hput
  · exact L.kept_spares C.spares
  · obtain ⟨hclt, hcD⟩ := L.get C hk c hc
    obtain ⟨hvlt, hvD⟩ := hsource v hv
    exact L.kept_spares (ih C hclt hcD hvlt hvD hmerge)
  · obtain ⟨hvlt, hvD⟩ := hsource v hv
    have S := C.alloc_record
    have S₁ := ih S.closed (Nat.lt_succ_self _) C.next_notMem (Nat.lt_succ_of_lt hvlt) hvD hmerge
    have S₂ := S.trans S₁
    exact (((L.spares S₂).put S₂.closed
      (hfresh (Nat.lt_of_lt_of_le (Nat.lt_succ_self _) S₁.next)) hput)).after_spares S₂
  · obtain ⟨hvlt, hvD⟩ := hsource v hv
    have S := C.alloc_elements hvlt hvD
    exact ((L.spares S).put S.closed (hfresh (Nat.lt_succ_self _)) hput).after_spares S
  · exact L.put C hsource hput

theorem Level.mergeKeys (L : Level h D t K) (C : Closed h D) (hks : ∀ j ∈ ks, j ∉ K)
    (hs : s < h.next) (hsD : s ∉ D)
    (hfold : ks.foldlM (Loader.mergeKey (mergeConfig n) t s) h = .ok h') :
    Closed h' D ∧ h.next ≤ h'.next ∧ (∀ a ∈ D, a ≠ t → h'.obj a = h.obj a) ∧
      ∀ i, i ∉ ks → (h'.obj t).props.get? i = (h.obj t).props.get? i := by
  induction ks generalizing h with
  | nil =>
    cases hfold
    exact ⟨C, Nat.le_refl _, fun _ _ _ => rfl, fun _ _ => rfl⟩
  | cons k ks ih =>
    rw [List.foldlM_cons] at hfold
    obtain ⟨h₁, hkey, hrest⟩ := exists_of_bind hfold
    obtain ⟨hk, hks⟩ := List.forall_mem_cons.mp hks
    have G := L.mergeKey C hk hs hsD hkey
    obtain ⟨C', hnext, hframe, hothers⟩ :=
      ih G.level G.closed hks (Nat.lt_of_lt_of_le hs G.next) hrest
    refine ⟨C', Nat.le_trans G.next hnext, fun a ha hat => ?_, fun i hi => ?_⟩
    · rw [hframe a ha hat, G.frame a ha hat]
    · rw [List.mem_cons, not_or] at hi
      rw [hothers i hi.2, G.others i hi.1]

/-! ## The way to the member -/

/-- The path leads through objects of `W` to one that has no member `__proto__`. -/
def Way (W : Set ℕ) (h : Heap) : ℕ → List Key → Prop
  | a, [] => a ∈ W ∧ (h.obj a).props.get? protoKey = none
  | a, k :: q => a ∈ W ∧ ∃ c, (h.obj a).props.get? k = some (.object c) ∧ Way W h c q

variable {W : Set ℕ}

theorem Way.congr (w : Way W h a q) (hsame : ∀ x ∈ W, h'.obj x = h.obj x) : Way W h' a q := by
  induction q generalizing a with
  | nil =>
    obtain ⟨ha, hnone⟩ := w
    exact ⟨ha, by rw [hsame a ha, hnone]⟩
  | cons k q ih =>
    obtain ⟨ha, c, hc, w⟩ := w
    exact ⟨ha, c, by rw [hsame a ha, hc], ih w⟩

theorem Way.mono {W' : Set ℕ} (w : Way W h a q) (hsub : W ⊆ W') : Way W' h a q := by
  induction q generalizing a with
  | nil => exact ⟨hsub w.1, w.2⟩
  | cons k q ih =>
    obtain ⟨ha, c, hc, w⟩ := w
    exact ⟨hsub ha, c, hc, ih w⟩

theorem view_undefined (h : Heap) (p : List Key) : h.view .undefined p = .absent := by
  cases p <;> rfl

theorem Way.absent (w : Way W h a q) : h.view (.object a) (q ++ [protoKey]) = .absent := by
  induction q generalizing a with
  | nil =>
    by_cases harr : (h.obj a).isArray = false
    · have hown : h.own a protoKey = .undefined := by
        rw [own, w.2]
        split <;> rfl
      show (h.view (.object a)).child protoKey [] = .absent
      rw [view_child harr, hown]
      rfl
    · have hkind : h.kind 0 (.object a) ≠ .record := by simp [kind, harr]
      exact View.ofTree_cons_of_ne hkind _ _
  | cons k q ih =>
    obtain ⟨-, c, hc, w⟩ := w
    by_cases harr : (h.obj a).isArray = false
    · show (h.view (.object a)).child k (q ++ [protoKey]) = .absent
      rw [view_child harr, own, hc]
      split
      · exact view_undefined h _
      · exact ih w
    · have hkind : h.kind 0 (.object a) ≠ .record := by simp [kind, harr]
      exact View.ofTree_cons_of_ne hkind _ _

/-- The source has a member on the path that the target does not get. -/
structure Misses (h h' : Heap) (lo : ℕ) (pos : ℕ → List Key) (t s : ℕ) (D W : Set ℕ)
    (q : List Key) : Prop where
  closed : Closed h' D
  next : h.next ≤ h'.next
  sub : ∀ x, lo ≤ x → x < h.next → (x ∈ D ↔ pos x <+: pos t ++ q)
  old : ∀ x ∈ D, lo ≤ x
  frame : ∀ x, lo ≤ x → x < h.next → pos x <+: pos t → pos x ≠ pos t → h'.obj x = h.obj x
  way : Way W h' t q
  inside : W ⊆ D
  deeper : ∀ x ∈ W, x < h.next → (pos t).length ≤ (pos x).length
  view : h.view (.object s) (q ++ [protoKey]) ≠ .absent

/-- The source, which is older than the result, has a member `__proto__` somewhere. -/
structure Polluting (h : Heap) (lo s n : ℕ) : Prop where
  lt : s < lo
  isArray : (h.obj s).isArray = false
  bounded : (h.view (.object s)).Bounded n
  member : ∃ p, protoKey ∈ p ∧ h.view (.object s) p ≠ .absent

theorem Merging.closed (M : Merging h lo pos) (q : List Key) :
    Closed h {x | lo ≤ x ∧ x < h.next ∧ pos x <+: q} := by
  have hb : arrayPrototype < lo := M.placed.builtin
  have hle : lo ≤ h.next := M.placed.le
  have hnot : ∀ c, c < lo → c ∉ {x | lo ≤ x ∧ x < h.next ∧ pos x <+: q} :=
    fun c hc hmem => absurd hmem.1 (by omega)
  have hzero : objectPrototype < lo := Nat.lt_trans Nat.zero_lt_one hb
  refine ⟨?_, fun a ha => ha.2.1, ⟨by omega, hnot _ hzero⟩, ⟨by omega, hnot _ hb⟩⟩
  intro a ha haD c hc
  by_cases hold : a < lo
  · have hclt := M.placed.old a hold c hc
    exact ⟨by omega, hnot c hclt⟩
  · have hlo : lo ≤ a := Nat.not_lt.mp hold
    rcases hc with ⟨k, hk⟩ | hproto
    · have hown : h.own a k = .object c := by simp [own, M.placed.methods a hlo ha, hk]
      rcases M.placed.edges a k hlo ha c hown with hclt | ⟨hclo, hclt, hcpos⟩
      · exact ⟨by omega, hnot c hclt⟩
      · refine ⟨hclt, fun hmem => haD ⟨hlo, ha, ?_⟩⟩
        have hpre := hmem.2.2
        rw [hcpos] at hpre
        exact (List.prefix_append _ _).trans hpre
    · have hclt := M.placed.prototype a hlo ha c hproto
      exact ⟨by omega, hnot c hclt⟩

theorem Merging.level (M : Merging h lo pos) (ht : lo ≤ t) (hlt : t < h.next) (hmem : t ∈ D)
    (hold : ∀ x ∈ D, lo ≤ x)
    (K : Set Key)
    (hplace : ∀ x, lo ≤ x → x < h.next → x ∈ D → ∀ j, j ∉ K → pos x ≠ pos t ++ [j]) :
    Level h D t K := by
  have hb : arrayPrototype < lo := M.placed.builtin
  have hle : lo ≤ h.next := M.placed.le
  refine ⟨hmem, fun c hc => ?_, fun j hj c hc => ?_⟩
  · have hclt := M.placed.prototype t ht hlt c hc
    exact ⟨by omega, fun hcD => absurd (hold c hcD) (by omega)⟩
  · have hown : h.own t j = .object c := by simp [own, M.placed.methods t ht hlt, hc]
    rcases M.placed.edges t j ht hlt c hown with hclt | ⟨hclo, hclt, hcpos⟩
    · exact ⟨by omega, fun hcD => absurd (hold c hcD) (by omega)⟩
    · exact ⟨hclt, fun hcD => hplace c hclo hclt hcD j hj hcpos⟩

theorem Merging.level_under (M : Merging h lo pos) (ht : lo ≤ t) (hlt : t < h.next)
    (hold : ∀ x ∈ D, lo ≤ x)
    (hsub : ∀ x, lo ≤ x → x < h.next → (x ∈ D ↔ pos x <+: (pos t ++ [k]) ++ q)) :
    Level h D t {k} := by
  have hmem : t ∈ D :=
    (hsub t ht hlt).mpr ((List.prefix_append _ [k]).trans (List.prefix_append _ q))
  refine M.level ht hlt hmem hold {k} fun x hxlo hx hxD j hj hpos => ?_
  have hpre := (hsub x hxlo hx).mp hxD
  rw [hpos] at hpre
  exact not_prefix_of_ne (fun hjk => hj (Set.mem_singleton_iff.mpr hjk)) hpre
    (List.prefix_append _ q)

theorem props_put_proto (hp : h.Pristine) (ho : h.Ordinary t) (ht : t ≠ objectPrototype)
    (hnext : 1 ≤ h.next) (hnone : (h.obj t).props.get? protoKey = none)
    (hput : h.put t protoKey v = .ok h') : (h'.obj t).props.get? protoKey = none := by
  have hfind : h.find t protoKey = .accessor := by
    rw [find_ordinary hp ho ht hnext, hnone]
    rfl
  unfold Heap.put at hput
  rw [hfind] at hput
  have hset : h.setPrototype t v = .ok h' := hput
  cases v with
  | undefined =>
    cases hset
    exact hnone
  | leaf l =>
    cases l with
    | null =>
      simp only [setPrototype] at hset
      split_ifs at hset
      · cases hset
        exact hnone
      · cases hset
        rw [obj_write_self]
        exact hnone
    | _ =>
      cases hset
      exact hnone
  | object p =>
    simp only [setPrototype] at hset
    split_ifs at hset
    · cases hset
      exact hnone
    · cases hset
      rw [obj_write_self]
      exact hnone

theorem mergeKey_proto (M : Merging h lo pos) (ht : lo ≤ t) (hlt : t < h.next)
    (harr : (h.obj t).isArray = false) (C : Closed h D) (hmem : t ∈ D) (hold : ∀ x ∈ D, lo ≤ x)
    (hs : s < lo) (hk : protoKey ∈ h.keys s)
    (hkey : mergeKey (mergeConfig n) t s h protoKey = .ok h') :
    (h'.obj t).props.get? protoKey = none := by
  have P : h.Placed lo lo pos := M.placed
  have hle : lo ≤ h.next := P.le
  have hmember : ∀ v, h.get s protoKey = .object v → v < lo := fun v hv =>
    M.member_old hs protoKey v (by rw [← get_of_mem_keys hk, hv])
  have ho : h.Ordinary t := P.ordinary ht hlt harr
  have hne : t ≠ objectPrototype := P.ne_objectPrototype ht
  have hnone := M.ordinaryKeys t ht hlt harr
  have hget : h.get t protoKey = .object objectPrototype := by
    rw [Heap.get, find_ordinary P.pristine ho hne P.one_le, hnone]
    simp [prototypeOf, ho.proto]
  have hplain : plainObject? h (h.get t protoKey) = some objectPrototype := by
    rw [hget, plainObject?_eq_some]
    exact ⟨rfl, P.pristine.isArray⟩
  rcases mergeKey_cases hkey with rfl | ⟨v, c, hv, hc, hmerge⟩ | ⟨v, h₁, -, hno, -, -⟩ |
    ⟨v, hv, hput⟩ | hput
  · exact hnone
  · rw [hget] at hc
    cases hc
    have hvlt := hmember v hv
    have S := sparesAll_mergeConfig D n C C.object.1 C.object.2 (by omega)
      (fun hvD => absurd (hold v hvD) (by omega)) hmerge
    rw [S.frame t hmem, hnone]
  · rw [hplain] at hno
    cases hno
  · have P₁ := P.alloc (o := array (elements h v)) [] (.inr rfl) (fun k c hc => by
      have hc : (elements h v).get? k = some (.object c) := hc
      refine .inl (M.member_old (hmember v hv) k c ?_)
      rw [← get_elements, hc]
      rfl)
    have hobj : (h.alloc (array (elements h v))).1.obj t = h.obj t :=
      obj_alloc_of_ne (Nat.ne_of_lt hlt)
    exact props_put_proto P₁.pristine (P₁.ordinary ht (Nat.lt_succ_of_lt hlt) (by rw [hobj, harr]))
      hne P₁.one_le (by rw [hobj, hnone]) hput
  · exact props_put_proto P.pristine ho hne P.one_le hnone hput

/-- One call of `mergeConfig` with such a source. -/
def MissesAll (lo n : ℕ) : Prop :=
  ∀ {h h' : Heap} {pos : ℕ → List Key} {t s : ℕ}, Merging h lo pos → lo ≤ t → t < h.next →
    (h.obj t).isArray = false → Polluting h lo s n → mergeConfig n h t s = .ok h' →
    ∃ D W q, Misses h h' lo pos t s D W q

theorem misses_rest {h₁ h₂ : Heap} {c : ℕ} (M : Merging h lo pos) (ht : lo ≤ t) (hlt : t < h.next)
    (hs : s < lo) (hnext : h.next ≤ h₂.next) (harrs : (h.obj s).isArray = false) (hks : k ∉ ks)
    {v : ℕ} (hown : h.own s k = .object v) {h₀ : Heap} {pos₀ : ℕ → List Key}
    (hnext₀ : h.next ≤ h₀.next) (hsame₀ : ∀ x, x < h.next → pos₀ x = pos x)
    (hcpos : pos₀ c = pos t ++ [k]) (hview₀ : h₀.view (.object v) = h.view (.object v))
    (G : Misses h₀ h₁ lo pos₀ c v D W q) (hclosed : Closed h₂ D)
    (hkept : ∀ x ∈ D, x ≠ t → h₂.obj x = h₁.obj x)
    (hframe : ∀ x, lo ≤ x → x < h.next → pos x <+: pos t → pos x ≠ pos t → h₁.obj x = h.obj x)
    (L : Level h₂ D t {k}) (hchild : (h₂.obj t).props.get? k = some (.object c))
    (hfold : ks.foldlM (mergeKey (mergeConfig n) t s) h₂ = .ok h') :
    ∃ D W q, Misses h h' lo pos t s D W q := by
  have hlo : lo ≤ h.next := M.placed.le
  have hsD : s ∉ D := fun hsD => absurd (G.old s hsD) (by omega)
  obtain ⟨C', hnext', hrest, hothers⟩ := L.mergeKeys hclosed
    (fun j hj hjk => hks (by rw [Set.mem_singleton_iff] at hjk; rwa [← hjk])) (by omega) hsD hfold
  have hplace : pos t ++ k :: q = pos₀ c ++ q := by
    rw [hcpos, List.append_assoc]
    rfl
  have hsub : ∀ x, lo ≤ x → x < h.next → (x ∈ D ↔ pos x <+: pos t ++ k :: q) := by
    intro x hxlo hx
    rw [G.sub x hxlo (by omega), hsame₀ x hx, hplace]
  -- the target is shorter than everything on the rest of the way
  have htW : t ∉ W := by
    intro htW
    have hdeep := G.deeper t htW (by omega)
    rw [hcpos, hsame₀ t hlt, List.length_append, List.length_singleton] at hdeep
    omega
  have hW : ∀ x ∈ W, h'.obj x = h₁.obj x := by
    intro x hx
    have hxt : x ≠ t := by
      rintro rfl
      exact htW hx
    rw [hrest x (G.inside hx) hxt, hkept x (G.inside hx) hxt]
  refine ⟨D, insert t W, k :: q, C', by omega, hsub, G.old, ?_, ?_, ?_, ?_, ?_⟩
  · intro x hxlo hx hpre hne
    have hxt : x ≠ t := by
      rintro rfl
      exact hne rfl
    have hxD : x ∈ D := (hsub x hxlo hx).mpr (hpre.trans (List.prefix_append _ _))
    rw [hrest x hxD hxt, hkept x hxD hxt, hframe x hxlo hx hpre hne]
  · exact ⟨Set.mem_insert t W, c, by rw [hothers k hks, hchild],
      (G.way.congr hW).mono (Set.subset_insert t W)⟩
  · exact Set.insert_subset L.mem G.inside
  · intro x hx hlt'
    rcases Set.mem_insert_iff.mp hx with rfl | hx
    · exact Nat.le_refl _
    · have hdeep := G.deeper x hx (by omega)
      rw [hcpos, hsame₀ x hlt', List.length_append, List.length_singleton] at hdeep
      omega
  · have hchildView : h.view (.object s) (k :: (q ++ [protoKey])) =
        h.view (.object v) (q ++ [protoKey]) := by
      rw [← hown]
      exact congrFun (view_child harrs k) _
    rw [List.cons_append, hchildView, ← hview₀]
    exact G.view

theorem misses_proto (M : Merging h lo pos) (ht : lo ≤ t) (hlt : t < h.next)
    (harr : (h.obj t).isArray = false) (hs : s < lo) (harrs : (h.obj s).isArray = false)
    (hk : protoKey ∈ h.keys s) (hks : protoKey ∉ ks) (hundef : h.own s protoKey ≠ .undefined)
    {h₁ : Heap} (hkey : mergeKey (mergeConfig n) t s h protoKey = .ok h₁)
    (hfold : ks.foldlM (mergeKey (mergeConfig n) t s) h₁ = .ok h') :
    ∃ D W q, Misses h h' lo pos t s D W q := by
  have hle : lo ≤ h.next := M.placed.le
  have C := M.closed (pos t)
  have hmem : t ∈ {x | lo ≤ x ∧ x < h.next ∧ pos x <+: pos t} := ⟨ht, hlt, List.prefix_refl _⟩
  have hold : ∀ x ∈ {x | lo ≤ x ∧ x < h.next ∧ pos x <+: pos t}, lo ≤ x := fun x hx => hx.1
  have hsD : s ∉ {x | lo ≤ x ∧ x < h.next ∧ pos x <+: pos t} :=
    fun hsD => absurd hsD.1 (by omega)
  have L : Level h {x | lo ≤ x ∧ x < h.next ∧ pos x <+: pos t} t ∅ := by
    refine M.level ht hlt hmem hold ∅ fun x _ _ hx j _ hpos => ?_
    have hlen := hx.2.2.length_le
    rw [hpos, List.length_append, List.length_singleton] at hlen
    omega
  have hnone := mergeKey_proto M ht hlt harr C hmem hold hs hk hkey
  have G := L.mergeKey C (Set.notMem_empty _) (by omega) hsD hkey
  obtain ⟨C', hnext, hframe, hothers⟩ := G.level.mergeKeys G.closed
    (fun j _ => Set.notMem_empty j) (Nat.lt_of_lt_of_le (by omega) G.next) hsD hfold
  refine ⟨_, {t}, [], C', Nat.le_trans G.next hnext, ?_, hold, ?_, ?_, ?_, ?_, ?_⟩
  · intro x hxlo hx
    rw [List.append_nil]
    exact ⟨fun hmem => hmem.2.2, fun hpre => ⟨hxlo, hx, hpre⟩⟩
  · intro x hxlo hx hpre hne
    have hxt : x ≠ t := by
      rintro rfl
      exact hne rfl
    rw [hframe x ⟨hxlo, hx, hpre⟩ hxt, G.frame x ⟨hxlo, hx, hpre⟩ hxt]
  · exact ⟨Set.mem_singleton t, by rw [hothers protoKey hks, hnone]⟩
  · exact Set.singleton_subset_iff.mpr hmem
  · intro x hx _
    rw [Set.mem_singleton_iff.mp hx]
  · show (h.view (.object s)).child protoKey [] ≠ .absent
    rw [view_child harrs]
    exact view_root_ne_absent hundef

theorem misses_member (ih : MissesAll lo n) (M : Merging h lo pos) (ht : lo ≤ t) (hlt : t < h.next)
    (harr : (h.obj t).isArray = false) (hs : s < lo) (harrs : (h.obj s).isArray = false)
    (hk : k ∈ h.keys s) (hks : k ∉ ks) (hproto : k ≠ protoKey) {v : ℕ}
    (hv : plainObject? h (h.own s k) = some v) (hpolluting : Polluting h lo v n) {h₂ : Heap}
    (hkey : mergeKey (mergeConfig n) t s h k = .ok h₂)
    (hfold : ks.foldlM (mergeKey (mergeConfig n) t s) h₂ = .ok h') :
    ∃ D W q, Misses h h' lo pos t s D W q := by
  have P : h.Placed lo lo pos := M.placed
  have hle : lo ≤ h.next := P.le
  obtain ⟨hown, hvarr⟩ := plainObject?_eq_some.mp hv
  have hundef : h.own s k ≠ .undefined := by
    rw [hown]
    simp
  have hshorter : ∀ {p : List Key}, p = pos t ++ [k] → pos t <+: p ∧ pos t ≠ p := by
    rintro p rfl
    exact ⟨List.prefix_append _ _, by simp⟩
  have hlonger : ∀ {x : ℕ}, pos x <+: pos t → pos x ≠ pos t ++ [k] := by
    intro x hpre hpos
    have hlen := hpre.length_le
    rw [hpos, List.length_append, List.length_singleton] at hlen
    omega
  have htarget := plainObject?_get P.pristine (P.ordinary ht hlt harr) (P.ne_objectPrototype ht)
    P.one_le hproto
  cases hexisting : plainObject? h (h.own t k) with
  | some c =>
    obtain ⟨hcown, hcarr⟩ := plainObject?_eq_some.mp hexisting
    have hclo : lo ≤ c := M.owned t ht hlt harr k c hcown
    rcases P.edges t k ht hlt c hcown with hcold | ⟨-, hclt, hcpos⟩
    · omega
    have hmerge : mergeConfig n h c v = .ok h₂ := by
      simp only [mergeKey, get_of_mem_keys hk, hundef, if_false, htarget, hv, hexisting] at hkey
      exact hkey
    obtain ⟨D, W, q, G⟩ := ih M hclo hclt hcarr hpolluting hmerge
    have hobj : h₂.obj t = h.obj t :=
      G.frame t ht hlt (hshorter hcpos).1 (hshorter hcpos).2
    have L : Level h D t {k} := M.level_under ht hlt G.old fun x hxlo hx => by
      rw [G.sub x hxlo hx, hcpos]
    apply misses_rest M ht hlt hs G.next harrs hks hown (Nat.le_refl _) (fun _ _ => rfl) hcpos rfl
      G G.closed (fun _ _ _ => rfl) ?_ (L.congr hobj G.next) ?_ hfold
    · intro x hxlo hx hpre _
      refine G.frame x hxlo hx ?_ ?_
      · rw [hcpos]
        exact hpre.trans (List.prefix_append _ _)
      · rw [hcpos]
        exact hlonger hpre
    · rw [hobj]
      exact own_eq_object hcown
  | none =>
    have hfresh := M.kept_alloc (o := record OrderedMap.empty) (pos t ++ [k]) (.inl rfl)
      fun _ _ h => by cases h
    have hself : Function.update pos h.next (pos t ++ [k]) h.next = pos t ++ [k] :=
      Function.update_self ..
    have hsame : ∀ x, x < h.next → Function.update pos h.next (pos t ++ [k]) x = pos x :=
      fun x hx => Function.update_of_ne (Nat.ne_of_lt hx) ..
    have hview : (h.alloc (record OrderedMap.empty)).1.view (.object v) = h.view (.object v) :=
      M.view_old (fun c hc => by cases hc; exact hpolluting.lt) hfresh.old
    obtain ⟨h₁, hmerge, hput⟩ : ∃ h₁, mergeConfig n (h.alloc (record OrderedMap.empty)).1 h.next v =
        .ok h₁ ∧ h₁.put t k (.object h.next) = .ok h₂ := by
      simp only [mergeKey, get_of_mem_keys hk, hundef, if_false, htarget, hv, hexisting] at hkey
      exact exists_of_bind hkey
    obtain ⟨D, W, q, G⟩ := ih hfresh.merging hle (Nat.lt_succ_self _)
      (by rw [obj_alloc_self]; rfl)
      ⟨hpolluting.lt, by rw [hfresh.old v hpolluting.lt, hvarr], by
        rw [hview]
        exact hpolluting.bounded, by
        rw [hview]
        exact hpolluting.member⟩ hmerge
    rw [put_of_ne hproto] at hput
    cases hput
    have hnext : h.next ≤ h₁.next := Nat.le_trans (Nat.le_succ _) G.next
    have hobj : ∀ x, lo ≤ x → x < h.next → pos x <+: pos t → h₁.obj x = h.obj x := by
      intro x hxlo hx hpre
      rw [G.frame x hxlo (Nat.lt_succ_of_lt hx), obj_alloc_of_ne (Nat.ne_of_lt hx)]
      · rw [hself, hsame x hx]
        exact hpre.trans (List.prefix_append _ _)
      · rw [hself, hsame x hx]
        exact hlonger hpre
    have L : Level h D t {k} := M.level_under ht hlt G.old fun x hxlo hx => by
      rw [G.sub x hxlo (Nat.lt_succ_of_lt hx), hself, hsame x hx]
    have L₁ : Level h₁ D t {k} := L.congr (hobj t ht hlt (List.prefix_refl _)) hnext
    have hclosed : Closed (h₁.setOwn t k (.object h.next)) D :=
      G.closed.of_next (G.closed.sealed.setOwn_of_mem L.mem) (Nat.le_refl _)
    have hnext₂ : h.next ≤ (h₁.setOwn t k (.object h.next)).next := hnext
    apply misses_rest M ht hlt hs hnext₂ harrs hks hown (Nat.le_succ _) hsame hself hview G hclosed
      (fun x _ hxt => obj_setOwn_of_ne hxt) (fun x hxlo hx hpre _ => hobj x hxlo hx hpre)
      (L₁.setOwn _) ?_ hfold
    rw [obj_setOwn_self]
    exact OrderedMap.get?_set_self ..

theorem misses_keys (ih : MissesAll lo n) (hks : ks.Nodup) (M : Merging h lo pos) (ht : lo ≤ t)
    (hlt : t < h.next) (harr : (h.obj t).isArray = false) (hs : s < lo)
    (harrs : (h.obj s).isArray = false) (hkeys : ∀ k ∈ ks, k ∈ h.keys s)
    (hbounded : ∀ k, (h.view (h.own s k)).Bounded n)
    (hbad : ∃ k ∈ ks, ∃ p, protoKey ∈ k :: p ∧ h.view (h.own s k) p ≠ .absent)
    (hfold : ks.foldlM (mergeKey (mergeConfig n) t s) h = .ok h') :
    ∃ D W q, Misses h h' lo pos t s D W q := by
  -- up to the first key with such a member, the keys are merged as they should be
  induction ks generalizing h pos with
  | nil =>
    obtain ⟨k, hk, -⟩ := hbad
    cases hk
  | cons k ks ihks =>
    obtain ⟨hk, hnodup⟩ := List.nodup_cons.mp hks
    obtain ⟨hkmem, hrest⟩ := List.forall_mem_cons.mp hkeys
    rw [List.foldlM_cons] at hfold
    obtain ⟨h₂, hkey, hfolds⟩ := exists_of_bind hfold
    by_cases hgood : ∀ p, protoKey ∈ k :: p → h.view (h.own s k) p = .absent
    · obtain ⟨h₁, pos₁, hkey', G⟩ := mergeKey_spec (mergeConfig_spec n) M ht hlt harr
        ⟨hs, hgood, hbounded k⟩ hkmem
      rw [hkey'] at hkey
      have hsame : h₁ = h₂ := Except.ok.inj hkey
      subst hsame
      have hsobj : h₁.obj s = h.obj s := G.old s hs
      have hview : ∀ j, h₁.view (h₁.own s j) = h.view (h.own s j) := by
        intro j
        rw [own_congr hsobj]
        exact M.view_old (M.member_old hs j) G.old
      have hbad' : ∃ j ∈ ks, ∃ p, protoKey ∈ j :: p ∧ h₁.view (h₁.own s j) p ≠ .absent := by
        obtain ⟨j, hj, p, hp, hne⟩ := hbad
        rcases List.mem_cons.mp hj with rfl | hj
        · exact absurd (hgood p hp) hne
        · exact ⟨j, hj, p, hp, by rwa [hview]⟩
      obtain ⟨D, W, q, F⟩ := ihks hnodup G.merging (Nat.lt_of_lt_of_le hlt G.grown.next)
        (by rw [G.grown.isArray t hlt, harr]) (by rw [hsobj, harrs])
        (fun j hj => by
          rw [keys, hsobj]
          exact hrest j hj)
        (fun j => by
          rw [hview]
          exact hbounded j) hbad' hfolds
      have hnext : h.next ≤ h₁.next := G.grown.next
      refine ⟨D, W, q, F.closed, Nat.le_trans hnext F.next, ?_, F.old, ?_, F.way, F.inside, ?_, ?_⟩
      · intro x hxlo hx
        rw [F.sub x hxlo (by omega), G.same x hx, G.same t hlt]
      · intro x hxlo hx hpre hne
        rw [F.frame x hxlo (by omega), G.frame x hx]
        · rintro rfl
          exact hne rfl
        · intro hpre'
          have hlen := (hpre'.trans hpre).length_le
          rw [List.length_append, List.length_singleton] at hlen
          omega
        · rwa [G.same x hx, G.same t hlt]
        · rwa [G.same x hx, G.same t hlt]
      · intro x hx hlt'
        have hdeep := F.deeper x hx (by omega)
        rwa [G.same x hlt', G.same t hlt] at hdeep
      · have hviews : h₁.view (.object s) = h.view (.object s) :=
          M.view_old (fun c hc => by cases hc; exact hs) G.old
        rw [← hviews]
        exact F.view
    · have hne : ∃ p, protoKey ∈ k :: p ∧ h.view (h.own s k) p ≠ .absent := by
        by_contra hnone
        exact hgood fun p hp => by_contra fun hne => hnone ⟨p, hp, hne⟩
      obtain ⟨p, hp, hne⟩ := hne
      have hundef : h.own s k ≠ .undefined := by
        intro hundef
        rw [hundef] at hne
        exact hne (view_undefined h p)
      by_cases hproto : k = protoKey
      · subst hproto
        exact misses_proto M ht hlt harr hs harrs hkmem hk hundef hkey hfolds
      · have hp : protoKey ∈ p := (List.mem_cons.mp hp).resolve_left (Ne.symm hproto)
        cases hv : plainObject? h (h.own s k) with
        | none =>
          exfalso
          obtain ⟨j, p, rfl⟩ : ∃ j r, p = j :: r := List.exists_cons_of_ne_nil (by
            rintro rfl
            cases hp)
          refine hne (View.ofTree_cons_of_ne (fun hrecord => ?_) j p)
          cases hown : h.own s k with
          | undefined | leaf l =>
            rw [hown] at hrecord
            cases hrecord
          | object c =>
            rw [hown] at hv hrecord
            simp only [kind] at hrecord
            split_ifs at hrecord with hcarr
            rw [plainObject?_eq_some.mpr ⟨rfl, Bool.eq_false_iff.mpr hcarr⟩] at hv
            cases hv
        | some v =>
          obtain ⟨hown, hvarr⟩ := plainObject?_eq_some.mp hv
          refine misses_member ih M ht hlt harr hs harrs hkmem hk hproto hv ?_ hkey hfolds
          exact ⟨M.member_old hs k v hown, hvarr, hown ▸ hbounded k, p, hp, hown ▸ hne⟩

theorem mergeConfig_misses (lo n : ℕ) : MissesAll lo n := by
  induction n with
  | zero =>
    intro h h' pos t s _ _ _ _ _ hmerge
    cases hmerge
  | succ n ih =>
    intro h h' pos t s M ht hlt harr hs hmerge
    refine misses_keys ih (keys_nodup h s) M ht hlt harr hs.lt hs.isArray (fun k hk => hk) ?_ ?_
      hmerge
    · intro k
      rw [← view_child hs.isArray]
      exact hs.bounded.child k
    · obtain ⟨p, hp, hne⟩ := hs.member
      obtain ⟨k, p, rfl⟩ : ∃ k r, p = k :: r := List.exists_cons_of_ne_nil (by
        rintro rfl
        cases hp)
      have hchild : h.view (.object s) (k :: p) = h.view (h.own s k) p :=
        congrFun (view_child hs.isArray k) p
      rw [hchild] at hne
      refine ⟨k, ?_, p, hp, hne⟩
      by_contra hk
      rw [own_of_notMem_keys hk] at hne
      exact hne (view_undefined h p)

end TransformHub.Config.Loader
