import TransformHub.Config.MergeConfig

/-!
# Objects that have a place

The objects that are created from the address `lo` on are kept apart by the path on which each of
them is reached: an object with a place refers only to objects below `b`, or to objects whose place
is its own and the key.
-/

namespace TransformHub.ObjectHeap.Heap

variable {h h' h'' : Heap} {b lo e a c x : ℕ} {k j : Key} {q : List Key} {v : Value}
  {pos : ℕ → List Key}

/-! ## What an operation leaves alone -/

/-- The heap has grown, and only objects from `lo` on were assigned to. -/
structure Extends (h h' : Heap) (lo : ℕ) : Prop where
  next : h.next ≤ h'.next
  written : ∃ w, h'.written = w ++ h.written ∧ ∀ a ∈ w, lo ≤ a
  isArray : ∀ a, a < h.next → (h'.obj a).isArray = (h.obj a).isArray

theorem Extends.refl (h : Heap) (lo : ℕ) : h.Extends h lo :=
  ⟨Nat.le_refl _, ⟨[], rfl, by simp⟩, fun _ _ => rfl⟩

theorem Extends.trans (h₁ : h.Extends h' lo) (h₂ : h'.Extends h'' lo) : h.Extends h'' lo := by
  obtain ⟨w, hw, hwlo⟩ := h₁.written
  obtain ⟨w', hw', hwlo'⟩ := h₂.written
  refine ⟨Nat.le_trans h₁.next h₂.next, ⟨w' ++ w, ?_, ?_⟩, ?_⟩
  · rw [hw', hw, List.append_assoc]
  · intro a ha
    rcases List.mem_append.mp ha with ha | ha
    · exact hwlo' a ha
    · exact hwlo a ha
  · intro a ha
    rw [h₂.isArray a (Nat.lt_of_lt_of_le ha h₁.next), h₁.isArray a ha]

theorem extends_alloc (h : Heap) (o : Obj) (lo : ℕ) : h.Extends (h.alloc o).1 lo := by
  refine ⟨Nat.le_succ _, ⟨[], rfl, by simp⟩, fun a ha => ?_⟩
  rw [obj_alloc_of_ne (Nat.ne_of_lt ha)]

theorem extends_setOwn (ha : lo ≤ a) (k : Key) (v : Value) : h.Extends (h.setOwn a k v) lo :=
  ⟨Nat.le_refl _, ⟨[a], rfl, by simpa using ha⟩, fun _ _ => isArray_setOwn⟩

/-! ## Places -/

/-- The value is an object below `b`, one with the place `q`, or no object. -/
def At (h : Heap) (b lo : ℕ) (pos : ℕ → List Key) (q : List Key) (v : Value) : Prop :=
  ∀ c, v = .object c → c < b ∨ (lo ≤ c ∧ c < h.next ∧ pos c = q)

structure Placed (h : Heap) (b lo : ℕ) (pos : ℕ → List Key) : Prop where
  pristine : h.Pristine
  builtin : arrayPrototype < b
  b_le : b ≤ lo
  le : lo ≤ h.next
  methods : ∀ a, lo ≤ a → a < h.next → (h.obj a).methods = []
  proto : ∀ a, lo ≤ a → a < h.next → (h.obj a).isArray = false →
    (h.obj a).proto = some objectPrototype
  prototype : ∀ a, lo ≤ a → a < h.next → ∀ c, (h.obj a).proto = some c → c < b
  edges : ∀ a k, lo ≤ a → a < h.next → h.At b lo pos (pos a ++ [k]) (h.own a k)
  old : ∀ a, a < b → ∀ c, (h.obj a).Refers c → c < b

theorem at_undefined : h.At b lo pos q .undefined := nofun

theorem at_leaf (l : Leaf) : h.At b lo pos q (.leaf l) := nofun

theorem At.mono (hv : h.At b lo pos q v) (hnext : h.next ≤ h'.next) {pos' : ℕ → List Key}
    (hpos : ∀ a, a < h.next → pos' a = pos a) : h'.At b lo pos' q v := by
  intro c hc
  rcases hv c hc with hold | ⟨hlo, hlt, hq⟩
  · exact .inl hold
  · exact .inr ⟨hlo, Nat.lt_of_lt_of_le hlt hnext, by rw [hpos c hlt, hq]⟩

section

variable (hold : ∀ a, a < b → ∀ c, (h.obj a).Refers c → c < b) (hv : ∀ c, v = .object c → c < b)
  (hsame : ∀ c, c < b → h'.obj c = h.obj c)
include hold hv hsame

theorem contents_old (e : ℕ) :
    View.contents (h'.kind e) h'.member v = View.contents (h.kind e) h.member v := by
  apply View.contents_eq (R := fun v v' => v = v' ∧ ∀ c, v = .object c → c < b)
  · rintro u _ ⟨rfl, hu⟩
    cases u with
    | undefined | leaf l => rfl
    | object c => simp only [kind, hsame c (hu c rfl)]
  · rintro u _ j ⟨rfl, hu⟩
    cases u with
    | undefined | leaf l => exact ⟨rfl, nofun⟩
    | object c =>
      have hown : h'.own c j = h.own c j := own_congr (hsame c (hu c rfl))
      refine ⟨hown, fun d hd => ?_⟩
      have hd : h.own c j = .object d := hown ▸ hd
      exact hold c (hu c rfl) d (.inl ⟨j, own_eq_object hd⟩)
  · exact ⟨rfl, hv⟩

theorem viewFrom_old (e : ℕ) : h'.viewFrom e v = h.viewFrom e v :=
  View.ofTree_eq_of_contents (contents_old hold hv hsame e)

end

theorem own_old (hold : ∀ c, (h.obj a).Refers c → c < b) (k : Key) :
    h.At b lo pos q (h.own a k) := fun c hc => .inl (hold c (.inl ⟨k, own_eq_object hc⟩))

namespace Placed

section

variable (P : h.Placed b lo pos)
include P

theorem ordinary (hlo : lo ≤ a) (ha : a < h.next)
    (harr : (h.obj a).isArray = false) : h.Ordinary a :=
  ⟨harr, P.proto a hlo ha harr, P.methods a hlo ha⟩

theorem ne_objectPrototype (hlo : lo ≤ a) : a ≠ objectPrototype := by
  have hb : arrayPrototype < b := P.builtin
  have hle : b ≤ lo := P.b_le
  unfold arrayPrototype at hb
  unfold objectPrototype
  omega

theorem one_le : 1 ≤ h.next := by
  have hb : arrayPrototype < b := P.builtin
  have hle : b ≤ lo := P.b_le
  have hnext : lo ≤ h.next := P.le
  unfold arrayPrototype at hb
  omega

theorem contents_congr (hv : h.At b lo pos q v)
    (hsame : ∀ c, c < h.next → (c < b ∨ lo ≤ c ∧ q <+: pos c) → h'.obj c = h.obj c) (e : ℕ) :
    View.contents (h'.kind e) h'.member v = View.contents (h.kind e) h.member v := by
  apply View.contents_eq (R := fun v v' => v = v' ∧ ∃ q', q <+: q' ∧ h.At b lo pos q' v)
  · rintro u _ ⟨rfl, q', hq', hu⟩
    cases u with
    | undefined | leaf l => rfl
    | object c =>
      have hobj : h'.obj c = h.obj c := by
        rcases hu c rfl with hold | ⟨hlo, hlt, hpos⟩
        · exact hsame c (Nat.lt_of_lt_of_le hold (Nat.le_trans P.b_le P.le)) (.inl hold)
        · rw [← hpos] at hq'
          exact hsame c hlt (.inr ⟨hlo, hq'⟩)
      simp only [kind, hobj]
  · rintro u _ k ⟨rfl, q', hq', hu⟩
    cases u with
    | undefined | leaf l => exact ⟨rfl, q', hq', at_undefined⟩
    | object c =>
      rcases hu c rfl with hold | ⟨hlo, hlt, hpos⟩
      · have hobj : h'.obj c = h.obj c :=
          hsame c (Nat.lt_of_lt_of_le hold (Nat.le_trans P.b_le P.le)) (.inl hold)
        have hown : h'.own c k = h.own c k := own_congr hobj
        refine ⟨hown, q', hq', ?_⟩
        show h.At b lo pos q' (h'.own c k)
        rw [hown]
        exact own_old (P.old c hold) k
      · subst hpos
        have hobj : h'.obj c = h.obj c := hsame c hlt (.inr ⟨hlo, hq'⟩)
        have hown : h'.own c k = h.own c k := own_congr hobj
        refine ⟨hown, pos c ++ [k], hq'.trans (List.prefix_append _ _), ?_⟩
        show h.At b lo pos (pos c ++ [k]) (h'.own c k)
        rw [hown]
        exact P.edges c k hlo hlt
  · exact ⟨rfl, q, List.prefix_refl q, hv⟩

theorem viewFrom_congr (hv : h.At b lo pos q v)
    (hsame : ∀ c, c < h.next → (c < b ∨ lo ≤ c ∧ q <+: pos c) → h'.obj c = h.obj c) (e : ℕ) :
    h'.viewFrom e v = h.viewFrom e v :=
  View.ofTree_eq_of_contents (P.contents_congr hv hsame e)

theorem alloc {o : Obj} (q : List Key)
    (ho : o = record o.props ∨ o = array o.props)
    (hprops : ∀ k c, o.props.get? k = some (.object c) →
      c < b ∨ (lo ≤ c ∧ c < h.next ∧ pos c = q ++ [k])) :
    (h.alloc o).1.Placed b lo (Function.update pos h.next q) := by
  have hmethods : o.methods = [] := by rcases ho with ho | ho <;> rw [ho] <;> rfl
  have hproto : o.isArray = false → o.proto = some objectPrototype := by
    intro harr
    rcases ho with ho | ho
    · rw [ho]
      rfl
    · rw [ho] at harr
      cases harr
  have hbuiltin : ∀ c, o.proto = some c → c < b := by
    intro c hc
    have hb : arrayPrototype < b := P.builtin
    rcases ho with ho | ho <;> rw [ho] at hc <;> cases hc
    · exact Nat.lt_trans Nat.zero_lt_one hb
    · exact hb
  have hlt : b ≤ h.next := Nat.le_trans P.b_le P.le
  have hpos : ∀ a, a < h.next → Function.update pos h.next q a = pos a := fun a ha =>
    Function.update_of_ne (Nat.ne_of_lt ha) ..
  have hobj : ∀ a, a < h.next → (h.alloc o).1.obj a = h.obj a := fun a ha =>
    obj_alloc_of_ne (Nat.ne_of_lt ha)
  have hzero : objectPrototype < h.next := P.one_le
  refine ⟨?_, P.builtin, P.b_le, Nat.le_succ_of_le P.le, ?_, ?_, ?_, ?_, ?_⟩
  · obtain ⟨h₁, h₂, h₃, h₄⟩ := P.pristine
    constructor <;> rw [hobj _ hzero] <;> assumption
  · intro a hlo ha
    by_cases hnew : a = h.next
    · rw [hnew, obj_alloc_self, hmethods]
    · rw [obj_alloc_of_ne hnew]
      exact P.methods a hlo (by rw [next_alloc] at ha; omega)
  · intro a hlo ha harr
    by_cases hnew : a = h.next
    · rw [hnew, obj_alloc_self] at harr ⊢
      exact hproto harr
    · rw [obj_alloc_of_ne hnew] at harr ⊢
      exact P.proto a hlo (by rw [next_alloc] at ha; omega) harr
  · intro a hlo ha c hc
    by_cases hnew : a = h.next
    · rw [hnew, obj_alloc_self] at hc
      exact hbuiltin c hc
    · rw [obj_alloc_of_ne hnew] at hc
      exact P.prototype a hlo (by rw [next_alloc] at ha; omega) c hc
  · intro a k hlo ha
    by_cases hnew : a = h.next
    · subst hnew
      intro c hc
      have hget : o.props.get? k = some (.object c) := by
        have := own_eq_object hc
        rwa [obj_alloc_self] at this
      rcases hprops k c hget with hold | ⟨hclo, hclt, hcpos⟩
      · exact .inl hold
      · refine .inr ⟨hclo, Nat.lt_succ_of_lt hclt, ?_⟩
        rw [hpos c hclt, Function.update_self, hcpos]
    · have ha' : a < h.next := by
        rw [next_alloc] at ha
        omega
      rw [own_congr (hobj a ha'), hpos a ha']
      exact (P.edges a k hlo ha').mono (Nat.le_succ _) hpos
  · intro a ha c hc
    rw [hobj a (Nat.lt_of_lt_of_le ha hlt)] at hc
    exact P.old a ha c hc

theorem setOwn (hlo : lo ≤ a) (hv : h.At b lo pos (pos a ++ [k]) v) :
    (h.setOwn a k v).Placed b lo pos := by
  have hne : ∀ c, c < lo → c ≠ a := fun c hc hca => by omega
  have hobj : ∀ c, c < lo → (h.setOwn a k v).obj c = h.obj c := fun c hc =>
    obj_setOwn_of_ne (hne c hc)
  have hzero : objectPrototype < lo :=
    Nat.lt_of_lt_of_le (Nat.lt_trans Nat.zero_lt_one P.builtin) P.b_le
  refine ⟨?_, P.builtin, P.b_le, P.le, ?_, ?_, ?_, ?_, ?_⟩
  · obtain ⟨h₁, h₂, h₃, h₄⟩ := P.pristine
    constructor <;> rw [hobj _ hzero] <;> assumption
  · intro c hclo hc
    rw [methods_setOwn]
    exact P.methods c hclo hc
  · intro c hclo hc harr
    rw [isArray_setOwn] at harr
    rw [proto_setOwn]
    exact P.proto c hclo hc harr
  · intro c hclo hc d hd
    rw [proto_setOwn] at hd
    exact P.prototype c hclo hc d hd
  · intro c j hclo hc
    by_cases hca : c = a
    · subst hca
      by_cases hj : j = k
      · subst hj
        rw [own_setOwn_self (P.methods c hclo hc)]
        exact hv
      · rw [own_setOwn_of_ne hj]
        exact P.edges c j hclo hc
    · rw [own_congr (obj_setOwn_of_ne hca)]
      exact P.edges c j hclo hc
  · intro c hc d hd
    rw [hobj c (Nat.lt_of_lt_of_le hc P.b_le)] at hd
    exact P.old c hc d hd

end

end Placed

end TransformHub.ObjectHeap.Heap
