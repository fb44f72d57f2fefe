import TransformHub.Config.MergeConfigRun

/-!
# What the sources say

A source is seen as a nested record: an object as it is, the environment and the command line as the
records that the paths of the options make of their values.
-/

namespace TransformHub.Config.Loader

open ObjectHeap Heap

/-! ## Parsed data -/

def Data.kind : Option Data → Kind Scalar
  | none => .absent
  | some (.leaf l) => .scalar (.leaf l)
  | some (.node isArray _) => if isArray then .list else .record

def Data.member : Option Data → Key → Option Data
  | some (.node _ members), k => (OrderedMap.ofEntries members).get? k
  | _, _ => none

def Data.contents (d : Data) : List Key → Kind Scalar := View.contents Data.kind Data.member (some d)

def Data.view (d : Data) : View Key (Content Key Scalar) := View.ofTree Data.kind Data.member (some d)

variable {h h' : Heap} {b lo a : ℕ} {q : List Key} {v : Value} {pos : ℕ → List Key}

/-- The new objects of a value, which holds the data and has the place `q`. -/
structure Built (h h' : Heap) (b lo : ℕ) (pos pos' : ℕ → List Key) : Prop where
  placed : h'.Placed b lo pos'
  grown : h.Extends h' lo
  same : ∀ x, x < h.next → pos' x = pos x
  frame : ∀ x, x < h.next → h'.obj x = h.obj x

structure Holds (h : Heap) (b lo : ℕ) (pos : ℕ → List Key) (q : List Key) (d : Data) (v : Value) :
    Prop where
  place : h.At b lo pos q v
  contents : ∀ e, e ≤ b → View.contents (h.kind e) h.member v = d.contents

theorem Built.refl (P : h.Placed b lo pos) : Built h h b lo pos pos :=
  ⟨P, Extends.refl h lo, fun _ _ => rfl, fun _ _ => rfl⟩

theorem Built.trans {h'' : Heap} {pos' pos'' : ℕ → List Key} (B : Built h h' b lo pos pos')
    (B' : Built h' h'' b lo pos' pos'') : Built h h'' b lo pos pos'' := by
  refine ⟨B'.placed, B.grown.trans B'.grown, fun x hx => ?_, fun x hx => ?_⟩
  · rw [B'.same x (Nat.lt_of_lt_of_le hx B.grown.next), B.same x hx]
  · rw [B'.frame x (Nat.lt_of_lt_of_le hx B.grown.next), B.frame x hx]

theorem Holds.built {pos' : ℕ → List Key} {d : Data} (H : Holds h b lo pos q d v)
    (P : h.Placed b lo pos) (B : Built h h' b lo pos pos') : Holds h' b lo pos' q d v := by
  refine ⟨H.place.mono B.grown.next B.same, fun e he => ?_⟩
  rw [← H.contents e he]
  exact P.contents_congr H.place (fun c hc _ => B.frame c hc) e

theorem contents_undefined (h : Heap) (e : ℕ) :
    View.contents (h.kind e) h.member .undefined = View.contents Data.kind Data.member none := by
  funext p
  induction p with
  | nil => rfl
  | cons k p ih => exact ih

theorem holds_node (P : h.Placed b lo pos) (q : List Key) (isArray : Bool)
    {members : List (Key × Data)} {props : List (Key × Value)}
    (hprops : List.Forall₂ (fun m p => m.1 = p.1 ∧ Holds h b lo pos (q ++ [m.1]) m.2 p.2)
      members props) :
    ∃ pos', Built h (h.alloc (if isArray then array (.ofEntries props)
        else record (.ofEntries props))).1 b lo pos pos' ∧
      Holds (h.alloc (if isArray then array (.ofEntries props)
        else record (.ofEntries props))).1 b lo pos' q (.node isArray members) (.object h.next) := by
  obtain ⟨o, ho⟩ : ∃ o, o = if isArray then array (OrderedMap.ofEntries props)
    else record (.ofEntries props) := ⟨_, rfl⟩
  rw [← ho]
  have hoprops : o.props = .ofEntries props := by
    rw [ho]
    split <;> rfl
  have hoarr : o.isArray = isArray := by
    rw [ho]
    split <;> simp_all [array, record]
  have homethods : o.methods = [] := by
    rw [ho]
    split <;> rfl
  have hmember := fun k => OrderedMap.get?_ofEntries_rel
    (R := fun k d v => Holds h b lo pos (q ++ [k]) d v) hprops k
  have P' := P.alloc (o := o) q (by
      rw [ho]
      split
      · exact .inr rfl
      · exact .inl rfl) (by
      intro k c hc
      rw [hoprops] at hc
      rcases hmember k with ⟨-, hnone⟩ | ⟨d, v, -, hv, H⟩
      · rw [hnone] at hc
        cases hc
      · rw [hv] at hc
        cases hc
        exact H.place c rfl)
  have B : Built h (h.alloc o).1 b lo pos (Function.update pos h.next q) :=
    ⟨P', extends_alloc h o lo, fun x hx => Function.update_of_ne (Nat.ne_of_lt hx) ..,
      fun x hx => obj_alloc_of_ne (Nat.ne_of_lt hx)⟩
  refine ⟨_, B, ?_, ?_⟩
  · rintro _ ⟨⟩
    exact .inr ⟨P.le, Nat.lt_succ_self _, Function.update_self ..⟩
  · intro e he
    have hlt : ¬ h.next < e := by
      have hb : b ≤ lo := P.b_le
      have hle : lo ≤ h.next := P.le
      omega
    funext p
    cases p with
    | nil =>
      show (h.alloc o).1.kind e (.object h.next) = Data.kind (some (.node isArray members))
      simp only [kind, obj_alloc_self, hoarr, Data.kind, hlt, if_false]
    | cons k p =>
      show View.contents _ _ ((h.alloc o).1.own h.next k) p =
        View.contents _ _ ((OrderedMap.ofEntries members).get? k) p
      have hown : (h.alloc o).1.own h.next k =
          ((OrderedMap.ofEntries props).get? k).getD .undefined := by
        simp [own, obj_alloc_self, hoprops, homethods]
      rw [hown]
      rcases hmember k with ⟨hnone, hnone'⟩ | ⟨d, v, hd, hv, H⟩
      · rw [hnone, hnone']
        exact congrFun (contents_undefined _ e) p
      · rw [hd, hv]
        exact congrFun ((H.built P B).contents e he) p

mutual

theorem allocData_spec {h : Heap} {pos : ℕ → List Key} (P : h.Placed b lo pos) (q : List Key) :
    (d : Data) → ∃ pos', Built h (allocData h d).1 b lo pos pos' ∧
      Holds (allocData h d).1 b lo pos' q d (allocData h d).2
  | .leaf l => by
      refine ⟨pos, Built.refl P, at_leaf l, fun e _ => ?_⟩
      funext p
      cases p with
      | nil => rfl
      | cons k p => exact congrFun (contents_undefined h e) p
  | .node isArray members => by
      obtain ⟨pos', B, hprops⟩ := allocMembers_spec P q members
      obtain ⟨pos'', B', H⟩ := holds_node B.placed q isArray hprops
      exact ⟨pos'', B.trans B', H⟩
termination_by structural d => d

theorem allocMembers_spec {h : Heap} {pos : ℕ → List Key} (P : h.Placed b lo pos) (q : List Key) :
    (ms : List (Key × Data)) → ∃ pos', Built h (allocMembers h ms).1 b lo pos pos' ∧
      List.Forall₂ (fun m p => m.1 = p.1 ∧
        Holds (allocMembers h ms).1 b lo pos' (q ++ [m.1]) m.2 p.2) ms (allocMembers h ms).2
  | [] => ⟨pos, Built.refl P, .nil⟩
  | m :: ms => by
      obtain ⟨pos₁, B₁, hkey, H⟩ := allocMember_spec P q m
      obtain ⟨pos₂, B₂, hrest⟩ := allocMembers_spec B₁.placed q ms
      exact ⟨pos₂, B₁.trans B₂, .cons ⟨hkey, H.built B₁.placed B₂⟩ hrest⟩
termination_by structural ms => ms

theorem allocMember_spec {h : Heap} {pos : ℕ → List Key} (P : h.Placed b lo pos) (q : List Key) :
    (m : Key × Data) → ∃ pos', Built h (allocMember h m).1 b lo pos pos' ∧
      m.1 = (allocMember h m).2.1 ∧
        Holds (allocMember h m).1 b lo pos' (q ++ [m.1]) m.2 (allocMember h m).2.2
  | (k, d) => by
      obtain ⟨pos', B, H⟩ := allocData_spec P (q ++ [k]) d
      exact ⟨pos', B, rfl, H⟩
termination_by structural m => m

end

/-! ## The views of the sources -/

variable (js : Conversions) (options : List ConfigOptionDescriptor)

def envValue (vars : Key → Option Key) (includeAliases : Bool) (option : ConfigOptionDescriptor) :
    Option Data :=
  ((envKey vars includeAliases option).bind vars).bind fun value =>
    coerceEnv js value (option.type.getD .string)

def envView (vars : Key → Option Key) (includeAliases : Bool) : View Key (Content Key Scalar) :=
  options.foldl (fun T option =>
    match envValue js vars includeAliases option with
    | some d => T.set (wholePath (optionPath option)) d.view
    | none => T) View.empty

/-- The command line as a nested record, where objects below `b` are not looked into. -/
def cliViewFrom (h : Heap) (b cli : ℕ) : View Key (Content Key Scalar) :=
  options.foldl (fun T option =>
    if h.get cli option.name = .undefined then T
    else T.set (wholePath (optionPath option)) (h.viewFrom b (h.get cli option.name))) View.empty

def Source.view (h : Heap) : Source → View Key (Content Key Scalar)
  | .object (some a) => h.view (.object a)
  | .object none => View.empty
  | .env vars includeAliases => envView js options vars includeAliases
  | .cli values => cliViewFrom options h 0 values

/-- No path of an option leads through an object that an earlier option has taken from the command
line. -/
def Unshared (h : Heap) (cli : ℕ) : Prop :=
  ∀ before option after, options = before ++ option :: after →
    h.get cli option.name ≠ .undefined →
    ∀ r, r <+: wholePath (optionPath option) → r ≠ wholePath (optionPath option) →
      ∀ c, cliViewFrom before h h.next cli r ≠ .value (.scalar (.foreign c))

/-! ## Building a source -/

variable {js : Conversions} {options : List ConfigOptionDescriptor}

theorem uncrossed_of_view {path : List Key} (P : h.Placed b lo pos) (hlo : lo ≤ a) (ha : a < h.next)
    (harr : (h.obj a).isArray = false)
    (hclear : ∀ r, r <+: path → r ≠ path → ∀ c,
      h.viewFrom b (.object a) r ≠ .value (.scalar (.foreign c))) : Uncrossed h b a path := by
  induction path generalizing a with
  | nil => trivial
  | cons part path ih =>
    cases path with
    | nil => trivial
    | cons key path =>
      intro c hown hcarr
      have hba : b ≤ a := Nat.le_trans P.b_le hlo
      have hchild : ∀ r, h.viewFrom b (.object a) (part :: r) = h.viewFrom b (.object c) r := by
        intro r
        rw [← hown]
        exact congrFun (viewFrom_child hba harr part) r
      rcases P.edges a part hlo ha c hown with hold | ⟨hclo, hclt, -⟩
      · refine absurd ?_ (hclear [part] ⟨key :: path, rfl⟩ (by simp) c)
        rw [hchild]
        simp [viewFrom, View.ofTree, kind, hcarr, hold]
      · refine ⟨Nat.le_trans P.b_le hclo, ih hclo hclt hcarr fun r hr hne d => ?_⟩
        rw [← hchild]
        exact hclear (part :: r) (List.prefix_cons_inj part |>.mpr hr)
          (fun h => hne (List.cons.inj h).2) d

/-- The object that is built for a source so far: `T e` is its view. -/
structure Building (h₀ h : Heap) (lo : ℕ) (pos : ℕ → List Key)
    (T : ℕ → View Key (Content Key Scalar)) : Prop where
  placed : h.Placed h₀.next lo pos
  le : h₀.next ≤ lo
  lt : lo < h.next
  root : pos lo = []
  isArray : (h.obj lo).isArray = false
  view : ∀ e, e ≤ h₀.next → h.viewFrom e (.object lo) = T e

end TransformHub.Config.Loader
