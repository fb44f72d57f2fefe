import TransformHub.ApiRouter.RoutePipeline

/-!
# What a pipeline calls

The calls that are due in each phase, and when they are the ones that are made.
-/

namespace TransformHub.ApiRouter.RoutePipeline

variable {ε ρ α : Type}

/-! ## Lists up to an element -/

/-- The elements up to the first one that meets `p`, with it. -/
def upTo (p : α → Bool) : List α → List α
  | [] => []
  | x :: xs => x :: if p x then [] else upTo p xs

theorem upTo_cons (p : α → Bool) (x : α) (xs : List α) :
    upTo p (x :: xs) = x :: if p x then [] else upTo p xs := rfl

theorem length_upTo_le (p : α → Bool) (xs : List α) : (upTo p xs).length ≤ xs.length := by
  induction xs with
  | nil => exact Nat.le_refl 0
  | cons x xs ih =>
    rw [upTo_cons]
    split
    · simp
    · simpa using ih

variable {p : α → Bool} {xs : List α}

theorem upTo_eq_self_iff : upTo p xs = xs ↔ ∀ x ∈ xs.dropLast, p x = false := by
  induction xs with
  | nil => exact iff_of_true rfl nofun
  | cons x xs ih =>
    cases xs with
    | nil => simp [upTo]
    | cons y ys =>
      rw [List.dropLast_cons_cons, List.forall_mem_cons, ← ih, upTo_cons, List.cons.injEq]
      cases p x <;> simp

theorem eq_of_length_upTo (h : (upTo p xs).length = xs.length) : upTo p xs = xs := by
  induction xs with
  | nil => rfl
  | cons x xs ih =>
    rw [upTo_cons] at h ⊢
    cases hp : p x with
    | true =>
      rw [if_pos hp, List.length_cons, List.length_cons, List.length_nil] at h
      obtain rfl := List.length_eq_zero_iff.mp (Nat.succ.inj h).symm
      simp
    | false =>
      rw [if_neg (by simp [hp]), List.length_cons, List.length_cons] at h
      rw [if_neg (by simp), ih (Nat.succ.inj h)]

theorem upTo_or (p q : α → Bool) (xs : List α) :
    upTo (fun x => p x || q x) xs = upTo q (upTo p xs) := by
  induction xs with
  | nil => rfl
  | cons x xs ih =>
    show x :: (if (p x || q x) = true then [] else upTo _ xs) =
      x :: if q x = true then [] else upTo q (if p x = true then [] else upTo p xs)
    cases hp : p x <;> cases hq : q x <;> simp [upTo, ih]

/-! ## The calls that are due -/

def Outcome.isResponse : Outcome ε ρ → Bool
  | .responds _ => true
  | _ => false

def Outcome.isFailure : Outcome ε ρ → Bool
  | .fails _ => true
  | _ => false

/-- The functions that the hooks have for a phase, in order. -/
def due (called : Nat → Called) (phase : RouteHook ε ρ → Option (Outcome ε ρ)) :
    List (RouteHook ε ρ) → Nat → List (Called × Outcome ε ρ)
  | [], _ => []
  | hook :: hooks, i =>
    match phase hook with
    | none => due called phase hooks (i + 1)
    | some outcome => (called i, outcome) :: due called phase hooks (i + 1)

def responds (x : Called × Outcome ε ρ) : Bool := x.2.isResponse

def fails (x : Called × Outcome ε ρ) : Bool := x.2.isFailure

/-- The call ends a loop that a response ends where `stops`. -/
def ends (stops : Bool) (x : Called × Outcome ε ρ) : Bool := (stops && responds x) || fails x

section Due

variable (hooks : List (RouteHook ε ρ)) (handler : Except ε (Option ρ))

def dueBefore : List (Called × Outcome ε ρ) := due .before RouteHook.before hooks 0

def dueAfter : List (Called × Outcome ε ρ) := due .after RouteHook.after hooks 0

def dueError : List (Called × Outcome ε ρ) := due .error RouteHook.error hooks 0

def dueFinally : List (Called × Outcome ε ρ) := due .onFinally RouteHook.onFinally hooks 0

/-- No `before` responds or fails. -/
def reachesHandler : Bool := (dueBefore hooks).all fun x => !ends true x

/-- Every `before` has been passed, and the handler is successful. -/
def handles : Bool := reachesHandler hooks && handler.isOk

/-- There is a failure: the first `before` that is not silent fails, or the handler or an `after`
does. -/
def failure : Bool :=
  (upTo (ends true) (dueBefore hooks)).any fails ||
    (reachesHandler hooks && (!handler.isOk || (dueAfter hooks).any fails))

/-- The calls of a pipeline: the `before` functions up to the first response or failure, the handler
if there was none, every `after` when the handler was successful, the `error` functions up to the
first response if there was a failure, and last every `finally`. -/
def dueCalls : List Called :=
  ((upTo (ends true) (dueBefore hooks)).map Prod.fst ++
    if reachesHandler hooks then [.handler] else []) ++
  ((if handles hooks handler then (dueAfter hooks).map Prod.fst else []) ++
    ((if failure hooks handler then (upTo responds (dueError hooks)).map Prod.fst else []) ++
      (dueFinally hooks).map Prod.fst))

/-- How the pipeline ends if no `finally` fails. -/
def settlement : Completion ε ρ := (catchBlock hooks (tryBlock hooks handler .start)).2

/-- The calls are the ones that are due, and no `finally` has replaced how the pipeline ends. -/
structure Lawful (result : Run ε ρ × Completion ε ρ) : Prop where
  calls : result.1.calls.map Prod.fst = dueCalls hooks handler
  completion : result.2 = settlement hooks handler

/-- No `finally` fails, and no `after` or `error` that others would have to follow. -/
structure Unfailing : Prop where
  after : handles hooks handler = true → ∀ x ∈ (dueAfter hooks).dropLast, fails x = false
  error : failure hooks handler = true →
    ∀ x ∈ (upTo responds (dueError hooks)).dropLast, fails x = false
  onFinally : ∀ x ∈ dueFinally hooks, fails x = false

end Due

/-! ## The calls that are made -/

variable {hooks : List (RouteHook ε ρ)} {handler : Except ε (Option ρ)} {run : Run ε ρ}

def Run.names (run : Run ε ρ) : List Called := run.calls.map Prod.fst

@[simp] theorem Run.names_call (run : Run ε ρ) (called : Called) :
    (run.call called).names = run.names ++ [called] := by
  simp [Run.names, Run.call]

@[simp] theorem Run.names_setResponse (run : Run ε ρ) (response : Option ρ) :
    (run.setResponse response).names = run.names := rfl

def Completion.isThrow : Completion ε ρ → Bool
  | .threw _ _ => true
  | .returned _ => false

/-- A response makes no call, and returns if the loop stops at responses. -/
structure Responder (stops : Bool) (respond : Run ε ρ → ρ → Run ε ρ × Option (Completion ε ρ)) :
    Prop where
  names : ∀ run response, (respond run response).1.names = run.names
  returns : stops = true → ∀ run response, ∃ r, (respond run response).2 = some (.returned r)
  continues : stops = false → ∀ run response, (respond run response).2 = none

theorem responder_respondAndReturn : Responder true (respondAndReturn (ε := ε) (ρ := ρ)) :=
  ⟨fun _ _ => rfl, fun _ _ response => ⟨some response, rfl⟩, nofun⟩

theorem responder_respondAndContinue : Responder false (respondAndContinue (ε := ε) (ρ := ρ)) :=
  ⟨fun _ _ => rfl, nofun, fun _ _ _ => rfl⟩

theorem responder_ignoreResponse : Responder false (ignoreResponse (ε := ε) (ρ := ρ)) :=
  ⟨fun _ _ => rfl, nofun, fun _ _ _ => rfl⟩

/-- What a loop has done: it has made the calls up to the one that ends it, and has ended with what
that call did. -/
structure Looped (stops : Bool) (calls : List (Called × Outcome ε ρ)) (names : List Called)
    (result : Run ε ρ × Option (Completion ε ρ)) : Prop where
  names : result.1.names = names ++ (upTo (ends stops) calls).map Prod.fst
  isNone : result.2 = none ↔ ∀ x ∈ calls, ends stops x = false
  returned : ∀ r, result.2 = some (.returned r) → (upTo (ends stops) calls).any fails = false
  threw : ∀ call e, result.2 = some (.threw call e) →
    (upTo (ends stops) calls).any fails = true ∧ call ∈ calls.map Prod.fst

namespace Looped

variable {stops : Bool} {calls : List (Called × Outcome ε ρ)} {names : List Called}
  {result : Run ε ρ × Option (Completion ε ρ)} {x : Called × Outcome ε ρ}

theorem nil {run : Run ε ρ} : Looped stops [] run.names (run, none) :=
  ⟨(List.append_nil _).symm, by simp, nofun, nofun⟩

theorem fails_of_not_ends (hx : ends stops x = false) : fails x = false := by
  unfold ends at hx
  rw [Bool.or_eq_false_iff] at hx
  exact hx.2

theorem cons (L : Looped stops calls (names ++ [x.1]) result) (hx : ends stops x = false) :
    Looped stops (x :: calls) names result := by
  have hupTo : upTo (ends stops) (x :: calls) = x :: upTo (ends stops) calls := by
    rw [upTo_cons, if_neg (by simp [hx])]
  refine ⟨?_, ?_, fun r h => ?_, fun call e h => ?_⟩
  · rw [L.names, hupTo]
    simp
  · rw [L.isNone, List.forall_mem_cons]
    simp [hx]
  · rw [hupTo, List.any_cons, L.returned r h, fails_of_not_ends hx]
    rfl
  · obtain ⟨hany, hmem⟩ := L.threw call e h
    rw [hupTo, List.any_cons, hany, List.map_cons]
    exact ⟨Bool.or_true _, List.mem_cons_of_mem _ hmem⟩

theorem ended {run : Run ε ρ} {c : Completion ε ρ} (hx : ends stops x = true)
    (hnames : run.names = names ++ [x.1]) (hreturned : ∀ r, c = .returned r → fails x = false)
    (hthrew : ∀ call e, c = .threw call e → fails x = true ∧ call = x.1) :
    Looped stops (x :: calls) names (run, some c) := by
  have hupTo : upTo (ends stops) (x :: calls) = [x] := by rw [upTo_cons, if_pos hx]
  refine ⟨?_, ?_, fun r h => ?_, fun call e h => ?_⟩
  · rw [hnames, hupTo]
    rfl
  · constructor
    · exact nofun
    · intro h
      rw [h x (List.mem_cons_self ..)] at hx
      cases hx
  · rw [hupTo, List.any_cons, hreturned r (Option.some.inj h)]
    rfl
  · obtain ⟨hfails, rfl⟩ := hthrew call e (Option.some.inj h)
    rw [hupTo, List.any_cons, hfails]
    exact ⟨rfl, List.mem_cons_self ..⟩

end Looped

theorem looped_eachHook {stops : Bool} {called : Nat → Called}
    {phase : RouteHook ε ρ → Option (Outcome ε ρ)}
    {respond : Run ε ρ → ρ → Run ε ρ × Option (Completion ε ρ)} (R : Responder stops respond)
    (hooks : List (RouteHook ε ρ)) (i : Nat) (run : Run ε ρ) :
    Looped stops (due called phase hooks i) run.names
      (eachHook called phase respond hooks i run) := by
  induction hooks generalizing i run with
  | nil => exact .nil
  | cons hook hooks ih =>
    rw [due, eachHook]
    cases phase hook with
    | none => exact ih (i + 1) run
    | some outcome =>
      have hcall := run.names_call (called i)
      cases outcome with
      | silent =>
        have hrest := ih (i + 1) (run.call (called i))
        rw [hcall] at hrest
        exact hrest.cons (by cases stops <;> rfl)
      | responds response =>
        rcases hrespond : respond (run.call (called i)) response with ⟨run', c⟩
        have hnames : run'.names = run.names ++ [called i] := by
          rw [← hcall, ← R.names (run.call (called i)) response, hrespond]
        simp only [hrespond]
        cases stops with
        | true =>
          obtain ⟨r, hr⟩ := R.returns rfl (run.call (called i)) response
          rw [hrespond] at hr
          cases hr
          refine Looped.ended rfl hnames ?_ ?_
          · intro r h
            rfl
          · intro call e h
            cases h
        | false =>
          have hc := R.continues rfl (run.call (called i)) response
          rw [hrespond] at hc
          cases hc
          have hrest := ih (i + 1) run'
          rw [hnames] at hrest
          exact hrest.cons rfl
      | fails e =>
        refine Looped.ended (by cases stops <;> rfl) hcall ?_ ?_
        · intro r h
          cases h
        · rintro call e' ⟨⟩
          exact ⟨rfl, rfl⟩

/-! ## The blocks -/

variable (hooks : List (RouteHook ε ρ)) (handler : Except ε (Option ρ)) (run : Run ε ρ)

theorem looped_beforeHooks : Looped true (dueBefore hooks) run.names (beforeHooks hooks run) :=
  looped_eachHook responder_respondAndReturn hooks 0 run

theorem looped_afterHooks : Looped false (dueAfter hooks) run.names (afterHooks hooks run) :=
  looped_eachHook responder_respondAndContinue hooks 0 run

theorem looped_errorHooks : Looped true (dueError hooks) run.names (errorHooks hooks run) :=
  looped_eachHook responder_respondAndReturn hooks 0 run

theorem looped_finallyHooks : Looped false (dueFinally hooks) run.names (finallyHooks hooks run) :=
  looped_eachHook responder_ignoreResponse hooks 0 run

theorem ends_false : (ends false : Called × Outcome ε ρ → Bool) = fails := rfl

theorem any_upTo (xs : List α) : (upTo p xs).any p = xs.any p := by
  induction xs with
  | nil => rfl
  | cons x xs ih =>
    rw [upTo_cons]
    cases hp : p x <;> simp [hp, ih]

theorem upTo_of_forall (h : ∀ x ∈ xs, p x = false) : upTo p xs = xs :=
  upTo_eq_self_iff.mpr fun x hx => h x (List.dropLast_subset xs hx)

theorem beforeHooks_none {run₁ : Run ε ρ} (h : beforeHooks hooks run = (run₁, none)) :
    reachesHandler hooks = true ∧ (upTo (ends true) (dueBefore hooks)).any fails = false ∧
      run₁.names = run.names ++ (upTo (ends true) (dueBefore hooks)).map Prod.fst := by
  have L := looped_beforeHooks hooks run
  rw [h] at L
  have hsilent := L.isNone.mp rfl
  refine ⟨?_, ?_, L.names⟩
  · unfold reachesHandler
    simpa using hsilent
  · rw [upTo_of_forall hsilent, List.any_eq_false]
    intro x hx
    simp [Looped.fails_of_not_ends (hsilent x hx)]

theorem beforeHooks_some {run₁ : Run ε ρ} {c : Completion ε ρ}
    (h : beforeHooks hooks run = (run₁, some c)) :
    reachesHandler hooks = false ∧
      (upTo (ends true) (dueBefore hooks)).any fails = c.isThrow ∧
      run₁.names = run.names ++ (upTo (ends true) (dueBefore hooks)).map Prod.fst := by
  have L := looped_beforeHooks hooks run
  rw [h] at L
  refine ⟨?_, ?_, L.names⟩
  · by_contra hreaches
    have hsilent : ∀ x ∈ dueBefore hooks, ends true x = false := by
      simpa [reachesHandler] using hreaches
    cases L.isNone.mpr hsilent
  · cases c with
    | returned r => exact L.returned r rfl
    | threw call e => exact (L.threw call e rfl).1

theorem afterHooks_spec {run₁ : Run ε ρ} {c : Option (Completion ε ρ)}
    (h : afterHooks hooks run = (run₁, c)) :
    run₁.names = run.names ++ (upTo fails (dueAfter hooks)).map Prod.fst ∧
      (dueAfter hooks).any fails = c.isSome ∧ ∀ c', c = some c' → c'.isThrow = true := by
  have L := looped_afterHooks hooks run
  rw [h] at L
  refine ⟨L.names, ?_, ?_⟩
  · cases c with
    | none =>
      show _ = false
      rw [List.any_eq_false]
      intro x hx
      have hsilent := L.isNone.mp rfl x hx
      rw [ends_false] at hsilent
      simp [hsilent]
    | some c =>
      by_contra hany
      have hnone : ∀ x ∈ dueAfter hooks, ends false x = false := by simpa [ends_false] using hany
      cases L.isNone.mpr hnone
  · rintro (r | ⟨call, e⟩) rfl
    · have hany := L.returned r rfl
      rw [ends_false, any_upTo, List.any_eq_false] at hany
      cases L.isNone.mpr fun x hx => by simpa [ends_false] using hany x hx
    · rfl

theorem tryBlock_spec :
    (tryBlock hooks handler run).1.names = run.names ++
      (((upTo (ends true) (dueBefore hooks)).map Prod.fst ++
        if reachesHandler hooks then [.handler] else []) ++
      if handles hooks handler then (upTo fails (dueAfter hooks)).map Prod.fst else []) ∧
    (tryBlock hooks handler run).2.isThrow = failure hooks handler := by
  unfold tryBlock
  rcases hbefore : beforeHooks hooks run with ⟨run₁, _ | c⟩
  · obtain ⟨hreaches, hany, hnames⟩ := beforeHooks_none hooks run hbefore
    simp only [failure, hreaches, hany, handles, Bool.true_and, Bool.false_or, if_true]
    cases handler with
    | error e => simp [Except.isOk, Except.toBool, Completion.isThrow, hnames]
    | ok response =>
      rcases hafter : afterHooks hooks ((run₁.call .handler).setResponse response) with
        ⟨run₂, _ | c⟩
      · obtain ⟨hcalls, hthrow, -⟩ := afterHooks_spec hooks _ hafter
        simp [Except.isOk, Except.toBool, Completion.isThrow, hafter, hnames, hcalls, hthrow]
      · obtain ⟨hcalls, hthrow, hc⟩ := afterHooks_spec hooks _ hafter
        simp [Except.isOk, Except.toBool, hafter, hnames, hcalls, hthrow, hc c rfl]
  · obtain ⟨hreaches, hany, hnames⟩ := beforeHooks_some hooks run hbefore
    simp [failure, hreaches, hany, handles, hnames]

theorem catchBlock_names (x : Run ε ρ × Completion ε ρ) :
    (catchBlock hooks x).1.names = x.1.names ++
      if x.2.isThrow then (upTo fails (upTo responds (dueError hooks))).map Prod.fst else [] := by
  obtain ⟨run, r | ⟨call, e⟩⟩ := x
  · exact (List.append_nil _).symm
  · have hnames := (looped_errorHooks hooks (run.setError e)).names
    have hends : (ends true : Called × Outcome ε ρ → Bool) = fun x => responds x || fails x := rfl
    rw [hends, upTo_or] at hnames
    unfold catchBlock
    rcases herror : errorHooks hooks (run.setError e) with ⟨run₁, _ | c⟩
    all_goals
      rw [herror] at hnames
      simp only [herror]
      exact hnames

/-- What has not been thrown by a `finally`. -/
def Completion.BeforeFinally (c : Completion ε ρ) : Prop := ∀ i e, c ≠ .threw (.onFinally i) e

theorem exists_of_mem_due {called : Nat → Called} {phase : RouteHook ε ρ → Option (Outcome ε ρ)}
    {i : Nat} {call : Called} (h : call ∈ (due called phase hooks i).map Prod.fst) :
    ∃ j, call = called j := by
  induction hooks generalizing i with
  | nil => cases h
  | cons hook hooks ih =>
    rw [due] at h
    cases hphase : phase hook with
    | none =>
      rw [hphase] at h
      exact ih h
    | some outcome =>
      rw [hphase, List.map_cons] at h
      rcases List.mem_cons.mp h with rfl | h
      · exact ⟨i, rfl⟩
      · exact ih h

theorem Looped.beforeFinally {stops : Bool} {called : Nat → Called}
    {phase : RouteHook ε ρ → Option (Outcome ε ρ)} {names : List Called} {run : Run ε ρ}
    {c : Completion ε ρ} (L : Looped stops (due called phase hooks 0) names (run, some c))
    (hcalled : ∀ i j, called i ≠ .onFinally j) : c.BeforeFinally := by
  rintro i e rfl
  obtain ⟨j, hj⟩ := exists_of_mem_due hooks (L.threw _ e rfl).2
  exact hcalled j i hj.symm

theorem tryBlock_beforeFinally : (tryBlock hooks handler run).2.BeforeFinally := by
  have L := looped_beforeHooks hooks run
  unfold tryBlock
  rcases hbefore : beforeHooks hooks run with ⟨run₁, _ | c⟩
  · cases handler with
    | error e =>
      intro i e' h
      cases h
    | ok response =>
      have A := looped_afterHooks hooks ((run₁.call .handler).setResponse response)
      rcases hafter : afterHooks hooks ((run₁.call .handler).setResponse response) with
        ⟨run₂, _ | c⟩
      · simp only [hafter]
        intro i e h
        cases h
      · simp only [hafter]
        rw [hafter] at A
        exact A.beforeFinally hooks nofun
  · rw [hbefore] at L
    exact L.beforeFinally hooks nofun

theorem catchBlock_beforeFinally {x : Run ε ρ × Completion ε ρ} (hx : x.2.BeforeFinally) :
    (catchBlock hooks x).2.BeforeFinally := by
  obtain ⟨run, r | ⟨call, e⟩⟩ := x
  · exact hx
  · have L := looped_errorHooks hooks (run.setError e)
    unfold catchBlock
    rcases herror : errorHooks hooks (run.setError e) with ⟨run₁, _ | c⟩
    · simp only [herror]
      exact hx
    · simp only [herror]
      rw [herror] at L
      exact L.beforeFinally hooks nofun

theorem finallyBlock_spec {x : Run ε ρ × Completion ε ρ} (hx : x.2.BeforeFinally) :
    (finallyBlock hooks x).1.names =
        x.1.names ++ (upTo fails (dueFinally hooks)).map Prod.fst ∧
      ((finallyBlock hooks x).2 = x.2 ↔ ∀ y ∈ dueFinally hooks, fails y = false) := by
  obtain ⟨run, c⟩ := x
  have L := looped_finallyHooks hooks run
  unfold finallyBlock
  rcases hfinally : finallyHooks hooks run with ⟨run₁, _ | c'⟩
  · rw [hfinally] at L
    simp only [hfinally, true_iff]
    exact ⟨L.names, L.isNone.mp rfl⟩
  · rw [hfinally] at L
    simp only [hfinally]
    refine ⟨L.names, fun h => ?_, fun h => ?_⟩
    · subst h
      cases c' with
      | returned r =>
        have hany := L.returned r rfl
        rw [ends_false, any_upTo, List.any_eq_false] at hany
        exact fun y hy => by simpa using hany y hy
      | threw call e =>
        obtain ⟨i, hi⟩ := exists_of_mem_due hooks (L.threw call e rfl).2
        exact absurd (by rw [hi]) (hx i e)
    · cases L.isNone.mpr h

/-! ## The pipeline -/

theorem length_map_upTo_iff {β : Type} {f : α → β} :
    ((upTo p xs).map f).length = (xs.map f).length ↔ ∀ x ∈ xs.dropLast, p x = false := by
  rw [List.length_map, List.length_map, ← upTo_eq_self_iff]
  exact ⟨eq_of_length_upTo, fun h => by rw [h]⟩

theorem map_upTo_of_forall {β : Type} {f : α → β} (h : ∀ x ∈ xs.dropLast, p x = false) :
    (upTo p xs).map f = xs.map f := by
  rw [upTo_eq_self_iff.mpr h]

theorem length_map_upTo_le {β : Type} (f : α → β) (p : α → Bool) (xs : List α) :
    ((upTo p xs).map f).length ≤ (xs.map f).length := by
  rw [List.length_map, List.length_map]
  exact length_upTo_le p xs

theorem phase_calls {β : Type} (f : α → β) (p : α → Bool) (xs : List α) (b : Bool) :
    (if b then (upTo p xs).map f else []).length ≤ (if b then xs.map f else []).length ∧
      ((if b then (upTo p xs).map f else []).length = (if b then xs.map f else []).length ↔
        (b = true → ∀ x ∈ xs.dropLast, p x = false)) := by
  cases b with
  | false => simp
  | true =>
    refine ⟨length_map_upTo_le f p xs, ?_⟩
    rw [if_pos rfl, if_pos rfl, length_map_upTo_iff]
    exact ⟨fun h _ => h, fun h => h rfl⟩

theorem executeRoutePipeline_calls_iff (hooks : List (RouteHook ε ρ))
    (handler : Except ε (Option ρ)) :
    (executeRoutePipeline hooks handler).1.names = dueCalls hooks handler ↔
      (handles hooks handler = true → ∀ x ∈ (dueAfter hooks).dropLast, fails x = false) ∧
      (failure hooks handler = true →
        ∀ x ∈ (upTo responds (dueError hooks)).dropLast, fails x = false) ∧
      ∀ x ∈ (dueFinally hooks).dropLast, fails x = false := by
  have hx := catchBlock_beforeFinally hooks (tryBlock_beforeFinally hooks handler .start)
  obtain ⟨hfinally, -⟩ := finallyBlock_spec hooks hx
  obtain ⟨htry, hthrow⟩ := tryBlock_spec hooks handler .start
  have hcatch := catchBlock_names hooks (tryBlock hooks handler .start)
  rw [hthrow, htry] at hcatch
  rw [hcatch] at hfinally
  have hstart : (Run.start : Run ε ρ).names = [] := rfl
  simp only [hstart, List.nil_append, List.append_assoc] at hfinally
  obtain ⟨hafter, hafterIff⟩ :=
    phase_calls Prod.fst fails (dueAfter hooks) (handles hooks handler)
  obtain ⟨herror, herrorIff⟩ :=
    phase_calls Prod.fst fails (upTo responds (dueError hooks)) (failure hooks handler)
  have hlast := length_map_upTo_le Prod.fst fails (dueFinally hooks)
  rw [executeRoutePipeline, hfinally, dueCalls, List.append_assoc, List.append_cancel_left_eq,
    List.append_cancel_left_eq]
  constructor
  · -- no phase makes more calls than are due, so each of them makes as many
    intro heq
    have hlen := congrArg List.length heq
    simp only [List.length_append] at hlen
    refine ⟨hafterIff.mp ?_, herrorIff.mp ?_, (length_map_upTo_iff (f := Prod.fst)).mp ?_⟩
    all_goals omega
  · rintro ⟨ha, he, hf⟩
    have hA : (if handles hooks handler = true then (upTo fails (dueAfter hooks)).map Prod.fst
        else []) = if handles hooks handler = true then (dueAfter hooks).map Prod.fst else [] := by
      split
      · next h => exact map_upTo_of_forall (ha h)
      · rfl
    have hE : (if failure hooks handler = true then
          (upTo fails (upTo responds (dueError hooks))).map Prod.fst else []) =
        if failure hooks handler = true then (upTo responds (dueError hooks)).map Prod.fst
        else [] := by
      split
      · next h => exact map_upTo_of_forall (he h)
      · rfl
    rw [hA, hE, map_upTo_of_forall hf]

/-- The pipeline calls what is due, and ends as it would without its `finally` functions, exactly
when none of these fails and no failure of an `after` or `error` comes before others. -/
theorem executeRoutePipeline_lawful_iff (hooks : List (RouteHook ε ρ))
    (handler : Except ε (Option ρ)) :
    Lawful hooks handler (executeRoutePipeline hooks handler) ↔ Unfailing hooks handler := by
  have hx := catchBlock_beforeFinally hooks (tryBlock_beforeFinally hooks handler .start)
  obtain ⟨-, hsettles⟩ := finallyBlock_spec hooks hx
  constructor
  · intro L
    obtain ⟨hafter, herror, -⟩ := (executeRoutePipeline_calls_iff hooks handler).mp L.calls
    exact ⟨hafter, herror, hsettles.mp L.completion⟩
  · intro U
    refine ⟨(executeRoutePipeline_calls_iff hooks handler).mpr ⟨U.after, U.error, ?_⟩,
      hsettles.mpr U.onFinally⟩
    intro x hx
    exact U.onFinally x (List.dropLast_subset _ hx)

/-- A `finally` that fails, before one that is then not called. -/
def failingFinally : List (RouteHook String String) :=
  [⟨none, none, none, some (.fails "cleanup")⟩, ⟨none, none, none, some .silent⟩]

theorem failingFinally_not_lawful :
    ¬ Lawful failingFinally (.ok (some "ok"))
      (executeRoutePipeline failingFinally (.ok (some "ok"))) := by
  intro L
  have hcompletion : Completion.threw (.onFinally 0) "cleanup" = .returned (some "ok") :=
    L.completion
  cases hcompletion

end TransformHub.ApiRouter.RoutePipeline
