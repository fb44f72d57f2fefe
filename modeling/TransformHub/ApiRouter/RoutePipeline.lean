import Mathlib.Data.List.Basic

/-!
# The hooks of a route

`executeRoutePipeline` of `api-router/src/hooks.ts`.
-/

namespace TransformHub.ApiRouter.RoutePipeline

/-- What a function of a hook does. -/
inductive Outcome (ε ρ : Type) where
  | silent
  | responds (response : ρ)
  | fails (error : ε)

structure RouteHook (ε ρ : Type) where
  before : Option (Outcome ε ρ)
  after : Option (Outcome ε ρ)
  error : Option (Outcome ε ρ)
  onFinally : Option (Outcome ε ρ)

/-- What is called: the handler, or a function of the hook with the number `i`. -/
inductive Called where
  | before (i : Nat)
  | handler
  | after (i : Nat)
  | error (i : Nat)
  | onFinally (i : Nat)

structure RouteHookContext (ε ρ : Type) where
  response : Option ρ
  error : Option ε

/-- How a block ends: a value, which may be `undefined`, or what a call has thrown. -/
inductive Completion (ε ρ : Type) where
  | returned (response : Option ρ)
  | threw (call : Called) (error : ε)

structure Run (ε ρ : Type) where
  context : RouteHookContext ε ρ
  calls : List (Called × RouteHookContext ε ρ)

variable {ε ρ : Type}

namespace Run

def start : Run ε ρ := ⟨⟨none, none⟩, []⟩

def call (run : Run ε ρ) (called : Called) : Run ε ρ :=
  { run with calls := run.calls ++ [(called, run.context)] }

def setResponse (run : Run ε ρ) (response : Option ρ) : Run ε ρ :=
  { run with context := { run.context with response := response } }

def setError (run : Run ε ρ) (error : ε) : Run ε ρ :=
  { run with context := { run.context with error := some error } }

end Run

/-- `for (const hook of hooks)`: a failure ends the loop, and `respond` says what a response does. -/
def eachHook (called : Nat → Called) (phase : RouteHook ε ρ → Option (Outcome ε ρ))
    (respond : Run ε ρ → ρ → Run ε ρ × Option (Completion ε ρ)) :
    List (RouteHook ε ρ) → Nat → Run ε ρ → Run ε ρ × Option (Completion ε ρ)
  | [], _, run => (run, none)
  | hook :: hooks, i, run =>
    match phase hook with
    | none => eachHook called phase respond hooks (i + 1) run
    | some .silent => eachHook called phase respond hooks (i + 1) (run.call (called i))
    | some (.responds response) =>
      match respond (run.call (called i)) response with
      | (run, some completion) => (run, some completion)
      | (run, none) => eachHook called phase respond hooks (i + 1) run
    | some (.fails error) => (run.call (called i), some (.threw (called i) error))

/-- `context.response = response; return response;` -/
def respondAndReturn (run : Run ε ρ) (response : ρ) : Run ε ρ × Option (Completion ε ρ) :=
  (run.setResponse (some response), some (.returned (some response)))

/-- `context.response = response;` -/
def respondAndContinue (run : Run ε ρ) (response : ρ) : Run ε ρ × Option (Completion ε ρ) :=
  (run.setResponse (some response), none)

/-- The value of `finally` is not looked at. -/
def ignoreResponse (run : Run ε ρ) (_ : ρ) : Run ε ρ × Option (Completion ε ρ) := (run, none)

def beforeHooks (hooks : List (RouteHook ε ρ)) (run : Run ε ρ) :
    Run ε ρ × Option (Completion ε ρ) :=
  eachHook .before RouteHook.before respondAndReturn hooks 0 run

def afterHooks (hooks : List (RouteHook ε ρ)) (run : Run ε ρ) :
    Run ε ρ × Option (Completion ε ρ) :=
  eachHook .after RouteHook.after respondAndContinue hooks 0 run

def errorHooks (hooks : List (RouteHook ε ρ)) (run : Run ε ρ) :
    Run ε ρ × Option (Completion ε ρ) :=
  eachHook .error RouteHook.error respondAndReturn hooks 0 run

def finallyHooks (hooks : List (RouteHook ε ρ)) (run : Run ε ρ) :
    Run ε ρ × Option (Completion ε ρ) :=
  eachHook .onFinally RouteHook.onFinally ignoreResponse hooks 0 run

/-- The `try` block. -/
def tryBlock (hooks : List (RouteHook ε ρ)) (handler : Except ε (Option ρ)) (run : Run ε ρ) :
    Run ε ρ × Completion ε ρ :=
  match beforeHooks hooks run with
  | (run, some completion) => (run, completion)
  | (run, none) =>
    match handler with
    | .error error => (run.call .handler, .threw .handler error)
    | .ok response =>
      match afterHooks hooks ((run.call .handler).setResponse response) with
      | (run, some completion) => (run, completion)
      | (run, none) => (run, .returned run.context.response)

/-- The `catch` block, which is left out where the `try` block has returned. -/
def catchBlock (hooks : List (RouteHook ε ρ)) :
    Run ε ρ × Completion ε ρ → Run ε ρ × Completion ε ρ
  | (run, .returned response) => (run, .returned response)
  | (run, .threw call error) =>
    match errorHooks hooks (run.setError error) with
    | (run, some completion) => (run, completion)
    | (run, none) => (run, .threw call error)

/-- The `finally` block: what it throws replaces the completion. -/
def finallyBlock (hooks : List (RouteHook ε ρ)) :
    Run ε ρ × Completion ε ρ → Run ε ρ × Completion ε ρ
  | (run, completion) =>
    match finallyHooks hooks run with
    | (run, some thrown) => (run, thrown)
    | (run, none) => (run, completion)

def executeRoutePipeline (hooks : List (RouteHook ε ρ)) (handler : Except ε (Option ρ)) :
    Run ε ρ × Completion ε ρ :=
  finallyBlock hooks (catchBlock hooks (tryBlock hooks handler .start))

end TransformHub.ApiRouter.RoutePipeline
