import TransformHub.Host.RunnerTransport
import TransformHub.Lib.OrderedMap

/-!
# Generations of a runner transport

What a generation that has passed may still do to the next one.
-/

namespace TransformHub.Host

/-- The call has nothing in hand and listens to nothing. -/
def CallStage.isIdle : CallStage → Bool
  | .routed | .opened _ | .throwing _ | .settled _ => true
  | .waitingRoute _ | .requesting _ _ | .received _ | .checking _ => false

namespace Verser2RunnerTransport

variable {s s' : Verser2RunnerTransport}

section Definitions

variable (s)

def generationOf : Action → Option ℕ
  | .connect | .disconnect => none
  | .routeReady k | .routeFails k _ | .aborts k | .proceeds k _ | .resumes k | .checked k | .caught k =>
    s.calls[k]?.map TransportCall.generation
  | .responds r _ | .requestFails r _ => s.requests[r]?.map RouteRequest.generation
  | .bodyEvent b _ => s.bodies[b]?.map ResponseBody.generation

/-- There is a connection, or there is going to be one. -/
def Live : Prop := s.connecting = true ∨ s.connected = true

instance : Decidable s.Live := inferInstanceAs (Decidable (_ ∨ _))

/-- The connection is the same, and so is all that belongs to its generation. -/
structure Unharmed (s s' : Verser2RunnerTransport) : Prop where
  connectionGeneration : s'.connectionGeneration = s.connectionGeneration
  connected : s'.connected = s.connected
  connecting : s'.connecting = s.connecting
  setupError : s'.setupError = s.setupError
  abortController : s'.abortController = s.abortController
  aborted : s'.aborted = s.aborted
  calls : ∀ (k : ℕ) (call : TransportCall), s.calls[k]? = some call →
    call.generation = s.connectionGeneration → s'.calls[k]? = some call
  bodies : ∀ (b : ℕ) (body : ResponseBody), s.bodies[b]? = some body → body.generation = s.connectionGeneration →
    s'.bodies[b]? = some body ∧ (b ∈ s'.responseBodies ↔ b ∈ s.responseBodies)

/-- A call has a response in hand and is going to destroy it. -/
def Destroys (k b : ℕ) : Prop :=
  ∃ call body, s.calls[k]? = some call ∧ s.bodies[b]? = some body ∧
    call.generation ≠ s.connectionGeneration ∧
      (call.stage = .received b ∨ call.stage = .checking b ∧ body.isSuccessful = false)

/-- A call is going to take a response over. -/
def adopts (call : TransportCall) : Bool :=
  match call.stage with
  | .checking b => s.bodies[b]?.any fun body => body.isSuccessful && !body.destroyed
  | _ => false

/-- No response is about to be taken over, so that the generation may pass. -/
def NoneAdopted : Prop := ∀ call ∈ s.calls, s.adopts call = false

instance : Decidable s.NoneAdopted := inferInstanceAs (Decidable (∀ _ ∈ _, _))

/-- The step does not reach over to another generation. A generation passes when no response is
about to be taken over, and by `connect` only when its bodies have been destroyed; a call of
`connect` that fails after its generation has passed does so while there is no new connection; and
the body of a generation that has passed does not end while a connection is set up that has not
failed. -/
def Careful : Action → Prop
  | .connect => s.NoneAdopted ∧
      ∀ b ∈ s.responseBodies, ∀ body ∈ s.bodies[b]?, body.destroyed = true
  | .disconnect => s.NoneAdopted
  | .caught k => ∀ call ∈ s.calls[k]?, (call.isConnect && call.stage.isThrowing) = true →
      s.NoneAdopted ∧ (call.generation ≠ s.connectionGeneration → ¬ s.Live)
  | .bodyEvent b _ => ∀ body ∈ s.bodies[b]?, body.listens = true →
      body.generation ≠ s.connectionGeneration →
        (s.connecting && s.setupError.isNone) = false
  | _ => True

instance : (a : Action) → Decidable (s.Careful a)
  | .connect => inferInstanceAs (Decidable (_ ∧ _))
  | .disconnect => inferInstanceAs (Decidable s.NoneAdopted)
  | .caught k => inferInstanceAs (Decidable (∀ call ∈ s.calls[k]?,
      (call.isConnect && call.stage.isThrowing) = true → s.NoneAdopted ∧ (call.generation ≠ s.connectionGeneration → ¬ s.Live)))
  | .bodyEvent b _ => inferInstanceAs (Decidable (∀ body ∈ s.bodies[b]?, body.listens = true →
      body.generation ≠ s.connectionGeneration → (s.connecting && s.setupError.isNone) = false))
  | .routeReady _ | .routeFails _ _ | .aborts _ | .proceeds _ _ | .responds _ _
  | .requestFails _ _ | .resumes _ | .checked _ => .isTrue trivial

end Definitions

/-! ## The invariant -/

/-- A call has a response in hand, and will destroy it or take it over in its generation. -/
def Held (s : Verser2RunnerTransport) (k b : ℕ) (body : ResponseBody) : Prop :=
  ∃ call, s.calls[k]? = some call ∧ (call.stage = .received b ∨ call.stage = .checking b ∧
    (body.isSuccessful = false ∨ body.generation = s.connectionGeneration))

/-- A body is destroyed, or it is in the hands of a call or of its generation. -/
def Kept (s : Verser2RunnerTransport) (b : ℕ) (body : ResponseBody) : Prop :=
  body.destroyed = true ∨ body.generation = s.connectionGeneration ∧ b ∈ s.responseBodies ∨
    ∃ k, s.Held k b body

structure Inv (s : Verser2RunnerTransport) : Prop where
  controller : ∀ c, s.abortController = some c → c < s.controllers ∧ c ∉ s.aborted
  aborted : ∀ c ∈ s.aborted, c < s.controllers
  generations : ∀ (k : ℕ) (call : TransportCall), s.calls[k]? = some call →
    call.generation ≤ s.connectionGeneration
  listens : ∀ (k : ℕ) (call : TransportCall) (c : ℕ), s.calls[k]? = some call →
    call.generation = s.connectionGeneration → call.stage.controller? = some c →
      s.abortController = some c
  requests : ∀ (r : ℕ) (request : RouteRequest), s.requests[r]? = some request →
    ∃ call, s.calls[request.call]? = some call ∧ call.generation = request.generation ∧
      (request.pending = true → request.generation = s.connectionGeneration →
        ∃ controller, call.stage = .requesting r controller)
  responses : ∀ (k : ℕ) (call : TransportCall) (b : ℕ), s.calls[k]? = some call →
    call.stage = .received b ∨ call.stage = .checking b →
      ∃ body, s.bodies[b]? = some body ∧ body.generation = call.generation
  bodies : ∀ (b : ℕ) (body : ResponseBody), s.bodies[b]? = some body →
    body.generation ≤ s.connectionGeneration ∧ s.Kept b body

theorem inv_new : new.Inv where
  controller := nofun
  aborted := nofun
  generations := nofun
  listens := nofun
  requests := nofun
  responses := nofun
  bodies := nofun

theorem modify_cases {α : Type} {l : List α} {k k' : ℕ} {f : α → α} {x' : α}
    (h : (l.modify k f)[k']? = some x') :
    k = k' ∧ (∃ x, l[k']? = some x ∧ x' = f x) ∨ k ≠ k' ∧ l[k']? = some x' := by
  by_cases hk : k = k'
  · subst hk
    rw [List.getElem?_modify_eq] at h
    obtain ⟨x, hx, heq⟩ := Option.map_eq_some_iff.mp h
    exact .inl ⟨rfl, x, hx, heq.symm⟩
  · rw [List.getElem?_modify_ne _ _ hk] at h
    exact .inr ⟨hk, h⟩

structure Moves (s : Verser2RunnerTransport) (k : ℕ) (call call' : TransportCall) : Prop where
  generation : call'.generation = call.generation
  listens : ∀ c, call'.stage.controller? = some c →
    call.generation = s.connectionGeneration → s.abortController = some c
  requests : ∀ (r : ℕ) (request : RouteRequest), s.requests[r]? = some request → request.call = k →
    request.pending = true → request.generation = s.connectionGeneration →
      ∃ controller, call'.stage = .requesting r controller
  responses : ∀ b, call'.stage = .received b ∨ call'.stage = .checking b →
    ∃ body, s.bodies[b]? = some body ∧ body.generation = call.generation
  bodies : ∀ (b : ℕ) (body : ResponseBody), s.bodies[b]? = some body →
    call.stage = .received b ∨ call.stage = .checking b →
      body.destroyed = true ∨ body.generation = s.connectionGeneration ∧
        (b ∈ s.responseBodies ∨ call'.stage = .checking b) ∨ ∃ k' ≠ k, s.Held k' b body

variable {call : TransportCall} {k : ℕ}

theorem Inv.modify (h : s.Inv) (hc : s.calls[k]? = some call) {f : TransportCall → TransportCall}
    (hf : s.Moves k call (f call)) :
    ({ s with calls := s.calls.modify k f } : Verser2RunnerTransport).Inv where
  controller := h.controller
  aborted := h.aborted
  generations := fun k' call' hc' => by
    obtain ⟨rfl, call₀, hc₀, rfl⟩ | ⟨-, hc'⟩ := modify_cases hc'
    · cases hc.symm.trans hc₀
      exact hf.generation ▸ h.generations k call hc
    · exact h.generations k' call' hc'
  listens := fun k' call' c hc' hgeneration hcontroller => by
    obtain ⟨rfl, call₀, hc₀, rfl⟩ | ⟨-, hc'⟩ := modify_cases hc'
    · cases hc.symm.trans hc₀
      exact hf.listens c hcontroller (hf.generation ▸ hgeneration)
    · exact h.listens k' call' c hc' hgeneration hcontroller
  requests := fun r request hr => by
    obtain ⟨call', hc', hgeneration, hpending⟩ := h.requests r request hr
    by_cases hk : k = request.call
    · subst hk
      cases hc.symm.trans hc'
      refine ⟨f call, ?_, hf.generation.trans hgeneration, hf.requests r request hr rfl⟩
      rw [List.getElem?_modify_eq, hc]
      rfl
    · refine ⟨call', ?_, hgeneration, hpending⟩
      rw [List.getElem?_modify_ne _ _ hk]
      exact hc'
  responses := fun k' call' b hc' hstage => by
    obtain ⟨rfl, call₀, hc₀, rfl⟩ | ⟨-, hc'⟩ := modify_cases hc'
    · cases hc.symm.trans hc₀
      rw [hf.generation]
      exact hf.responses b hstage
    · exact h.responses k' call' b hc' hstage
  bodies := fun b body hb => by
    obtain ⟨hle, hkept⟩ := h.bodies b body hb
    refine ⟨hle, ?_⟩
    obtain hdestroyed | hmem | ⟨k', call', hc', hstage⟩ := hkept
    · exact .inl hdestroyed
    · exact .inr (.inl hmem)
    have hother : ∀ k' ≠ k, s.Held k' b body →
        ∃ k', ({ s with calls := s.calls.modify k f } : Verser2RunnerTransport).Held k' b body := by
      rintro k' hk ⟨call', hc', hstage⟩
      refine ⟨k', call', ?_, hstage⟩
      rw [List.getElem?_modify_ne _ _ (Ne.symm hk)]
      exact hc'
    by_cases hk : k = k'
    · subst hk
      cases hc.symm.trans hc'
      obtain hdestroyed | ⟨hgeneration, hmem | hchecking⟩ | ⟨k', hk, hheld⟩ :=
        hf.bodies b body hb (hstage.imp id And.left)
      · exact .inl hdestroyed
      · exact .inr (.inl ⟨hgeneration, hmem⟩)
      · refine .inr (.inr ⟨k, f call, ?_, .inr ⟨hchecking, .inr hgeneration⟩⟩)
        rw [List.getElem?_modify_eq, hc]
        rfl
      · exact .inr (.inr (hother k' hk hheld))
    · exact .inr (.inr (hother k' (Ne.symm hk) ⟨call', hc', hstage⟩))

variable {stage : CallStage}

theorem Inv.idle (h : s.Inv) (hc : s.calls[k]? = some call) (hidle : stage.isIdle = true)
    (hrequests : ∀ r controller, call.stage = .requesting r controller → ∀ request ∈ s.requests[r]?, request.pending = true → call.generation ≠ s.connectionGeneration)
    (hbodies : ∀ b, call.stage = .received b ∨ call.stage = .checking b → ∀ body ∈ s.bodies[b]?, body.destroyed = true) :
    (s.setStage k stage).Inv := by
  refine h.modify hc ⟨rfl, fun c hcontroller => ?_, fun r request hr hcall hpending hcurrent => ?_,
    fun b hstage => ?_, fun b body hb hstage => .inl (hbodies b hstage body hb)⟩
  · replace hcontroller : stage.controller? = some c := hcontroller
    cases stage with
    | routed | opened | throwing | settled => cases hcontroller
    | waitingRoute | requesting | received | checking => cases hidle
  · obtain ⟨call', hc', hgeneration, hrequesting⟩ := h.requests r request hr
    rw [hcall] at hc'
    cases hc.symm.trans hc'
    obtain ⟨controller, hstage⟩ := hrequesting hpending hcurrent
    exact absurd (hgeneration.trans hcurrent) (hrequests r controller hstage request hr hpending)
  · replace hstage : stage = .received b ∨ stage = .checking b := hstage
    rcases hstage with rfl | rfl <;> cases hidle

theorem Inv.updateBody (h : s.Inv) (b : ℕ) {f : ResponseBody → ResponseBody}
    (hf : ∀ body, (f body).generation = body.generation ∧ (f body).statusCode = body.statusCode ∧
      (body.destroyed = true → (f body).destroyed = true)) : (s.updateBody b f).Inv where
  controller := h.controller
  aborted := h.aborted
  generations := h.generations
  listens := h.listens
  requests := h.requests
  responses := fun k call b' hc hstage => by
    obtain ⟨body, hb, hgeneration⟩ := h.responses k call b' hc hstage
    by_cases hbb : b = b'
    · subst hbb
      refine ⟨f body, ?_, (hf body).1.trans hgeneration⟩
      show (s.bodies.modify b f)[b]? = _
      rw [List.getElem?_modify_eq, hb]
      rfl
    · refine ⟨body, ?_, hgeneration⟩
      show (s.bodies.modify b f)[b']? = _
      rw [List.getElem?_modify_ne _ _ hbb]
      exact hb
  bodies := fun b' body' hb' => by
    obtain ⟨rfl, body, hb, rfl⟩ | ⟨-, hb'⟩ := modify_cases hb'
    · obtain ⟨hgeneration, hstatusCode, hdestroyed⟩ := hf body
      obtain ⟨hle, hkept⟩ := h.bodies b body hb
      rw [hgeneration]
      refine ⟨hle, hkept.imp hdestroyed (Or.imp (fun hmem => ⟨hgeneration.trans hmem.1, hmem.2⟩) ?_)⟩
      rintro ⟨k, call, hc, hstage⟩
      refine ⟨k, call, hc, hstage.imp_right fun ⟨hchecking, hsuccess⟩ => ⟨hchecking, ?_⟩⟩
      rw [ResponseBody.isSuccessful, hstatusCode, hgeneration]
      exact hsuccess
    · exact h.bodies b' body' hb'

theorem Inv.destroy (h : s.Inv) (b : ℕ) : (s.destroy b).Inv :=
  h.updateBody b fun _ => ⟨rfl, rfl, fun _ => rfl⟩

theorem Inv.close (h : s.Inv) (r : ℕ) :
    ({ s with requests := s.requests.modify r fun request => { request with pending := false } } :
      Verser2RunnerTransport).Inv :=
  { h with
    requests := fun r' request' hr' => by
      obtain ⟨rfl, request, hr, rfl⟩ | ⟨-, hr'⟩ := modify_cases hr'
      · obtain ⟨call, hc, hgeneration, -⟩ := h.requests r request hr
        exact ⟨call, hc, hgeneration, nofun⟩
      · exact h.requests r' request' hr' }

theorem Inv.addCall (h : s.Inv) (hgeneration : call.generation ≤ s.connectionGeneration)
    (hstage : call.stage = .waitingRoute s.abortController) :
    ({ s with calls := s.calls ++ [call] } : Verser2RunnerTransport).Inv := by
  have hold : ∀ {k : ℕ} {call' : TransportCall}, s.calls[k]? = some call' →
      (s.calls ++ [call])[k]? = some call' := OrderedMap.getElem?_append_of_some
  have hcases : ∀ {k : ℕ} {call' : TransportCall}, (s.calls ++ [call])[k]? = some call' →
      s.calls[k]? = some call' ∨ call' = call := by
    intro k call' hc'
    exact (OrderedMap.getElem?_append_cases hc').symm.imp And.right And.right
  refine ⟨h.controller, h.aborted, fun k call' hc' => ?_, fun k call' c hc' hcurrent hcontroller => ?_,
    fun r request hr => ?_, fun k call' b hc' hreceived => ?_, fun b body hb => ?_⟩
  · obtain hc' | rfl := hcases hc'
    · exact h.generations k call' hc'
    · exact hgeneration
  · obtain hc' | rfl := hcases hc'
    · exact h.listens k call' c hc' hcurrent hcontroller
    · rw [hstage] at hcontroller
      exact hcontroller
  · obtain ⟨call', hc', hsame⟩ := h.requests r request hr
    exact ⟨call', hold hc', hsame⟩
  · obtain hc' | rfl := hcases hc'
    · exact h.responses k call' b hc' hreceived
    · rw [hstage] at hreceived
      rcases hreceived with hreceived | hreceived <;> cases hreceived
  · obtain ⟨hle, hkept⟩ := h.bodies b body hb
    refine ⟨hle, hkept.imp id (Or.imp id ?_)⟩
    rintro ⟨k, call', hc', hheld⟩
    exact ⟨k, call', hold hc', hheld⟩

structure Passes (s s' : Verser2RunnerTransport) : Prop where
  connectionGeneration : s'.connectionGeneration = s.connectionGeneration + 1
  calls : s'.calls = s.calls
  requests : s'.requests = s.requests
  controller : ∀ c, s'.abortController = some c → c < s'.controllers ∧ c ∉ s'.aborted
  aborted : ∀ c ∈ s'.aborted, c < s'.controllers
  kept : ∀ (b : ℕ) (body : ResponseBody), s.bodies[b]? = some body →
    ∃ body', s'.bodies[b]? = some body' ∧ body'.generation = body.generation
  bodies : ∀ (b : ℕ) (body' : ResponseBody), s'.bodies[b]? = some body' →
    ∃ body, s.bodies[b]? = some body ∧ body'.generation = body.generation ∧
      body'.statusCode = body.statusCode ∧
        (body.destroyed = true ∨ b ∈ s.responseBodies → body'.destroyed = true)

theorem Inv.passes (h : s.Inv) (hnone : s.NoneAdopted) (hp : s.Passes s') : s'.Inv := by
  have hlater : ∀ g, g ≤ s.connectionGeneration → g ≠ s'.connectionGeneration := by
    intro g hle heq
    rw [heq, hp.connectionGeneration] at hle
    omega
  refine ⟨hp.controller, hp.aborted, fun k call hc => ?_, fun k call c hc hcurrent _ => ?_,
    fun r request hr => ?_, fun k call b hc hstage => ?_, fun b body' hb' => ?_⟩
  · rw [hp.calls] at hc
    rw [hp.connectionGeneration]
    exact Nat.le_succ_of_le (h.generations k call hc)
  · rw [hp.calls] at hc
    exact absurd hcurrent (hlater _ (h.generations k call hc))
  · rw [hp.requests] at hr
    obtain ⟨call, hc, hgeneration, -⟩ := h.requests r request hr
    refine ⟨call, hp.calls ▸ hc, hgeneration, fun _ hcurrent => ?_⟩
    exact absurd hcurrent (hlater _ (hgeneration ▸ h.generations _ call hc))
  · rw [hp.calls] at hc
    obtain ⟨body, hb, hgeneration⟩ := h.responses k call b hc hstage
    obtain ⟨body', hb', hsame⟩ := hp.kept b body hb
    exact ⟨body', hb', hsame.trans hgeneration⟩
  · obtain ⟨body, hb, hgeneration, hstatusCode, hdestroyed⟩ := hp.bodies b body' hb'
    obtain ⟨hle, hkept⟩ := h.bodies b body hb
    rw [hgeneration, hp.connectionGeneration]
    refine ⟨Nat.le_succ_of_le hle, ?_⟩
    obtain hdead | ⟨-, hmem⟩ | ⟨k, call, hc, hstage⟩ := hkept
    · exact .inl (hdestroyed (.inl hdead))
    · exact .inl (hdestroyed (.inr hmem))
    obtain hreceived | ⟨hchecking, -⟩ := hstage
    · exact .inr (.inr ⟨k, call, hp.calls ▸ hc, .inl hreceived⟩)
    · -- a response that would be taken over is destroyed already
      have hadopts := hnone call (List.mem_of_getElem? hc)
      simp only [adopts, hchecking, hb, Option.any_some] at hadopts
      cases hsuccess : body.isSuccessful with
      | true =>
        refine .inl (hdestroyed (.inl ?_))
        simpa [hsuccess] using hadopts
      | false =>
        refine .inr (.inr ⟨k, call, hp.calls ▸ hc, .inr ⟨hchecking, .inl ?_⟩⟩)
        rw [ResponseBody.isSuccessful, hstatusCode]
        exact hsuccess

theorem Inv.disconnect (h : s.Inv) (hnone : s.NoneAdopted) : s.disconnect.Inv := by
  refine h.passes hnone ⟨rfl, rfl, rfl, nofun, fun c hc => ?_,
    fun b body hb => ?_, fun b body' hb' => ?_⟩
  · replace hc : c ∈ s.aborted ++ s.abortController.toList := hc
    rw [List.mem_append, Option.mem_toList] at hc
    exact hc.elim (h.aborted c) fun hc => (h.controller c hc).1
  · refine ⟨if b ∈ s.responseBodies then { body with destroyed := true, piped := false } else body,
      ?_, ?_⟩
    · show (s.bodies.mapIdx _)[b]? = _
      rw [List.getElem?_mapIdx, hb]
      rfl
    · split <;> rfl
  · replace hb' : (s.bodies.mapIdx _)[b]? = some body' := hb'
    rw [List.getElem?_mapIdx] at hb'
    obtain ⟨body, hb, rfl⟩ := Option.map_eq_some_iff.mp hb'
    refine ⟨body, hb, ?_⟩
    by_cases hmem : b ∈ s.responseBodies
    · rw [if_pos hmem]
      exact ⟨rfl, rfl, fun _ => rfl⟩
    · rw [if_neg hmem]
      exact ⟨rfl, rfl, fun hdestroyed => hdestroyed.resolve_right hmem⟩

theorem Inv.connect (h : s.Inv) (hok : s.Careful .connect) : s.connect.Inv := by
  obtain ⟨hnone, hdestroyed⟩ := hok
  have hpassed : ({ s with
      connecting := true
      connected := false
      setupError := none
      abortController := some s.controllers
      controllers := s.controllers + 1
      connectionGeneration := s.connectionGeneration + 1 } : Verser2RunnerTransport).Inv := by
    refine h.passes hnone ⟨rfl, rfl, rfl, fun c hc => ?_, fun c hc => ?_, fun b body hb =>
      ⟨body, hb, rfl⟩, fun b body hb => ⟨body, hb, rfl, rfl, fun hdead => ?_⟩⟩
    · cases hc
      exact ⟨Nat.lt_succ_self _, fun hmem => Nat.lt_irrefl _ (h.aborted _ hmem)⟩
    · exact Nat.lt_succ_of_lt (h.aborted c hc)
    · exact hdead.elim id fun hmem => hdestroyed b hmem body hb
  exact hpassed.addCall (Nat.le_refl _) rfl

/-! ## Steps of a call -/

section

variable (h : s.Inv) (hc : s.calls[k]? = some call)
include h hc

theorem Inv.setIdle (hcall : call.stage.isIdle = true)
    (hidle : stage.isIdle = true) :
    (s.setStage k stage).Inv := by
  refine h.idle hc hidle (fun r controller hstage => ?_) fun b hstage => ?_
  · rw [hstage] at hcall
    cases hcall
  · rcases hstage with hstage | hstage <;> (rw [hstage] at hcall; cases hcall)

theorem Inv.addRequest {controller : Option ℕ}
    (hstage : call.stage = .requesting s.requests.length controller) (route : RunnerRoute) :
    ({ s with requests := s.requests ++ [⟨k, call.generation, route, true⟩] } :
      Verser2RunnerTransport).Inv :=
  { h with
    requests := fun r request hr => by
      rw [List.getElem?_append] at hr
      split_ifs at hr with hlt
      · exact h.requests r request hr
      · have hlast : r = s.requests.length := by
          have hbound := (List.getElem?_eq_some_iff.mp hr).1
          rw [List.length_singleton] at hbound
          omega
        rw [List.mem_singleton.mp (List.mem_of_getElem? hr)]
        exact ⟨call, hc, rfl, fun _ _ => ⟨controller, hlast ▸ hstage⟩⟩ }

theorem Inv.requestRoute (hcall : call.stage.isIdle = true) (route : RunnerRoute) :
    (s.requestRoute k call route).Inv := by
  have hmoved : (s.setStage k (.requesting s.requests.length s.abortController)).Inv := by
    refine h.modify hc ⟨rfl, fun c hcontroller _ => hcontroller,
      fun r request hr hk hpending hcurrent => ?_, fun b hstage => ?_, fun b body hb hstage => ?_⟩
    · obtain ⟨call', hc', -, hrequesting⟩ := h.requests r request hr
      rw [hk] at hc'
      cases hc.symm.trans hc'
      obtain ⟨controller, hstage⟩ := hrequesting hpending hcurrent
      rw [hstage] at hcall
      cases hcall
    · rcases hstage with hstage | hstage <;> cases hstage
    · rcases hstage with hstage | hstage <;> (rw [hstage] at hcall; cases hcall)
  let call' : TransportCall := { call with
    stage := .requesting s.requests.length s.abortController }
  have hcall' : (s.setStage k call'.stage).calls[k]? = some call' := by
    show (s.calls.modify k _)[k]? = _
    rw [List.getElem?_modify_eq, hc]
    rfl
  exact hmoved.addRequest hcall' rfl route

theorem Inv.openRoute (hcall : call.stage.isIdle = true)
    (route : RunnerRoute) (failure : Option TransportError) :
    (s.openRoute k call route failure).Inv := by
  unfold Verser2RunnerTransport.openRoute
  split
  · split
    · exact h.requestRoute hc hcall route
    · exact h.setIdle hc hcall rfl
  · split
    · exact h.setIdle hc hcall rfl
    · exact h.requestRoute hc hcall route

end

theorem Inv.proceeds (h : s.Inv) (k : ℕ) (failure : Option TransportError) :
    (s.proceeds k failure).Inv := by
  unfold Verser2RunnerTransport.proceeds
  split
  · exact h
  rename_i call hc
  split
  · rename_i route routes hstage hroutes
    have hcall : call.stage.isIdle = true := by rw [hstage]; rfl
    split
    · split
      · exact h.setIdle hc hcall rfl
      · exact h.openRoute hc hcall route none
    · exact h.setIdle hc hcall rfl
  · rename_i hstage
    have hcall : call.stage.isIdle = true := by rw [hstage]; rfl
    split
    · split
      · exact h.setIdle hc hcall rfl
      · exact h.openRoute hc hcall _ failure
      · split
        · -- the connection is there
          have hconnected : ({ s with connected := true, connecting := false } :
              Verser2RunnerTransport).Inv := { h with }
          refine hconnected.setIdle hc hcall ?_
          cases failure <;> rfl
        · exact h.setIdle hc hcall rfl
    · exact h.setIdle hc hcall rfl
  · exact h

/-! ## Steps of a response -/

theorem Inv.addDestroyed (h : s.Inv) {body : ResponseBody}
    (hgeneration : body.generation ≤ s.connectionGeneration) (hdestroyed : body.destroyed = true) :
    ({ s with bodies := s.bodies ++ [body] } : Verser2RunnerTransport).Inv :=
  { h with
    responses := fun k call b hc hstage => by
      obtain ⟨body', hb, hsame⟩ := h.responses k call b hc hstage
      exact ⟨body', OrderedMap.getElem?_append_of_some hb, hsame⟩
    bodies := fun b body' hb => by
      rw [List.getElem?_append] at hb
      split_ifs at hb
      · exact h.bodies b body' hb
      · rw [List.mem_singleton.mp (List.mem_of_getElem? hb)]
        exact ⟨hgeneration, .inl hdestroyed⟩ }

section

variable (h : s.Inv) (hc : s.calls[k]? = some call) {r : ℕ} {controller : Option ℕ}
  (hstage : call.stage = .requesting r controller)
  (hanswered : ∀ request ∈ s.requests[r]?, request.pending = false)
include h hc hstage hanswered

theorem Inv.receive {body : ResponseBody}
    (hgeneration : body.generation = call.generation) :
    ({ s with bodies := s.bodies ++ [body] }.setStage k (.received s.bodies.length)).Inv := by
  have hold : ∀ {b : ℕ} {body' : ResponseBody}, s.bodies[b]? = some body' →
      (s.bodies ++ [body])[b]? = some body' := OrderedMap.getElem?_append_of_some
  have hother : ∀ {k' : ℕ} {call' : TransportCall}, s.calls[k']? = some call' → k ≠ k' →
      (s.calls.modify k fun call => { call with stage := .received s.bodies.length })[k']? =
        some call' := by
    intro k' call' hc' hk
    rw [List.getElem?_modify_ne _ _ hk]
    exact hc'
  have hself : (s.calls.modify k fun call => { call with stage := .received s.bodies.length })[k]? =
      some { call with stage := .received s.bodies.length } := by
    rw [List.getElem?_modify_eq, hc]
    rfl
  refine ⟨h.controller, h.aborted, fun k' call' hc' => ?_, fun k' call' c hc' hcurrent hcontroller =>
    ?_, fun r' request hr => ?_, fun k' call' b hc' hstage' => ?_, fun b body' hb => ?_⟩
  · obtain ⟨rfl, call₀, hc₀, rfl⟩ | ⟨-, hc'⟩ := modify_cases hc'
    · exact h.generations k call₀ hc₀
    · exact h.generations k' call' hc'
  · obtain ⟨rfl, call₀, hc₀, rfl⟩ | ⟨-, hc'⟩ := modify_cases hc'
    · cases hcontroller
    · exact h.listens k' call' c hc' hcurrent hcontroller
  · obtain ⟨call', hc', hsame, hrequesting⟩ := h.requests r' request hr
    by_cases hk : k = request.call
    · subst hk
      cases hc.symm.trans hc'
      refine ⟨_, hself, hsame, fun hpending hcurrent => ?_⟩
      obtain ⟨controller', hstage'⟩ := hrequesting hpending hcurrent
      cases hstage.symm.trans hstage'
      rw [hanswered request hr] at hpending
      cases hpending
    · exact ⟨call', hother hc' hk, hsame, hrequesting⟩
  · obtain ⟨rfl, call₀, hc₀, rfl⟩ | ⟨-, hc'⟩ := modify_cases hc'
    · cases hc.symm.trans hc₀
      obtain hreceived | hchecking := hstage'
      · cases hreceived
        exact ⟨body, List.getElem?_concat_length, hgeneration⟩
      · cases hchecking
    · obtain ⟨body', hb, hsame⟩ := h.responses k' call' b hc' hstage'
      exact ⟨body', hold hb, hsame⟩
  · replace hb : (s.bodies ++ [body])[b]? = some body' := hb
    rw [List.getElem?_append] at hb
    split_ifs at hb with hlt
    · obtain ⟨hle, hkept⟩ := h.bodies b body' hb
      refine ⟨hle, hkept.imp id (Or.imp id ?_)⟩
      rintro ⟨k', call', hc', hheld⟩
      refine ⟨k', call', hother hc' ?_, hheld⟩
      rintro rfl
      cases hc.symm.trans hc'
      rw [hstage] at hheld
      rcases hheld with hheld | ⟨hheld, -⟩ <;> cases hheld
    · have hlast : b = s.bodies.length := by
        have hbound := (List.getElem?_eq_some_iff.mp hb).1
        rw [List.length_singleton] at hbound
        omega
      rw [List.mem_singleton.mp (List.mem_of_getElem? hb), hgeneration]
      exact ⟨h.generations k call hc, .inr (.inr ⟨k, _, hself, .inl (hlast ▸ rfl)⟩)⟩

theorem Inv.answered (hidle : stage.isIdle = true) : (s.setStage k stage).Inv := by
  refine h.idle hc hidle (fun r' controller' hstage' => ?_) fun b hstage' => ?_
  · cases hstage.symm.trans hstage'
    intro request hr hpending
    rw [hanswered request hr] at hpending
    cases hpending
  · rw [hstage] at hstage'
    rcases hstage' with hstage' | hstage' <;> cases hstage'

end

theorem not_pending_close (r : ℕ) : ∀ request ∈ (s.requests.modify r fun request : RouteRequest =>
    { request with pending := false })[r]?, request.pending = false := by
  intro request hr
  rw [List.getElem?_modify_eq] at hr
  obtain ⟨request', -, rfl⟩ := Option.map_eq_some_iff.mp hr
  rfl

theorem Inv.responds (h : s.Inv) (r : ℕ) (statusCode : Option ℕ) :
    (s.responds r statusCode).Inv := by
  unfold Verser2RunnerTransport.responds
  split
  · exact h
  rename_i request hr
  split
  rotate_left
  · exact h
  rename_i hpending
  obtain ⟨call, hc, hsame, hrequesting⟩ := h.requests r request hr
  have hle : request.generation ≤ s.connectionGeneration := hsame ▸ h.generations _ call hc
  have hclosed := h.close r
  dsimp only
  by_cases hcurrent : request.generation = s.connectionGeneration
  · obtain ⟨controller, hstage⟩ := hrequesting hpending hcurrent
    rw [hc, Option.map_some, hstage]
    dsimp only
    rw [if_pos rfl, if_pos hcurrent]
    exact hclosed.receive hc hstage (not_pending_close r) hsame.symm
  · have hdestroyed : (!decide (request.generation = s.connectionGeneration)) = true := by
      rw [decide_eq_false hcurrent]
      rfl
    have hadded := @Inv.addDestroyed _ hclosed
      ⟨request.generation, request.route, statusCode, _, false, false⟩ hle hdestroyed
    rw [hc, Option.map_some]
    cases hstage : call.stage with
    | requesting r' controller =>
      dsimp only
      by_cases hr' : r' = r
      · rw [if_pos hr', if_neg hcurrent]
        exact hadded.answered hc (hr' ▸ hstage) (not_pending_close r) rfl
      · rw [if_neg hr']
        exact hadded
    | waitingRoute | routed | received | checking | opened | throwing | settled => exact hadded

theorem Inv.requestFails (h : s.Inv) (r : ℕ) (error : TransportError) :
    (s.requestFails r error).Inv := by
  unfold Verser2RunnerTransport.requestFails
  split
  · exact h
  rename_i request hr
  split
  rotate_left
  · exact h
  obtain ⟨call, hc, -⟩ := h.requests r request hr
  have hclosed := h.close r
  rw [hc, Option.map_some]
  cases hstage : call.stage with
  | requesting r' controller =>
    dsimp only
    by_cases hr' : r' = r
    · rw [if_pos hr']
      exact hclosed.answered hc (hr' ▸ hstage) (not_pending_close r) rfl
    · rw [if_neg hr']
      exact hclosed
  | waitingRoute | routed | received | checking | opened | throwing | settled => exact hclosed

variable {b : ℕ}

theorem getElem?_destroy {body : ResponseBody} (hb : (s.destroy b).bodies[b]? = some body) :
    body.destroyed = true := by
  obtain ⟨-, body', -, rfl⟩ | ⟨hne, -⟩ := modify_cases hb
  · rfl
  · exact absurd rfl hne

section

variable (h : s.Inv)
include h

theorem Inv.drop (hc : s.calls[k]? = some call)
    (hstage : call.stage = .received b ∨ call.stage = .checking b) (hidle : stage.isIdle = true) :
    ((s.destroy b).setStage k stage).Inv := by
  refine (h.destroy b).idle hc hidle (fun r controller hrequesting => ?_) fun b' hstage' body hb => ?_
  · rw [hrequesting] at hstage
    rcases hstage with hstage | hstage <;> cases hstage
  · have hsame : b = b' := by
      rcases hstage with hstage | hstage <;> rw [hstage] at hstage' <;>
        rcases hstage' with hstage' | hstage' <;> cases hstage' <;> rfl
    subst hsame
    exact getElem?_destroy hb

theorem Inv.resumes (k : ℕ) : (s.resumes k).Inv := by
  unfold Verser2RunnerTransport.resumes
  split
  · exact h
  rename_i call hc
  split
  rotate_left
  · exact h
  rename_i b hstage
  split
  rotate_left
  · exact h.drop hc (.inl hstage) rfl
  rename_i hcurrent
  have hresponse := h.responses k call b hc (.inl hstage)
  refine h.modify hc ⟨rfl, nofun,
    fun r request hr hk hpending hlatest => ?_, fun b' hstage' => ?_, fun b' body hb hstage' => ?_⟩
  · obtain ⟨call', hc', -, hrequesting⟩ := h.requests r request hr
    rw [hk] at hc'
    cases hc.symm.trans hc'
    obtain ⟨controller, hstage'⟩ := hrequesting hpending hlatest
    cases hstage.symm.trans hstage'
  · obtain hstage' | hstage' := hstage'
    · cases hstage'
    · cases hstage'
      exact hresponse
  · rw [hstage] at hstage'
    obtain hstage' | hstage' := hstage'
    · cases hstage'
      obtain ⟨body', hb', hgeneration⟩ := hresponse
      cases hb.symm.trans hb'
      exact .inr (.inl ⟨hgeneration.trans hcurrent, .inr rfl⟩)
    · cases hstage'

theorem Inv.adopt (b : ℕ) (route : RunnerRoute) : (s.adopt b route).Inv := by
  have hmem : ({ s with responseBodies := s.responseBodies ++ [b] } : Verser2RunnerTransport).Inv :=
    { h with
      bodies := fun b' body hb => by
        obtain ⟨hle, hkept⟩ := h.bodies b' body hb
        exact ⟨hle, hkept.imp id (Or.imp (fun hold => ⟨hold.1, List.mem_append_left _ hold.2⟩) id)⟩ }
  refine hmem.updateBody b fun body => ?_
  split <;> exact ⟨rfl, rfl, id⟩

theorem Inv.checked (k : ℕ) : (s.checked k).Inv := by
  unfold Verser2RunnerTransport.checked
  split
  · exact h
  rename_i call hc
  split
  rotate_left
  · exact h
  rename_i b hstage
  split
  · exact h
  rename_i body hb
  split
  rotate_left
  · exact h.drop hc (.inr hstage) rfl
  rename_i hsuccess
  refine (h.adopt b body.route).modify hc ⟨rfl, nofun,
    fun r request hr hk hpending hlatest => ?_, fun b' hstage' => ?_, fun b' body' hb' hstage' => ?_⟩
  · obtain ⟨call', hc', -, hrequesting⟩ := h.requests r request hr
    rw [hk] at hc'
    cases hc.symm.trans hc'
    obtain ⟨controller, hstage'⟩ := hrequesting hpending hlatest
    cases hstage.symm.trans hstage'
  · rcases hstage' with hstage' | hstage' <;> cases hstage'
  · obtain hstage' | hstage' := hstage'
    · cases hstage.symm.trans hstage'
    cases hstage.symm.trans hstage'
    have hlisted : b ∈ (s.adopt b body.route).responseBodies :=
      List.mem_append_right _ (List.mem_singleton_self b)
    have hsame : body'.isSuccessful = true := by
      obtain ⟨-, body₀, hb₀, rfl⟩ | ⟨hne, -⟩ := modify_cases hb'
      · cases hb.symm.trans hb₀
        split <;> exact hsuccess
      · exact absurd rfl hne
    obtain hdestroyed | ⟨hcurrent, -⟩ | ⟨k', call', hc', hheld⟩ :=
      ((h.adopt b body.route).bodies b body' hb').2
    · exact .inl hdestroyed
    · exact .inr (.inl ⟨hcurrent, .inl hlisted⟩)
    by_cases hk : k' = k
    · subst hk
      cases hc.symm.trans hc'
      rw [hstage, hsame] at hheld
      obtain hheld | ⟨-, hheld | hcurrent⟩ := hheld
      · cases hheld
      · cases hheld
      · exact .inr (.inl ⟨hcurrent, .inl hlisted⟩)
    · exact .inr (.inr ⟨k', hk, call', hc', hheld⟩)

theorem Inv.closed (b : ℕ) :
    ({ s with responseBodies := s.responseBodies.filter (· ≠ b) }.updateBody b
      fun body => { body with destroyed := true, listens := false }).Inv := by
  have hupdate := h.updateBody b (f := fun body => { body with destroyed := true, listens := false })
    fun _ => ⟨rfl, rfl, fun _ => rfl⟩
  refine { hupdate with bodies := fun b' body' hb' => ?_ }
  obtain ⟨hle, hkept⟩ := hupdate.bodies b' body' hb'
  refine ⟨hle, ?_⟩
  by_cases hb : b = b'
  · subst hb
    obtain ⟨-, body, -, rfl⟩ | ⟨hne, -⟩ := modify_cases hb'
    · exact .inl rfl
    · exact absurd rfl hne
  · refine hkept.imp id (Or.imp (fun hold => ⟨hold.1, ?_⟩) id)
    exact List.mem_filter.mpr ⟨hold.2, decide_eq_true (Ne.symm hb)⟩

theorem Inv.bodyEvent (b : ℕ) (error : Option TransportError) : (s.bodyEvent b error).Inv := by
  unfold Verser2RunnerTransport.bodyEvent
  split
  · exact h
  rename_i body hb
  split
  rotate_left
  · exact h.destroy b
  have hclosed := h.closed b
  dsimp only
  split
  · split
    · exact { hclosed with }
    · exact hclosed
  · rename_i hconnected
    have hcurrent : body.generation = s.connectionGeneration := by
      by_contra hne
      exact hconnected (Bool.or_eq_true .. |>.mpr (.inr (decide_eq_true hne)))
    exact hclosed.addCall (Nat.le_of_eq hcurrent) rfl

theorem Inv.aborts (k : ℕ) : (s.next (.aborts k)).Inv := by
  simp only [next]
  cases hc : s.calls[k]? with
  | none => exact h
  | some call =>
    rw [Option.bind_some]
    cases hcontroller : call.stage.controller? with
    | none => exact h
    | some c =>
      dsimp only
      by_cases hmem : c ∈ s.aborted
      · rw [if_pos hmem]
        have hpassed : call.generation ≠ s.connectionGeneration := fun hcurrent =>
          (h.controller c (h.listens k call c hc hcurrent hcontroller)).2 hmem
        refine h.idle hc rfl (fun _ _ _ _ _ _ => hpassed) fun b hstage => ?_
        rcases hstage with hstage | hstage <;> (rw [hstage] at hcontroller; cases hcontroller)
      · rw [if_neg hmem]
        exact h

theorem Inv.caught (k : ℕ) (hok : s.Careful (.caught k)) : (s.next (.caught k)).Inv := by
  simp only [next]
  cases hc : s.calls[k]? with
  | none => exact h
  | some call =>
    dsimp only
    cases hstage : call.stage with
    | throwing error =>
      dsimp only
      have hcall : call.stage.isIdle = true := by rw [hstage]; rfl
      by_cases hconnect : call.isConnect = true
      · rw [if_pos hconnect]
        obtain ⟨hnone, -⟩ := hok call hc (by rw [hconnect, hstage]; rfl)
        have hfailed : ({ s with connecting := false } : Verser2RunnerTransport).Inv := { h with }
        exact (hfailed.disconnect hnone).setIdle hc hcall rfl
      · rw [if_neg hconnect]
        exact h.setIdle hc hcall rfl
    | waitingRoute | routed | requesting | received | checking | opened | settled => exact h

theorem Inv.next (a : Action) (hok : s.Careful a) : (s.next a).Inv := by
  cases a with
  | connect => exact h.connect hok
  | disconnect => exact h.disconnect hok
  | routeReady k | routeFails k error =>
    simp only [Verser2RunnerTransport.next]
    split
    · rename_i hwaiting
      obtain ⟨call, hc, hstage⟩ := Option.map_eq_some_iff.mp hwaiting
      refine h.idle hc rfl (fun r controller' hrequesting => ?_) fun b hstage' => ?_
      · cases hstage.symm.trans hrequesting
      · rw [hstage] at hstage'
        rcases hstage' with hstage' | hstage' <;> cases hstage'
    · exact h
  | aborts k => exact h.aborts k
  | proceeds k failure => exact h.proceeds k failure
  | responds r statusCode => exact h.responds r statusCode
  | requestFails r error => exact h.requestFails r error
  | resumes k => exact h.resumes k
  | checked k => exact h.checked k
  | bodyEvent b error => exact h.bodyEvent b error
  | caught k => exact h.caught k hok

end

/-! ## What is left alone -/

section Unharmed

theorem Unharmed.refl (s : Verser2RunnerTransport) : s.Unharmed s :=
  ⟨rfl, rfl, rfl, rfl, rfl, rfl, fun _ _ hc _ => hc, fun _ _ hb _ => ⟨hb, Iff.rfl⟩⟩

theorem Unharmed.trans {s'' : Verser2RunnerTransport} (h : s.Unharmed s') (h' : s'.Unharmed s'') :
    s.Unharmed s'' where
  connectionGeneration := h'.connectionGeneration.trans h.connectionGeneration
  connected := h'.connected.trans h.connected
  connecting := h'.connecting.trans h.connecting
  setupError := h'.setupError.trans h.setupError
  abortController := h'.abortController.trans h.abortController
  aborted := h'.aborted.trans h.aborted
  calls := fun k call hc hcurrent =>
    h'.calls k call (h.calls k call hc hcurrent) (hcurrent.trans h.connectionGeneration.symm)
  bodies := fun b body hb hcurrent => by
    obtain ⟨hb', hiff⟩ := h.bodies b body hb hcurrent
    obtain ⟨hb'', hiff'⟩ := h'.bodies b body hb' (hcurrent.trans h.connectionGeneration.symm)
    exact ⟨hb'', hiff'.trans hiff⟩

theorem Unharmed.modify (hc : s.calls[k]? = some call)
    (hpassed : call.generation ≠ s.connectionGeneration) (f : TransportCall → TransportCall) :
    s.Unharmed { s with calls := s.calls.modify k f } := by
  refine ⟨rfl, rfl, rfl, rfl, rfl, rfl, fun k' call' hc' hcurrent => ?_,
    fun _ _ hb _ => ⟨hb, Iff.rfl⟩⟩
  have hne : k ≠ k' := by
    rintro rfl
    cases hc.symm.trans hc'
    exact hpassed hcurrent
  show (s.calls.modify k f)[k']? = _
  rw [List.getElem?_modify_ne _ _ hne]
  exact hc'

theorem Unharmed.updateBody {body : ResponseBody} (hb : s.bodies[b]? = some body)
    (hpassed : body.generation ≠ s.connectionGeneration) (f : ResponseBody → ResponseBody) :
    s.Unharmed (s.updateBody b f) := by
  refine ⟨rfl, rfl, rfl, rfl, rfl, rfl, fun _ _ hc _ => hc, fun b' body' hb' hcurrent => ⟨?_, Iff.rfl⟩⟩
  have hne : b ≠ b' := by
    rintro rfl
    cases hb.symm.trans hb'
    exact hpassed hcurrent
  show (s.bodies.modify b f)[b']? = _
  rw [List.getElem?_modify_ne _ _ hne]
  exact hb'

theorem Unharmed.andModify (h : s.Unharmed s') (hc : s'.calls[k]? = some call)
    (hpassed : call.generation ≠ s.connectionGeneration) (f : TransportCall → TransportCall) :
    s.Unharmed { s' with calls := s'.calls.modify k f } :=
  h.trans (.modify hc (h.connectionGeneration ▸ hpassed) f)

theorem Unharmed.andUpdateBody (h : s.Unharmed s') {body : ResponseBody}
    (hb : s'.bodies[b]? = some body) (hpassed : body.generation ≠ s.connectionGeneration)
    (f : ResponseBody → ResponseBody) : s.Unharmed (s'.updateBody b f) :=
  h.trans (.updateBody hb (h.connectionGeneration ▸ hpassed) f)

theorem Unharmed.requests (requests : List RouteRequest) :
    s.Unharmed { s with requests := requests } :=
  ⟨rfl, rfl, rfl, rfl, rfl, rfl, fun _ _ hc _ => hc, fun _ _ hb _ => ⟨hb, Iff.rfl⟩⟩

theorem Unharmed.response (requests : List RouteRequest) (body : ResponseBody) :
    s.Unharmed { s with requests := requests, bodies := s.bodies ++ [body] } := by
  refine ⟨rfl, rfl, rfl, rfl, rfl, rfl, fun _ _ hc _ => hc, fun b body' hb _ =>
    ⟨OrderedMap.getElem?_append_of_some hb, Iff.rfl⟩⟩

theorem Unharmed.responseBodies {body : ResponseBody} (hb : s.bodies[b]? = some body)
    (hpassed : body.generation ≠ s.connectionGeneration) {responseBodies : List ℕ}
    (hlist : ∀ b' ≠ b, (b' ∈ responseBodies ↔ b' ∈ s.responseBodies)) :
    s.Unharmed { s with responseBodies := responseBodies } := by
  refine ⟨rfl, rfl, rfl, rfl, rfl, rfl, fun _ _ hc _ => hc, fun b' body' hb' hcurrent => ⟨hb', ?_⟩⟩
  refine hlist b' ?_
  rintro rfl
  cases hb.symm.trans hb'
  exact hpassed hcurrent

end Unharmed

section Passed

variable {k : ℕ} {call : TransportCall}

theorem unharmed_openRoute (hc : s.calls[k]? = some call)
    (hpassed : call.generation ≠ s.connectionGeneration) (route : RunnerRoute)
    (failure : Option TransportError) : s.Unharmed (s.openRoute k call route failure) := by
  unfold openRoute
  by_cases hroute : route.isRequestBody = true
  · rw [if_pos hroute, if_neg hpassed]
    exact .modify hc hpassed _
  · rw [if_neg hroute]
    cases failure with
    | some error => exact .modify hc hpassed _
    | none =>
      exact (Unharmed.requests (s.requests ++ [⟨k, call.generation, route, true⟩])).andModify hc
        hpassed _

theorem unharmed_proceeds (hc : s.calls[k]? = some call)
    (hpassed : call.generation ≠ s.connectionGeneration) (failure : Option TransportError) :
    s.Unharmed (s.proceeds k failure) := by
  have hset : ∀ stage, s.Unharmed (s.setStage k stage) := fun _ => .modify hc hpassed _
  unfold proceeds
  rw [hc]
  dsimp only
  split
  · rw [if_neg hpassed]
    exact hset _
  · by_cases hconnect : call.isConnect = true
    · rw [if_pos hconnect]
      split
      · exact hset _
      · exact unharmed_openRoute hc hpassed _ failure
      · first
        | exact hset _
        | rw [if_neg hpassed]
          exact hset _
    · rw [if_neg hconnect]
      exact hset _
  · exact .refl s

section

variable (h : s.Inv) {r : ℕ} {request : RouteRequest} (hr : s.requests[r]? = some request)
  (hpassed : request.generation ≠ s.connectionGeneration)
include h hr hpassed

theorem Inv.unharmed_responds (statusCode : Option ℕ) : s.Unharmed (s.responds r statusCode) := by
  obtain ⟨call, hc, hsame, -⟩ := h.requests r request hr
  unfold Verser2RunnerTransport.responds
  rw [hr]
  dsimp only
  split
  · rw [hc, Option.map_some]
    cases hstage : call.stage with
    | requesting r' controller =>
      dsimp only
      by_cases hr' : r' = r
      · rw [if_pos hr']
        exact (Unharmed.response (s.requests.modify r _) _).andModify hc (hsame ▸ hpassed) _
      · rw [if_neg hr']
        exact .response _ _
    | waitingRoute | routed | received | checking | opened | throwing | settled =>
      exact .response _ _
  · exact .refl s

theorem Inv.unharmed_requestFails
    (error : TransportError) : s.Unharmed (s.requestFails r error) := by
  obtain ⟨call, hc, hsame, -⟩ := h.requests r request hr
  unfold Verser2RunnerTransport.requestFails
  rw [hr]
  dsimp only
  split
  · rw [hc, Option.map_some]
    cases hstage : call.stage with
    | requesting r' controller =>
      dsimp only
      by_cases hr' : r' = r
      · rw [if_pos hr']
        exact (Unharmed.requests (s.requests.modify r _)).andModify hc (hsame ▸ hpassed) _
      · rw [if_neg hr']
        exact .requests _
    | waitingRoute | routed | received | checking | opened | throwing | settled => exact .requests _
  · exact .refl s

end

section

variable (h : s.Inv) (hc : s.calls[k]? = some call)
  (hpassed : call.generation ≠ s.connectionGeneration)
include h hc hpassed

theorem Inv.unharmed_drop
    (hstage : call.stage = .received b ∨ call.stage = .checking b) (stage : CallStage) :
    s.Unharmed ((s.destroy b).setStage k stage) := by
  obtain ⟨body, hb, hsame⟩ := h.responses k call b hc hstage
  have hdestroy : s.Unharmed (s.destroy b) := .updateBody hb (hsame ▸ hpassed) _
  exact hdestroy.andModify hc hpassed _

theorem Inv.unharmed_resumes : s.Unharmed (s.resumes k) := by
  unfold Verser2RunnerTransport.resumes
  rw [hc]
  dsimp only
  split
  · rename_i b hstage
    rw [if_neg hpassed]
    exact h.unharmed_drop hc hpassed (.inl hstage) _
  · exact .refl s

theorem Inv.unharmed_checked : s.Unharmed (s.checked k) := by
  unfold Verser2RunnerTransport.checked
  rw [hc]
  dsimp only
  split
  · rename_i b hstage
    obtain ⟨body, hb, hsame⟩ := h.responses k call b hc (.inr hstage)
    have hbody : body.generation ≠ s.connectionGeneration := hsame ▸ hpassed
    rw [hb]
    dsimp only
    split
    · have hlisted : s.Unharmed { s with responseBodies := s.responseBodies ++ [b] } :=
        .responseBodies hb hbody fun b' hne => by simp [hne]
      have hadopted : s.Unharmed (s.adopt b body.route) := hlisted.andUpdateBody hb hbody _
      exact hadopted.andModify hc hpassed _
    · exact h.unharmed_drop hc hpassed (.inr hstage) _
  · exact .refl s

end

theorem unharmed_bodyEvent {body : ResponseBody} (hb : s.bodies[b]? = some body)
    (hpassed : body.generation ≠ s.connectionGeneration) (error : Option TransportError)
    (hok : s.Careful (.bodyEvent b error)) : s.Unharmed (s.bodyEvent b error) := by
  unfold bodyEvent
  rw [hb]
  dsimp only
  split
  · rename_i hlistens
    have hsetup := hok body hb hlistens hpassed
    have hlisted : s.Unharmed { s with responseBodies := s.responseBodies.filter (· ≠ b) } :=
      .responseBodies hb hpassed fun b' hne => by simp [hne]
    show s.Unharmed (if (!s.connected || body.generation ≠ s.connectionGeneration) = true then
      (if (s.connecting && s.setupError.isNone) = true then _ else _) else _)
    rw [if_pos (Bool.or_eq_true .. |>.mpr (.inr (decide_eq_true hpassed))), hsetup,
      if_neg Bool.false_ne_true]
    exact hlisted.andUpdateBody hb hpassed _
  · exact .updateBody hb hpassed _

end Passed

theorem Inv.unharmed (h : s.Inv) {a : Action} (hok : s.Careful a) (hlive : s.Live) {g : ℕ}
    (hg : s.generationOf a = some g) (hpassed : g ≠ s.connectionGeneration) :
    s.Unharmed (s.next a) := by
  cases a with
  | connect | disconnect => cases hg
  | routeReady k | routeFails k error =>
    obtain ⟨call, hc, rfl⟩ := Option.map_eq_some_iff.mp hg
    simp only [Verser2RunnerTransport.next]
    split
    · exact .modify hc hpassed _
    · exact .refl s
  | aborts k =>
    obtain ⟨call, hc, rfl⟩ := Option.map_eq_some_iff.mp hg
    simp only [Verser2RunnerTransport.next]
    split
    · split
      · exact .modify hc hpassed _
      · exact .refl s
    · exact .refl s
  | proceeds k failure =>
    obtain ⟨call, hc, rfl⟩ := Option.map_eq_some_iff.mp hg
    exact unharmed_proceeds hc hpassed failure
  | responds r statusCode =>
    obtain ⟨request, hr, rfl⟩ := Option.map_eq_some_iff.mp hg
    exact h.unharmed_responds hr hpassed statusCode
  | requestFails r error =>
    obtain ⟨request, hr, rfl⟩ := Option.map_eq_some_iff.mp hg
    exact h.unharmed_requestFails hr hpassed error
  | resumes k =>
    obtain ⟨call, hc, rfl⟩ := Option.map_eq_some_iff.mp hg
    exact h.unharmed_resumes hc hpassed
  | checked k =>
    obtain ⟨call, hc, rfl⟩ := Option.map_eq_some_iff.mp hg
    exact h.unharmed_checked hc hpassed
  | bodyEvent b error =>
    obtain ⟨body, hb, rfl⟩ := Option.map_eq_some_iff.mp hg
    exact unharmed_bodyEvent hb hpassed error hok
  | caught k =>
    obtain ⟨call, hc, rfl⟩ := Option.map_eq_some_iff.mp hg
    simp only [Verser2RunnerTransport.next, hc]
    cases hstage : call.stage with
    | throwing error =>
      dsimp only
      by_cases hconnect : call.isConnect = true
      · have hdead := (hok call hc (by rw [hconnect, hstage]; rfl)).2 hpassed
        exact absurd hlive hdead
      · rw [if_neg hconnect]
        exact .modify hc hpassed _
    | waitingRoute | routed | requesting | received | checking | opened | settled => exact .refl s

/-! ## Runs -/

theorem Inv.destroyed (h : s.Inv) {body : ResponseBody} (hb : s.bodies[b]? = some body)
    (hpassed : body.generation ≠ s.connectionGeneration) :
    body.destroyed = true ∨ ∃ k, s.Destroys k b := by
  obtain hdestroyed | ⟨hcurrent, -⟩ | ⟨k, call, hc, hstage⟩ := (h.bodies b body hb).2
  · exact .inl hdestroyed
  · exact absurd hcurrent hpassed
  obtain ⟨body', hb', hsame⟩ := h.responses k call b hc (hstage.imp id And.left)
  cases hb.symm.trans hb'
  refine .inr ⟨k, call, body, hc, hb, hsame ▸ hpassed, hstage.imp id fun hchecking => ?_⟩
  exact ⟨hchecking.1, hchecking.2.resolve_right hpassed⟩

/-- In a run of careful steps, the bodies of the generations that have passed are destroyed, and
what belongs to them leaves the connection alone that there is. -/
theorem isolated_of_careful (h : system.Reachable Careful s) :
    (∀ (b : ℕ) (body : ResponseBody), s.bodies[b]? = some body →
      body.generation ≠ s.connectionGeneration → body.destroyed = true ∨ ∃ k, s.Destroys k b) ∧
    ∀ a g, s.Careful a → s.Live → s.generationOf a = some g → g ≠ s.connectionGeneration →
      s.Unharmed (s.next a) := by
  have hinv : s.Inv := h.invariant_ofFun inv_new fun _ a hs hok => hs.next a hok
  exact ⟨fun b body hb hpassed => hinv.destroyed hb hpassed,
    fun a g hok hlive hg hpassed => hinv.unharmed hok hlive hg hpassed⟩

/-- A first route is opened, and the transport connects again. -/
def reconnected : List Action :=
  [.connect, .routeReady 0, .proceeds 0 none, .responds 0 (some 200), .resumes 0, .checked 0,
    .disconnect, .connect]

theorem isolated_reconnected :
    (∀ (b : ℕ) (body : ResponseBody), (reconnected.foldl next new).bodies[b]? = some body →
      body.generation ≠ (reconnected.foldl next new).connectionGeneration →
        body.destroyed = true ∨ ∃ k, (reconnected.foldl next new).Destroys k b) ∧
    (reconnected.foldl next new).Unharmed ((reconnected.foldl next new).next (.proceeds 0 none)) := by
  have htest : ∀ (s : Verser2RunnerTransport) a, decide (s.Careful a) = true → s.Careful a :=
    fun _ _ => of_decide_eq_true
  have hreached : system.Reachable Careful (reconnected.foldl next new) :=
    System.Reachable.of_checks htest (.init rfl) (by decide +kernel)
  obtain ⟨hdestroyed, hunharmed⟩ := isolated_of_careful hreached
  exact ⟨hdestroyed, hunharmed (.proceeds 0 none) 1 trivial (by decide +kernel) (by decide +kernel)
    (by decide +kernel)⟩

/-! ## What goes wrong -/

/-- The transport connects again before the first call of `connect` has failed. -/
def overtaken : List Action := [.connect, .disconnect, .aborts 0, .connect]

/-- When it fails, it disconnects the new connection. -/
theorem overtaken_disconnects : ¬ ∀ s, system.Reachable System.anyStep s →
    (∀ (b : ℕ) (body : ResponseBody), s.bodies[b]? = some body →
      body.generation ≠ s.connectionGeneration → body.destroyed = true ∨ ∃ k, s.Destroys k b) ∧
    ∀ a g, s.Live → s.generationOf a = some g → g ≠ s.connectionGeneration →
      s.Unharmed (s.next a) := by
  intro hall
  have hharm := (hall _ (System.reachable_foldl overtaken)).2 (.caught 0) 1 (by decide +kernel)
    (by decide +kernel) (by decide +kernel)
  have hconnecting := hharm.connecting
  have hbefore : (overtaken.foldl next new).connecting = true := by decide +kernel
  have hafter : ((overtaken.foldl next new).next (.caught 0)).connecting = false := by decide +kernel
  rw [hbefore, hafter] at hconnecting
  cases hconnecting

end Verser2RunnerTransport

end TransformHub.Host
