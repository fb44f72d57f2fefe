import TransformHub.Js.Text

/-!
# Route domains of the hubs

How the Manager chooses the route domain of a registering hub (`handleSthRegistration` in
`manager.ts`) and the trust decision it makes on the domain the hub offers
(`route-forwarding-policy.ts`).
-/

namespace TransformHub.Manager

open Js

/-! ## The source functions -/

/-- `getSthRouteDomain`: the canonical route domain of a hub. -/
def getSthRouteDomain (id : String) : String := "sth." ++ id ++ ".scramjet.internal"

def isTrustedSthRouteDomain (id routeDomain : String) : Bool :=
  let exactDomain := "sth." ++ id ++ ".scramjet.internal"
  let scopedPrefix := "sth." ++ id ++ "-"
  routeDomain == exactDomain ||
    (startsWith routeDomain scopedPrefix && endsWith routeDomain ".scramjet.internal")

/-- The id and route domain of a registration payload; a member that is not a string is `none`. -/
structure SthRegistrationPayload where
  id : Option String
  routeDomain : Option String

/-- The id a hub is registered under: its own when it is not blank, else a generated one. -/
def registrationId (generated : String) (payload : SthRegistrationPayload) : String :=
  match payload.id with
  | some id => if (trim id).toList = [] then generated else id
  | none => generated

/-- The trimmed domain offered in the payload, unless it is blank. -/
def offeredRouteDomain (payload : SthRegistrationPayload) : Option String :=
  match payload.routeDomain with
  | some d => if (trim d).toList = [] then none else some (trim d)
  | none => none

/-- The route domain a hub is registered on: the offered one when it is trusted for the hub's id,
else the canonical one. -/
def registrationRouteDomain (generated : String) (payload : SthRegistrationPayload) : String :=
  let id := registrationId generated payload
  match offeredRouteDomain payload with
  | some d => if isTrustedSthRouteDomain id d then d else getSthRouteDomain id
  | none => getSthRouteDomain id

inductive RouteForwardingOrigin where
  | externalApi
  | localApi
  | managerDownward
  | runtimeSequence
deriving DecidableEq

inductive RouteDirection where
  | upward
  | downward
  | local
  | unknown

inductive RouteForwardingPolicyDecision where
  | returnRedirect (direction : RouteDirection)
  | tunnel (direction : RouteDirection)

/-- `decideRouteForwardingPolicy`; the target path of its input is never read. -/
def decideRouteForwardingPolicy (routeDomain : String) (origin : RouteForwardingOrigin) :
    RouteForwardingPolicyDecision :=
  if startsWith routeDomain "runner." then .tunnel .local
  else if startsWith routeDomain "sth." then
    if origin = .externalApi then .returnRedirect .downward else .tunnel .downward
  else if startsWith routeDomain "manager." then
    if origin = .runtimeSequence then .tunnel .upward else .returnRedirect .upward
  else .returnRedirect .unknown

/-! ## What the decision accepts -/

theorem isTrustedSthRouteDomain_iff {id d : String} :
    isTrustedSthRouteDomain id d = true ↔
      d = getSthRouteDomain id ∨
        (startsWith d ("sth." ++ id ++ "-") = true ∧ endsWith d ".scramjet.internal" = true) := by
  simp [isTrustedSthRouteDomain, getSthRouteDomain]

theorem isTrusted_canonical_iff (i j : String) :
    isTrustedSthRouteDomain i (getSthRouteDomain j) = true ↔
      i = j ∨ startsWith j (i ++ "-") = true := by
  have heq : getSthRouteDomain j = getSthRouteDomain i ↔ i = j := by
    simp [getSthRouteDomain, ← String.toList_inj, eq_comm]
  have hend : endsWith (getSthRouteDomain j) ".scramjet.internal" = true := endsWith_append _ _
  have hstart : startsWith (getSthRouteDomain j) ("sth." ++ i ++ "-") = true ↔
      startsWith j (i ++ "-") = true := by
    have hdash : '-' ∉ ".scramjet.internal".toList := by decide
    rw [startsWith_iff, startsWith_iff, getSthRouteDomain]
    simp only [String.toList_append, List.append_assoc, List.prefix_append_right_inj]
    exact prefix_append_iff_of_notMem hdash
  rw [isTrustedSthRouteDomain_iff, heq, hstart]
  simp [hend]

/-! ## Isolation of the hubs -/

/-- `d` is the domain `top` or lies under it. -/
def InDomain (d top : String) : Prop := d = top ∨ endsWith d ("." ++ top) = true

instance (d top : String) : Decidable (InDomain d top) :=
  inferInstanceAs (Decidable (d = top ∨ _))

/-- What route isolation asks of two hubs: no domain in the canonical domain of `j` is trusted
for `i`. -/
def RouteIsolated (i j : String) : Prop :=
  ∀ d, InDomain d (getSthRouteDomain j) → isTrustedSthRouteDomain i d = false

/-- A domain under the canonical domain of `j` that begins like a scoped domain of `i`. -/
def borrowedDomain (i j : String) : String :=
  "sth." ++ i ++ "-." ++ getSthRouteDomain j

theorem inDomain_borrowedDomain (i j : String) :
    InDomain (borrowedDomain i j) (getSthRouteDomain j) := by
  refine .inr (endsWith_iff.mpr ⟨("sth." ++ i ++ "-").toList, ?_⟩)
  simp [borrowedDomain]

theorem isTrusted_borrowedDomain (i j : String) :
    isTrustedSthRouteDomain i (borrowedDomain i j) = true := by
  rw [isTrustedSthRouteDomain_iff, startsWith_iff, endsWith_iff]
  refine .inr ⟨⟨("." ++ getSthRouteDomain j).toList, by simp [borrowedDomain]⟩,
    ⟨("sth." ++ i ++ "-.sth." ++ j).toList, by simp [borrowedDomain, getSthRouteDomain]⟩⟩

theorem registrationRouteDomain_borrowedDomain (generated i j : String)
    (hi : (trim i).toList ≠ []) :
    registrationRouteDomain generated ⟨some i, some (borrowedDomain i j)⟩ =
      borrowedDomain i j := by
  have htrim : trim (borrowedDomain i j) = borrowedDomain i j :=
    trim_of_ends 's' 'l' ("th." ++ i ++ "-.sth." ++ j ++ ".scramjet.interna").toList
      (by simp [borrowedDomain, getSthRouteDomain]) (by decide) (by decide)
  have hne : (borrowedDomain i j).toList ≠ [] := by simp [borrowedDomain]
  simp [registrationRouteDomain, registrationId, offeredRouteDomain, hi, htrim, hne,
    isTrusted_borrowedDomain]

/-- No hub is isolated from another: below the canonical domain of every hub `j` lies a domain on
which `i` is registered when it offers it; of the canonical domains, exactly those of ids that begin
with `i-` are taken over. -/
theorem routeIsolated_never (generated i j : String) :
    ¬ RouteIsolated i j ∧
      ((trim i).toList ≠ [] → ∃ payload : SthRegistrationPayload,
        registrationId generated payload = i ∧
          InDomain (registrationRouteDomain generated payload) (getSthRouteDomain j)) ∧
      (isTrustedSthRouteDomain i (getSthRouteDomain j) = true ↔
        i = j ∨ startsWith j (i ++ "-") = true) := by
  refine ⟨fun h => ?_, fun hi => ?_, isTrusted_canonical_iff i j⟩
  · have := h _ (inDomain_borrowedDomain i j)
    rw [isTrusted_borrowedDomain] at this
    cases this
  · refine ⟨⟨some i, some (borrowedDomain i j)⟩, by simp [registrationId, hi], ?_⟩
    rw [registrationRouteDomain_borrowedDomain generated i j hi]
    exact inDomain_borrowedDomain i j

/-- Hub `hub` is registered on the canonical domain of `hub-1` when it offers it. -/
theorem registered_on_other_hubs_domain :
    registrationRouteDomain "generated" ⟨some "hub", some "sth.hub-1.scramjet.internal"⟩ =
        getSthRouteDomain "hub-1" ∧
      ¬ RouteIsolated "hub" "hub-1" := by
  refine ⟨by decide, fun h => ?_⟩
  have := h (getSthRouteDomain "hub-1") (.inl rfl)
  revert this
  decide

end TransformHub.Manager
