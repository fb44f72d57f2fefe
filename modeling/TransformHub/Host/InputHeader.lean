import TransformHub.Host.CsiController

/-!
# The header of the input of an instance

What `getInput` of a connected controller writes and accepts, for the input handlers of both API
versions, the topic that `PANG` routes to the input, and the `PING`s.
-/

namespace TransformHub.Host.CsiController.InputHeader

/-! ## The controller -/

/-- What is written to the `IN` channel. -/
inductive Written where
  | header (contentType : String)
  | data (bytes : List UInt8)

structure HostError where
  code : String
  message : String

structure State where
  inputHeadersSent : Bool := false
  inputContentType : Option String := none
  apiInputEnabled : Bool := true
  inputTopic : Option String := none
  requires : Option String := none
  written : List Written := []
  /-- the sources that got the stream, with the content types they came with -/
  accepted : List (Option String) := []

def getInput (s : State) (contentType : Option String) : Except HostError State :=
  if s.inputHeadersSent = false then
    match contentType with
    | none => .error ⟨"INVALID_CONTENT_TYPE", "Content-Type must be defined"⟩
    | some type =>
      .ok { s with
        inputHeadersSent := true
        inputContentType := some type
        written := s.written ++ [.header type]
        accepted := s.accepted ++ [some type] }
  else if (truthy contentType).isSome ∧ s.inputContentType ≠ contentType then
    .error ⟨"INVALID_CONTENT_TYPE", "Content-Type must be the same as the first one"⟩
  else .ok { s with accepted := s.accepted ++ [contentType] }

inductive ApiVersion where
  | v1
  | v2

inductive Answer where
  | stream
  | failed (status : String) (error : String)
  | exception (error : HostError)

def handleInput (s : State) (version : ApiVersion) (contentType : Option String) :
    Answer × State :=
  if s.apiInputEnabled then
    match getInput s contentType with
    | .ok s' => (.stream, s')
    | .error error => (.exception error, s)
  else
    (match version with
      | .v1 => .failed "Method Not Allowed" "Input provided in other way"
      | .v2 => .failed "INPUT_DISABLED" "Input provided in other way", s)

inductive Action where
  | request (version : ApiVersion) (contentType : Option String)
  /-- the `inputTopic` of the payload, where there is one -/
  | ping (inputHeadersSent : Option Bool) (payload : Option (Option String))
  /-- `validTopic` where `new TopicId` does not throw -/
  | pang (requires contentType : Option String) (validTopic : Bool)
  /-- an accepted source writes -/
  | data (source : ℕ) (bytes : List UInt8)

/-- `||=`, twice. -/
def requiresOr (s : State) (topic : Option String) : Option String :=
  (truthy s.requires).or ((truthy s.inputTopic).or topic)

def next (s : State) : Action → State
  | .request version contentType => (handleInput s version contentType).2
  | .ping inputHeadersSent payload =>
    let s := { s with inputHeadersSent := inputHeadersSent.getD false }
    match payload with
    | none => s
    | some topic => { s with requires := requiresOr s topic }
  | .pang requires contentType validTopic =>
    let s := { s with requires := requiresOr s requires }
    let s := { s with apiInputEnabled := s.apiInputEnabled && (truthy s.requires).isNone }
    -- the listener of the dispatcher
    if (truthy s.requires).isSome ∧ (truthy contentType).isSome ∧ validTopic = true then
      match getInput s contentType with
      | .ok s' => s'
      | .error _ => s
    else s
  | .data source bytes =>
    if source < s.accepted.length then { s with written := s.written ++ [.data bytes] } else s

/-! ## The property -/

/-- At most one header, before all data, and every source came with its content type. -/
structure State.Uniform (s : State) : Prop where
  header : s.written = [] ∨ ∃ (type : String) (data : List (List UInt8)),
    s.written = .header type :: data.map .data
  sources : ∃ type, (∀ source ∈ s.accepted, source = some type) ∧
    ∀ other, .header other ∈ s.written → other = type

/-- A request without the content type of the sources so far is refused and changes nothing. -/
def Refuses (s : State) : Action → Prop
  | .request version contentType =>
    contentType = none ∨ (∃ source ∈ s.accepted, contentType ≠ source) →
      (∃ status error, (handleInput s version contentType).1 = .failed status error) ∧
        (handleInput s version contentType).2 = s
  | _ => True

/-- A request comes with a content type, after the header with that of the header, or the API input
is disabled; and no `PING` takes the header back. -/
def Careful (s : State) : Action → Prop
  | .request _ contentType => s.apiInputEnabled = true → ∃ type, contentType = some type ∧
      (s.inputHeadersSent = true → s.inputContentType = some type)
  | .ping inputHeadersSent _ => s.inputContentType ≠ none → inputHeadersSent = some true
  | _ => True

structure State.Inv (s : State) : Prop where
  closed : s.inputContentType = none → s.written = [] ∧ s.accepted = []
  opened : ∀ type, s.inputContentType = some type → s.inputHeadersSent = true ∧
    (∃ data : List (List UInt8), s.written = .header type :: data.map .data) ∧
      ∀ source ∈ s.accepted, source = some type

variable {s : State}

theorem State.Inv.uniform (h : s.Inv) : s.Uniform := by
  cases htype : s.inputContentType with
  | none =>
    obtain ⟨hwritten, haccepted⟩ := h.closed htype
    refine ⟨.inl hwritten, "", fun source hs => ?_, fun other ho => ?_⟩
    · rw [haccepted] at hs
      cases hs
    · rw [hwritten] at ho
      cases ho
  | some type =>
    obtain ⟨-, ⟨data, hwritten⟩, haccepted⟩ := h.opened type htype
    refine ⟨.inr ⟨type, data, hwritten⟩, type, haccepted, fun other ho => ?_⟩
    rw [hwritten, List.mem_cons] at ho
    rcases ho with ho | ho
    · cases ho
      rfl
    · obtain ⟨bytes, -, hbytes⟩ := List.mem_map.mp ho
      cases hbytes

/-- An input that is accepted with a content type has that of the header. -/
theorem State.Inv.getInput (h : s.Inv) {s' : State} {type : String} (hsame : type ≠ "" ∨
    (s.inputHeadersSent = true → s.inputContentType = some type))
    (hinput : getInput s (some type) = .ok s') : s'.Inv := by
  unfold InputHeader.getInput at hinput
  by_cases hsent : s.inputHeadersSent = false
  · rw [if_pos hsent] at hinput
    cases hinput
    have hnone : s.inputContentType = none := by
      cases hcurrent : s.inputContentType with
      | none => rfl
      | some current =>
        rw [(h.opened current hcurrent).1] at hsent
        cases hsent
    obtain ⟨hwritten, haccepted⟩ := h.closed hnone
    refine ⟨nofun, fun type' heq => ?_⟩
    cases heq
    exact ⟨rfl, ⟨[], by simp [hwritten]⟩, by simp [haccepted]⟩
  · rw [if_neg hsent] at hinput
    split at hinput
    case isTrue => cases hinput
    case isFalse hmatches =>
      cases hinput
      have htype : s.inputContentType = some type := by
        rcases hsame with hne | hsame
        · refine Decidable.byContradiction fun hdiffers => hmatches ⟨?_, hdiffers⟩
          unfold truthy
          split
          · next heq =>
              cases heq
              exact absurd rfl hne
          · rfl
        · exact hsame (by simpa using hsent)
      obtain ⟨hheaders, hwritten, haccepted⟩ := h.opened type htype
      refine ⟨fun hfalse => ?_, fun type' heq => ?_⟩
      · cases htype.symm.trans hfalse
      · cases htype.symm.trans heq
        refine ⟨hheaders, hwritten, fun source hs => ?_⟩
        rcases List.mem_append.mp hs with hs | hs
        · exact haccepted source hs
        · exact List.mem_singleton.mp hs

theorem State.Inv.next (h : s.Inv) {a : Action} (hcareful : Careful s a) : (next s a).Inv := by
  cases a with
  | request version contentType =>
    show (handleInput s version contentType).2.Inv
    unfold handleInput
    split
    · next henabled =>
        obtain ⟨type, rfl, hsame⟩ := hcareful henabled
        cases hinput : InputHeader.getInput s (some type) with
        | ok s' => exact h.getInput (.inr hsame) hinput
        | error error => exact h
    · exact h
  | ping inputHeadersSent payload =>
    have hping : ({ s with inputHeadersSent := inputHeadersSent.getD false } : State).Inv := by
      refine ⟨h.closed, fun type htype => ⟨?_, (h.opened type htype).2⟩⟩
      rw [hcareful (by rw [htype]; exact Option.some_ne_none _)]
      rfl
    cases payload with
    | none => exact hping
    | some topic => exact ⟨hping.closed, hping.opened⟩
  | pang requires contentType validTopic =>
    unfold InputHeader.next
    dsimp only
    have hrequires (requires : Option String) (apiInputEnabled : Bool) :
        ({ s with requires := requires, apiInputEnabled := apiInputEnabled } : State).Inv :=
      ⟨h.closed, h.opened⟩
    split
    · next hroutes =>
        cases contentType with
        | none => cases hroutes.2.1
        | some type =>
          split
          · next hinput =>
              refine (hrequires _ _).getInput (.inl ?_) hinput
              rintro rfl
              cases hroutes.2.1
          · exact hrequires _ _
    · exact hrequires _ _
  | data source bytes =>
    unfold InputHeader.next
    dsimp only
    split
    · next hsource =>
        refine ⟨fun hnone => ?_, fun type htype => ?_⟩
        · rw [(h.closed hnone).2] at hsource
          cases hsource
        · obtain ⟨hheaders, ⟨data, hwritten⟩, haccepted⟩ := h.opened type htype
          exact ⟨hheaders, ⟨data ++ [bytes], by simp [hwritten]⟩, haccepted⟩
    · exact h

theorem State.Inv.refuses (h : s.Inv) {a : Action} (hcareful : Careful s a) : Refuses s a := by
  cases a with
  | request version contentType =>
    intro hdiffers
    cases henabled : s.apiInputEnabled with
    | false =>
      unfold handleInput
      rw [henabled]
      cases version <;> exact ⟨⟨_, _, rfl⟩, rfl⟩
    | true =>
      obtain ⟨type, rfl, hsame⟩ := hcareful henabled
      rcases hdiffers with hnone | ⟨source, hsource, hne⟩
      · cases hnone
      · cases htype : s.inputContentType with
        | none =>
          rw [(h.closed htype).2] at hsource
          cases hsource
        | some current =>
          obtain ⟨hheaders, -, haccepted⟩ := h.opened current htype
          exact absurd ((hsame hheaders).symm.trans (htype.trans (haccepted source hsource).symm)) hne
  | ping _ _ | pang _ _ _ | data _ _ => trivial

/-- In every run whose steps are careful. -/
theorem inputHeader_of_careful (inputTopic : Option String) (as : List Action)
    (h : System.Meets next Careful { inputTopic := inputTopic } as) :
    System.Always next State.Uniform { inputTopic := inputTopic } as ∧
      System.Meets next Refuses { inputTopic := inputTopic } as := by
  have hinv : ({ inputTopic := inputTopic } : State).Inv :=
    ⟨fun _ => ⟨rfl, rfl⟩, nofun⟩
  refine ⟨System.always_of_meets (I := State.Inv) (fun s a h _ hcareful => ?_) hinv hinv.uniform as h,
    System.meets_of_invariant (I := State.Inv) (fun s a h => h.next) (fun s a h => h.refuses) hinv
      as h⟩
  exact ⟨h.next hcareful, (h.next hcareful).uniform⟩

/-- Two sources with one content type, and a `PING` that knows of the header. -/
def pingedRun : List Action :=
  [.request .v1 (some "text/plain"), .ping (some true) none, .data 0 [104],
    .request .v2 (some "text/plain"), .data 1 [105]]

theorem inputHeader_of_careful_pinged :
    System.Always next State.Uniform {} pingedRun ∧ System.Meets next Refuses {} pingedRun := by
  apply inputHeader_of_careful none
  refine ⟨fun _ => ⟨_, rfl, nofun⟩, fun _ => rfl, trivial,
    fun _ => ⟨_, rfl, fun _ => rfl⟩, trivial, trivial⟩

/-- A request without a content type is answered with an exception. -/
theorem missingType_not_refused : ¬ System.Meets next Refuses {} [.request .v1 none] := by
  rintro ⟨hrefuses, -⟩
  obtain ⟨⟨status, error, hfailed⟩, -⟩ := hrefuses (.inl rfl)
  cases hfailed

end TransformHub.Host.CsiController.InputHeader
