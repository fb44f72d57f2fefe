import TransformHub.Runner.ManifestDeclarationSession

/-!
# What a declaration session promises

Every declaration settles once.
-/

namespace TransformHub.Runner.ManifestSession

open OrderedMap

open Js (Json JsNumber JsValue StringDecoder)
open RestApi2 (snapshotManifestDeclaration isManifestDeclareResult)

/-! ## Lines -/

theorem indexOfNewline_eq_none {text : List Char} (h : indexOfNewline text = none) :
    '\n' ∉ text := by
  intro hmem
  have hall := List.findIdx?_eq_none_iff.mp h '\n' hmem
  simp at hall

theorem indexOfNewline_eq_some {text : List Char} {n : ℕ} (h : indexOfNewline text = some n) :
    text = text.take n ++ '\n' :: text.drop (n + 1) ∧ '\n' ∉ text.take n := by
  obtain ⟨hn, hat, hbefore⟩ := List.findIdx?_eq_some_iff_getElem.mp h
  constructor
  · conv_lhs => rw [← List.take_append_drop n text, List.drop_eq_getElem_cons hn]
    rw [show text[n] = '\n' by simpa using hat]
  · intro hmem
    obtain ⟨i, hi, heq⟩ := List.getElem_of_mem hmem
    have hi' : i < n := by
      rw [List.length_take] at hi
      omega
    have hnot := hbefore i hi'
    rw [List.getElem_take] at heq
    simp [heq] at hnot

/-- The frames of the complete lines of a text that are kept for the dispatcher. -/
def ordinaryFrames (parse : List Char → Option Json) (text : List Char) : List ControlFrame :=
  ((Lines.lines '\n' text).1.filterMap (lineFrame? parse)).filter (·.isOrdinary)

variable {parse : List Char → Option Json}

theorem ordinaryFrames_of_notMem {text : List Char} (h : '\n' ∉ text) :
    ordinaryFrames parse text = [] := by
  rw [ordinaryFrames, Lines.lines_of_notMem h]
  rfl

theorem ordinaryFrames_line {line rest : List Char} (h : '\n' ∉ line) :
    ordinaryFrames parse (line ++ '\n' :: rest) =
      (lineFrame? parse line).toList.filter (·.isOrdinary) ++ ordinaryFrames parse rest := by
  rw [ordinaryFrames, Lines.lines_line h]
  cases hframe : lineFrame? parse line with
  | none =>
    rw [List.filterMap_cons_none hframe]
    rfl
  | some frame =>
    rw [List.filterMap_cons_some hframe, ← List.singleton_append, List.filter_append]
    rfl

theorem ordinaryFrames_append (a b : List Char) :
    ordinaryFrames parse (a ++ b) =
      ordinaryFrames parse a ++ ordinaryFrames parse ((Lines.lines '\n' a).2 ++ b) := by
  rw [ordinaryFrames, Lines.lines_append, List.filterMap_append, List.filter_append]
  rfl

namespace ManifestDeclarationSession

/-! ## The promises -/

/-- A call of `declare` is pending or has settled, once; it is resolved by a result for its own
request. -/
structure Settles (s : ManifestDeclarationSession) : Prop where
  once : ∀ c ∈ s.declares, c.settlements.length ≤ 1
  pending : ∀ c ∈ s.declares, c.settlements = [] →
    s.closed = false ∧ ∃ id, c.requestId = some id ∧ s.pending.has id = true
  own : ∀ c ∈ s.declares, ∀ {result}, .resolved result ∈ c.settlements →
    ∃ id, c.requestId = some id ∧ result.getStr? "requestId" = some id

end ManifestDeclarationSession

def Call.isKill : Call → Bool
  | .earlyKillHandler _ => true
  | .control _ frame => frame.code = RunnerMessageCode.kill
  | _ => false

def Call.ordinary? : Call → Option ControlFrame
  | .control _ frame => if frame.isOrdinary then some frame else none
  | _ => none

namespace ManifestDeclarationSession

def dispatched (s : ManifestDeclarationSession) : List ControlFrame := s.calls.filterMap
    (·.ordinary?)

/-- The ordinary frames that were complete before the session was closed. -/
def completed (parse : List Char → Option Json) (s : ManifestDeclarationSession) :
    List ControlFrame :=
  ordinaryFrames parse s.text

/-- The ordinary frames are dispatched in order; what a closed session has not dispatched is
dropped. -/
structure InOrder (parse : List Char → Option Json) (s : ManifestDeclarationSession) : Prop where
  isPrefix : s.dispatched <+: s.completed parse
  complete : s.activated = true → s.closed = false → s.stack = [] →
    s.dispatched = s.completed parse

/-- Nothing is dispatched by a closed session. -/
def Quiet (parse : List Char → Option Json) (uuid : ℕ → String) (s : ManifestDeclarationSession)
    (a : Action) : Prop :=
  s.closed = true → (s.next parse uuid a).dispatched = s.dispatched

/-- Bytes come when no user code runs, and no early KILL handler is set in a closed session. -/
def Orderly (s : ManifestDeclarationSession) : Action → Prop
  | .data _ => s.stack = []
  | .flush => s.stack = []
  | .setEarlyKillHandler _ => s.closed = false
  | _ => True

/-! ## Declarations -/

variable {s s' : ManifestDeclarationSession} {uuid : ℕ → String}

/-- What is known of the calls of `declare`. -/
structure Declared (uuid : ℕ → String) (s : ManifestDeclarationSession) : Prop where
  ids : ∀ {k : ℕ} {c : DeclareCall} {id}, s.declares[k]? = some c → c.requestId = some id → ∃ n < s.requests, id = uuid n
  pending : ∀ {id k}, s.pending.get? id = some k →
    ∃ c, s.declares[k]? = some c ∧ c.requestId = some id ∧ c.settlements = []
  waiting : ∀ {k : ℕ} {c : DeclareCall}, s.declares[k]? = some c → c.settlements = [] →
    ∃ id, c.requestId = some id ∧ s.pending.get? id = some k
  once : ∀ {k : ℕ} {c : DeclareCall}, s.declares[k]? = some c → c.settlements.length ≤ 1
  own : ∀ {k : ℕ} {c : DeclareCall} {result}, s.declares[k]? = some c → .resolved result ∈ c.settlements →
    ∃ id, c.requestId = some id ∧ result.getStr? "requestId" = some id
  closed : s.closed = true → ∀ id, s.pending.get? id = none

theorem Declared.settles (h : s.Declared uuid) : s.Settles where
  once := by
    intro c hc
    obtain ⟨k, hk⟩ := List.getElem?_of_mem hc
    exact h.once hk
  pending := by
    intro c hc hopen
    obtain ⟨k, hk⟩ := List.getElem?_of_mem hc
    obtain ⟨id, hid, hpending⟩ := h.waiting hk hopen
    refine ⟨?_, id, hid, has_iff.mpr ⟨k, hpending⟩⟩
    by_contra hclosed
    rw [h.closed (by simpa using hclosed) id] at hpending
    cases hpending
  own := by
    intro c hc result hresult
    obtain ⟨k, hk⟩ := List.getElem?_of_mem hc
    exact h.own hk hresult

theorem Declared.of_eq (h : s.Declared uuid) (hdeclares : s'.declares = s.declares)
    (hpending : s'.pending = s.pending) (hrequests : s'.requests = s.requests)
    (hclosed : s'.closed = s.closed) : s'.Declared uuid := by
  constructor <;> simp only [hdeclares, hpending, hrequests, hclosed]
  · exact h.ids
  · exact h.pending
  · exact h.waiting
  · exact h.once
  · exact h.own
  · exact h.closed

theorem Declared.reject (h : s.Declared uuid) (error : DeclareError) :
    ({ s with declares := s.declares ++ [⟨none, [.rejected error]⟩] } :
      ManifestDeclarationSession).Declared uuid := by
  have hcases : ∀ {k : ℕ} {c : DeclareCall}, (s.declares ++ [⟨none, [.rejected error]⟩])[k]? = some c →
      s.declares[k]? = some c ∨ c = ⟨none, [.rejected error]⟩ := by
    intro k c hc
    exact (getElem?_append_cases hc).symm.imp And.right And.right
  constructor
  case ids =>
    intro k c id hc hid
    rcases hcases hc with hc | rfl
    · exact h.ids hc hid
    · cases hid
  case pending =>
    intro id k hk
    obtain ⟨c, hc, hrest⟩ := h.pending hk
    exact ⟨c, getElem?_append_of_some hc, hrest⟩
  case waiting =>
    intro k c hc hopen
    rcases hcases hc with hc | rfl
    · exact h.waiting hc hopen
    · cases hopen
  case once =>
    intro k c hc
    rcases hcases hc with hc | rfl
    · exact h.once hc
    · exact Nat.le_refl _
  case own =>
    intro k c result hc hresult
    rcases hcases hc with hc | rfl
    · exact h.own hc hresult
    · rcases List.mem_singleton.mp hresult with hnot
      cases hnot
  case closed => exact h.closed

theorem Declared.request (h : s.Declared uuid) (huuid : Function.Injective uuid)
    (hopen : s.closed = false) : ({ s with
      requests := s.requests + 1
      pending := s.pending.set (uuid s.requests) s.declares.length
      declares := s.declares ++ [⟨some (uuid s.requests), []⟩] } :
        ManifestDeclarationSession).Declared uuid := by
  have hcases : ∀ {k : ℕ} {c : DeclareCall}, (s.declares ++ [⟨some (uuid s.requests), []⟩])[k]? = some c →
      s.declares[k]? = some c ∨ k = s.declares.length ∧ c = ⟨some (uuid s.requests), []⟩ := by
    intro k c hc
    exact (getElem?_append_cases hc).symm.imp_left And.right
  -- the identifier is new
  have hfresh : ∀ {k : ℕ} {c : DeclareCall}, s.declares[k]? = some c → c.requestId ≠ some (uuid s.requests) := by
    intro k c hc hid
    obtain ⟨n, hn, heq⟩ := h.ids hc hid
    have := huuid heq
    omega
  constructor
  case ids =>
    intro k c id hc hid
    rcases hcases hc with hc | ⟨-, rfl⟩
    · obtain ⟨n, hn, heq⟩ := h.ids hc hid
      exact ⟨n, Nat.lt_succ_of_lt hn, heq⟩
    · exact ⟨s.requests, Nat.lt_succ_self _, (Option.some.inj hid).symm⟩
  case pending =>
    intro id k hk
    rw [get?_set] at hk
    split at hk
    · next hid =>
        obtain rfl := Option.some.inj hk
        refine ⟨⟨some (uuid s.requests), []⟩, ?_, congrArg some hid, rfl⟩
        rw [List.getElem?_append_right (Nat.le_refl _), Nat.sub_self]
        rfl
    · obtain ⟨c, hc, hrest⟩ := h.pending hk
      exact ⟨c, getElem?_append_of_some hc, hrest⟩
  case waiting =>
    intro k c hc hsettlements
    rcases hcases hc with hc | ⟨rfl, rfl⟩
    · obtain ⟨id, hid, hk⟩ := h.waiting hc hsettlements
      refine ⟨id, hid, ?_⟩
      have hne : uuid s.requests ≠ id := by
        rintro rfl
        exact hfresh hc hid
      rw [get?_set_of_ne _ hne]
      exact hk
    · exact ⟨_, rfl, get?_set_self _ _ _⟩
  case once =>
    intro k c hc
    rcases hcases hc with hc | ⟨-, rfl⟩
    · exact h.once hc
    · exact Nat.zero_le _
  case own =>
    intro k c result hc hresult
    rcases hcases hc with hc | ⟨-, rfl⟩
    · exact h.own hc hresult
    · cases hresult
  case closed =>
    intro hclosed
    rw [show s.closed = true from hclosed] at hopen
    cases hopen

theorem getElem?_settle (k l : ℕ) (x : Settlement) :
    (s.settle k x).declares[l]? = (s.declares[l]?).map fun c =>
      if l = k then { c with settlements := c.settlements ++ [x] } else c := by
  unfold settle
  rw [List.getElem?_modify]
  by_cases hl : k = l
  · simp [hl]
  · simp [hl, Ne.symm hl]

theorem Declared.settle (h : s.Declared uuid) {id : String} {k : ℕ}
    (hpending : s.pending.get? id = some k) {x : Settlement}
    (hown : ∀ {result}, x = .resolved result → result.getStr? "requestId" = some id) :
    (({ s with pending := s.pending.delete id } : ManifestDeclarationSession).settle k x).Declared
      uuid := by
  obtain ⟨c₀, hc₀, hid₀, hopen₀⟩ := h.pending hpending
  have hcases : ∀ {l : ℕ} {c : DeclareCall}, (({ s with pending := s.pending.delete id } :
      ManifestDeclarationSession).settle k x).declares[l]? = some c →
      l = k ∧ c = ⟨some id, [x]⟩ ∨ l ≠ k ∧ s.declares[l]? = some c := by
    intro l c hc
    rw [getElem?_settle] at hc
    obtain ⟨d, hd, rfl⟩ := Option.map_eq_some_iff.mp hc
    by_cases hl : l = k
    · subst hl
      obtain rfl := Option.some.inj (hc₀.symm.trans hd)
      rw [if_pos rfl, hopen₀, hid₀]
      exact .inl ⟨rfl, rfl⟩
    · rw [if_neg hl]
      exact .inr ⟨hl, hd⟩
  have hsame : ∀ {l : ℕ} {c : DeclareCall}, l ≠ k → s.declares[l]? = some c → (({ s with pending := s.pending.delete id } :
      ManifestDeclarationSession).settle k x).declares[l]? = some c := by
    intro l c hl hc
    rw [getElem?_settle, show s.declares[l]? = _ from hc, Option.map_some, if_neg hl]
  constructor
  case ids =>
    intro l c id' hc hid
    rcases hcases hc with ⟨rfl, rfl⟩ | ⟨-, hc⟩
    · cases hid
      exact h.ids hc₀ hid₀
    · exact h.ids hc hid
  case pending =>
    intro id' l hl
    rw [show (({ s with pending := s.pending.delete id } : ManifestDeclarationSession).settle k
      x).pending = s.pending.delete id from rfl, get?_delete] at hl
    split at hl
    · cases hl
    next hne =>
      obtain ⟨c, hc, hid, hopen⟩ := h.pending hl
      refine ⟨c, hsame ?_ hc, hid, hopen⟩
      rintro rfl
      obtain rfl := Option.some.inj (hc₀.symm.trans hc)
      rw [hid₀] at hid
      exact hne (Option.some.inj hid)
  case waiting =>
    intro l c hc hopen
    rcases hcases hc with ⟨-, rfl⟩ | ⟨hl, hc⟩
    · cases hopen
    · obtain ⟨id', hid, hpend⟩ := h.waiting hc hopen
      refine ⟨id', hid, ?_⟩
      have hne : id ≠ id' := by
        rintro rfl
        exact hl (Option.some.inj (hpend.symm.trans hpending))
      exact (get?_delete_of_ne _ hne).trans hpend
  case once =>
    intro l c hc
    rcases hcases hc with ⟨-, rfl⟩ | ⟨-, hc⟩
    · exact Nat.le_refl _
    · exact h.once hc
  case own =>
    intro l c result hc hresult
    rcases hcases hc with ⟨-, rfl⟩ | ⟨-, hc⟩
    · exact ⟨id, rfl, hown (List.mem_singleton.mp hresult).symm⟩
    · exact h.own hc hresult
  case closed =>
    intro hclosed id'
    have hnone := h.closed hclosed id
    rw [hpending] at hnone
    cases hnone

/-! ### Closing -/

theorem getElem?_foldl_settle (ks : List ℕ) (x : Settlement) (l : ℕ) :
    (ks.foldl (fun s k => s.settle k x) s).declares[l]? = (s.declares[l]?).map fun c =>
      { c with settlements := c.settlements ++ List.replicate (ks.count l) x } := by
  induction ks generalizing s with
  | nil => simp
  | cons k ks ih =>
    rw [List.foldl_cons, ih, getElem?_settle, Option.map_map]
    congr 1
    funext c
    by_cases hl : l = k
    · subst hl
      simp [List.count_cons_self, List.replicate_succ]
    · simp [hl, List.count_cons_of_ne (Ne.symm hl)]

theorem foldl_settle (ks : List ℕ) (x : Settlement) :
    ks.foldl (fun s k => s.settle k x) s =
      { s with declares := (ks.foldl (fun s k => s.settle k x) s).declares } := by
  induction ks generalizing s with
  | nil => rfl
  | cons k ks ih =>
    rw [List.foldl_cons]
    exact ih

theorem close_of_closed (h : s.closed = true) (reason : String) : s.close reason = s := if_pos h

theorem close_of_open (h : s.closed = false) (reason : String) : s.close reason = { s with
    declares := (s.pending.values.foldl
      (fun s k => s.settle k (.rejected (.error reason))) s).declares
    closed := true
    pending := .empty
    deferredControls := []
    dispatch := none
    earlyKillHandler := none
    earlyStopHandler := none
    terminalHandler := none } := by
  unfold close
  rw [if_neg (by rw [h]; decide), foldl_settle]

theorem Declared.nodup_values (h : s.Declared uuid) : s.pending.values.Nodup := by
  apply List.Nodup.map_on
  · rintro ⟨id, k⟩ hk ⟨id', k'⟩ hk' heq
    obtain rfl : k = k' := heq
    obtain ⟨c, hc, hid, -⟩ := h.pending (mem_entries_iff.mp hk)
    obtain ⟨c', hc', hid', -⟩ := h.pending (mem_entries_iff.mp hk')
    obtain rfl := Option.some.inj (hc.symm.trans hc')
    rw [hid] at hid'
    rw [Option.some.inj hid']
  · exact List.Nodup.of_map _ s.pending.nodup

theorem Declared.close_cases (h : s.Declared uuid) (hopen : s.closed = false) {reason : String}
    {l : ℕ}
    {c : DeclareCall} (hc : (s.close reason).declares[l]? = some c) :
    ∃ d, s.declares[l]? = some d ∧ c.requestId = d.requestId ∧
      (d.settlements = [] ∧ c.settlements = [.rejected (.error reason)] ∨
        d.settlements ≠ [] ∧ c.settlements = d.settlements) := by
  rw [close_of_open hopen] at hc
  rw [show (_ : ManifestDeclarationSession).declares[l]? = _ from getElem?_foldl_settle _ _ l] at hc
  obtain ⟨d, hd, rfl⟩ := Option.map_eq_some_iff.mp hc
  refine ⟨d, hd, rfl, ?_⟩
  by_cases hwaiting : d.settlements = []
  · obtain ⟨id, -, hk⟩ := h.waiting hd hwaiting
    have hcount := List.count_eq_one_of_mem h.nodup_values (mem_values_iff.mpr ⟨id, hk⟩)
    refine .inl ⟨hwaiting, ?_⟩
    rw [hwaiting, hcount]
    rfl
  · refine .inr ⟨hwaiting, ?_⟩
    have hnot : l ∉ s.pending.values := by
      intro hmem
      obtain ⟨id, hk⟩ := mem_values_iff.mp hmem
      obtain ⟨c, hc, -, hnil⟩ := h.pending hk
      obtain rfl := Option.some.inj (hc.symm.trans hd)
      exact hwaiting hnil
    rw [List.count_eq_zero_of_not_mem hnot]
    exact List.append_nil _

theorem Declared.close (h : s.Declared uuid) (reason : String) :
    (s.close reason).Declared uuid := by
  cases hclosed : s.closed with
  | true =>
    rw [close_of_closed hclosed]
    exact h
  | false =>
    have hpending : ∀ id, (s.close reason).pending.get? id = none := by
      intro id
      rw [close_of_open hclosed]
      rfl
    have hrequests : (s.close reason).requests = s.requests := by rw [close_of_open hclosed]
    constructor
    case ids =>
      intro k c id hc hid
      obtain ⟨d, hd, hsame, -⟩ := h.close_cases hclosed hc
      rw [hrequests]
      exact h.ids hd (hsame.symm.trans hid)
    case pending =>
      intro id k hk
      rw [hpending id] at hk
      cases hk
    case waiting =>
      intro k c hc hwaiting
      obtain ⟨d, -, -, ⟨-, hsettled⟩ | ⟨hnot, hsettled⟩⟩ := h.close_cases hclosed hc
      · rw [hsettled] at hwaiting
        cases hwaiting
      · exact absurd (hsettled.symm.trans hwaiting) hnot
    case once =>
      intro k c hc
      obtain ⟨d, hd, -, ⟨-, hsettled⟩ | ⟨-, hsettled⟩⟩ := h.close_cases hclosed hc
      · rw [hsettled]
        exact Nat.le_refl _
      · rw [hsettled]
        exact h.once hd
    case own =>
      intro k c result hc hresult
      obtain ⟨d, hd, hsame, ⟨-, hsettled⟩ | ⟨-, hsettled⟩⟩ := h.close_cases hclosed hc
      · rw [hsettled, List.mem_singleton] at hresult
        cases hresult
      · rw [hsettled] at hresult
        rw [hsame]
        exact h.own hd hresult
    case closed => exact fun _ => hpending

/-! ### Steps -/

section

variable (h : s.Declared uuid)
include h

theorem Declared.push (activity : Activity) : (s.push activity).Declared uuid :=
  h.of_eq rfl rfl rfl rfl

theorem Declared.call (c : Call) : (s.call c).Declared uuid :=
  h.of_eq rfl rfl rfl rfl

theorem Declared.terminate (reason : String) : (s.terminate reason).Declared uuid := by
  unfold ManifestDeclarationSession.terminate
  split
  · exact h
  · split
    · apply Declared.close
      exact h.of_eq rfl rfl rfl rfl
    · exact h.of_eq rfl rfl rfl rfl

theorem Declared.dispatchControl (frame : ControlFrame) (dispatch : ℕ) :
    (s.dispatchControl frame dispatch).Declared uuid := by
  unfold ManifestDeclarationSession.dispatchControl
  split
  · exact h.call _
  · exact h

theorem Declared.receiveResult (data : Json) : (s.receiveResult data).Declared uuid := by
  unfold ManifestDeclarationSession.receiveResult
  split
  · exact h
  next requestId hid =>
  split
  · exact h
  next k hk =>
  apply h.settle hk
  intro result hresult
  split at hresult
  · cases hresult
  · split at hresult
    · obtain rfl := Settlement.resolved.inj hresult
      exact hid
    · cases hresult

theorem Declared.receiveFrame (frame : ControlFrame) : (s.receiveFrame frame).Declared uuid := by
  unfold ManifestDeclarationSession.receiveFrame
  split
  · exact h.receiveResult _
  · split
    · exact (h.push _).terminate _
    · split
      · exact h.of_eq rfl rfl rfl rfl
      · split
        · exact h.dispatchControl _ _
        · exact h.of_eq rfl rfl rfl rfl

theorem Declared.goOn : (s.goOn parse).Declared uuid := by
  unfold ManifestDeclarationSession.goOn
  split
  · exact h.of_eq rfl rfl rfl rfl
  · next n rest _ =>
      have hread : ∀ buffer stack, ({ s with buffer, stack } : ManifestDeclarationSession).Declared uuid :=
        fun _ _ => h.of_eq rfl rfl rfl rfl
      unfold readLine
      dsimp only
      split
      · exact hread _ _
      · exact (hread _ _).receiveFrame _
  · split
    · exact h.of_eq rfl rfl rfl rfl
    · apply Declared.dispatchControl
      exact h.of_eq rfl rfl rfl rfl
  · apply Declared.close
    exact h.of_eq rfl rfl rfl rfl
  · dsimp only
    split
    · exact h.of_eq rfl rfl rfl rfl
    · apply Declared.dispatchControl
      exact h.of_eq rfl rfl rfl rfl
    · exact h.of_eq rfl rfl rfl rfl
  · exact h

theorem Declared.onData (chunk : List Char) : (s.onData chunk).Declared uuid := by
  unfold ManifestDeclarationSession.onData
  split
  · exact h
  · exact h.of_eq rfl rfl rfl rfl

theorem Declared.declare (huuid : Function.Injective uuid) (input : JsValue)
    (writeError : Option String) : (s.declare uuid input writeError).Declared uuid := by
  unfold ManifestDeclarationSession.declare
  split
  · exact h.reject _
  · split
    · exact h.reject _
    · next hopen =>
        have hrequest := h.request huuid (by simpa using hopen)
        dsimp only
        split
        · exact hrequest.of_eq rfl rfl rfl rfl
        · apply hrequest.settle (get?_set_self _ _ _)
          intro result hresult
          cases hresult

theorem Declared.next (huuid : Function.Injective uuid) (a : Action) :
    (s.next parse uuid a).Declared uuid := by
  have hact : (if s.userTurn then s.act uuid a else s).Declared uuid := by
    split
    · cases a with
      | data bytes | flush =>
        apply Declared.onData
        exact h.of_eq rfl rfl rfl rfl
      | streamEnds event => exact h.terminate _
      | declare input writeError => exact h.declare huuid input writeError
      | activate dispatch =>
        show (s.activate dispatch).Declared uuid
        unfold ManifestDeclarationSession.activate
        split
        · exact h
        · exact h.of_eq rfl rfl rfl rfl
      | setEarlyKillHandler handler | setEarlyStopHandler handler => exact h.of_eq rfl rfl rfl rfl
      | setTerminalHandler handler =>
        show (s.setTerminalHandler handler).Declared uuid
        unfold ManifestDeclarationSession.setTerminalHandler
        dsimp only
        split <;> exact h.of_eq rfl rfl rfl rfl
      | close reason => exact h.close reason
      | terminate reason => exact h.terminate reason
      | earlyStopSettles terminal =>
        unfold act
        dsimp only
        split
        · split
          · apply Declared.terminate
            exact h.of_eq rfl rfl rfl rfl
          · exact h.of_eq rfl rfl rfl rfl
        · exact h
      | returns =>
        unfold act
        dsimp only
        split
        · exact h.of_eq rfl rfl rfl rfl
        · exact h
      | goOn => exact h
    · exact h
  cases a with
  | goOn => exact h.goOn
  | _ => exact hact

end

/-- Where the reader is: nothing but KILL interrupts it from above, and it interrupts nothing. -/
def Grounded : List Activity → Prop
  | [] => True
  | .reading _ :: rest => rest = []
  | .killing .. :: rest => ∃ n, rest = [.reading n]
  | _ :: rest => Grounded rest

/-- Where the frames are that were complete: they were dispatched, they are held, or they are in the
buffer. -/
structure Ordered (parse : List Char → Option Json) (held : List ControlFrame)
    (s : ManifestDeclarationSession) : Prop where
  grounded : Grounded s.stack
  newline : ∀ {n}, .reading n ∈ s.stack → n = indexOfNewline s.buffer
  idle : (∀ n, .reading n ∉ s.stack) → '\n' ∉ s.buffer
  rest : (Lines.lines '\n' s.text).2 = (Lines.lines '\n' s.buffer).2
  killing : ∀ {w h d frame}, .killing w h d frame ∈ s.stack → frame.code = RunnerMessageCode.kill
  deferred : ∀ frame ∈ s.deferredControls, frame.code ≠ RunnerMessageCode.kill
  opened : s.closed = false → s.completed parse =
    s.dispatched ++ held.filter (·.isOrdinary) ++ ordinaryFrames parse s.buffer
  active : s.closed = false → s.dispatch ≠ none →
    (∃ d, .replaying d ∈ s.stack) ∨ s.deferredControls = []
  activated : s.closed = false → s.activated = true → s.dispatch ≠ none
  closed : s.closed = true → s.dispatch = none ∧ s.dispatched <+: s.completed parse
  replaying : s.closed = true → (∃ d, .replaying d ∈ s.stack) → s.deferredControls = []

/-- What is held is what is kept for the dispatcher. -/
abbrev Kept (parse : List Char → Option Json) (s : ManifestDeclarationSession) : Prop :=
  s.Ordered parse s.deferredControls

variable {held : List ControlFrame}

theorem Ordered.inOrder (h : s.Kept parse) : s.InOrder parse where
  isPrefix := by
    cases hclosed : s.closed with
    | true => exact (h.closed hclosed).2
    | false =>
      rw [h.opened hclosed, List.append_assoc]
      exact List.prefix_append _ _
  complete := by
    intro hactivated hopen hstack
    have hdeferred : s.deferredControls = [] := by
      refine (h.active hopen (h.activated hopen hactivated)).resolve_left ?_
      rw [hstack]
      rintro ⟨d, hd⟩
      cases hd
    have hbuffer : ordinaryFrames parse s.buffer = [] := by
      apply ordinaryFrames_of_notMem
      apply h.idle
      rw [hstack]
      exact fun n => List.not_mem_nil
    rw [h.opened hopen, hdeferred, hbuffer]
    simp

theorem Ordered.of_eq (h : s.Ordered parse held) (hstack : s'.stack = s.stack)
    (hbuffer : s'.buffer = s.buffer) (htext : s'.text = s.text)
    (hdeferred : s'.deferredControls = s.deferredControls) (hdispatch : s'.dispatch = s.dispatch)
    (hclosed : s'.closed = s.closed) (hactivated : s'.activated = s.activated)
    (hcalls : s'.calls = s.calls) : s'.Ordered parse held := by
  constructor <;> simp only [completed, dispatched, hstack, hbuffer, htext, hdeferred, hdispatch, hclosed,
    hactivated, hcalls]
  · exact h.grounded
  · exact h.newline
  · exact h.idle
  · exact h.rest
  · exact h.killing
  · exact h.deferred
  · exact h.opened
  · exact h.active
  · exact h.activated
  · exact h.closed
  · exact h.replaying

theorem Ordered.of_closed (h : s.Ordered parse held) (hclosed : s.closed = true)
    (held' : List ControlFrame) : s.Ordered parse held' :=
  { h with opened := fun hopen => absurd (hopen.symm.trans hclosed) (by decide) }

theorem Ordered.drop {frame : ControlFrame} (h : s.Ordered parse (s.deferredControls ++ [frame]))
    (hframe : frame.isOrdinary = false) : s.Kept parse :=
  { h with
    opened := by
      intro hopen
      rw [h.opened hopen, List.filter_append, List.filter_cons_of_neg (by rw [hframe]; decide),
        List.filter_nil, List.append_nil] }

theorem dispatched_call {c : Call} (hcall : c.ordinary? = none) :
    (s.call c).dispatched = s.dispatched := by
  show (s.calls ++ [c]).filterMap _ = _
  rw [List.filterMap_append, List.filterMap_cons, hcall]
  exact List.append_nil _

theorem Ordered.push (h : s.Ordered parse held) {activity : Activity}
    (hgrounded : Grounded (activity :: s.stack)) (hreading : ∀ n, activity ≠ .reading n)
    (hkilling : ∀ {w k d frame}, activity = .killing w k d frame → frame.code = RunnerMessageCode.kill)
    (hreplaying : s.closed = true → ∀ d, activity ≠ .replaying d) :
    (s.push activity).Ordered parse held :=
  { h with
    grounded := hgrounded
    newline := by
      intro n hn
      rcases List.mem_cons.mp hn with heq | hn
      · exact absurd heq.symm (hreading n)
      · exact h.newline hn
    idle := fun hnot => h.idle fun n hn => hnot n (List.mem_cons_of_mem _ hn)
    killing := by
      intro w k d frame hmem
      rcases List.mem_cons.mp hmem with heq | hmem
      · exact hkilling heq.symm
      · exact h.killing hmem
    active := by
      intro hopen hdispatch
      refine (h.active hopen hdispatch).imp ?_ id
      rintro ⟨d, hd⟩
      exact ⟨d, List.mem_cons_of_mem _ hd⟩
    replaying := by
      rintro hclosed ⟨d, hd⟩
      rcases List.mem_cons.mp hd with heq | hd
      · exact absurd heq.symm (hreplaying hclosed d)
      · exact h.replaying hclosed ⟨d, hd⟩ }

theorem Ordered.call (h : s.Ordered parse held) {c : Call} (hcall : c.ordinary? = none) :
    (s.call c).Ordered parse held := by
  have hpush : (s.push .callback).Ordered parse held :=
    h.push h.grounded nofun nofun
      nofun
  have hsame := dispatched_call (s := s) hcall
  refine { hpush with opened := ?_, closed := ?_ }
  · intro hopen
    rw [hsame]
    exact hpush.opened hopen
  · intro hclosed
    rw [hsame]
    exact hpush.closed hclosed

theorem Ordered.pop {activity : Activity} {rest : List Activity} (h : s.Ordered parse held)
    (hstack : s.stack = activity :: rest) (hreading : ∀ n, activity ≠ .reading n)
    (hreplaying : ∀ d, activity = .replaying d → s.deferredControls = []) :
    ({ s with stack := rest } : ManifestDeclarationSession).Ordered parse held :=
  { h with
    grounded := by
      have hgrounded := h.grounded
      rw [hstack] at hgrounded
      cases activity with
      | reading n => exact absurd rfl (hreading n)
      | killing w k d frame =>
        obtain ⟨n, hn⟩ := hgrounded
        rw [show (_ : ManifestDeclarationSession).stack = rest from rfl, hn]
        rfl
      | callback | replaying d | closing reason => exact hgrounded
    newline := fun hn => h.newline (by rw [hstack]; exact List.mem_cons_of_mem _ hn)
    idle := by
      intro hnot
      apply h.idle
      rw [hstack]
      intro n hn
      rcases List.mem_cons.mp hn with heq | hn
      · exact hreading n heq.symm
      · exact hnot n hn
    killing := fun hmem => h.killing (by rw [hstack]; exact List.mem_cons_of_mem _ hmem)
    active := by
      intro hopen hdispatch
      rcases h.active hopen hdispatch with ⟨d, hd⟩ | hnil
      · rw [hstack] at hd
        rcases List.mem_cons.mp hd with heq | hd
        · exact .inr (hreplaying d heq.symm)
        · exact .inl ⟨d, hd⟩
      · exact .inr hnil
    replaying := by
      rintro hclosed ⟨d, hd⟩
      exact h.replaying hclosed ⟨d, by rw [hstack]; exact List.mem_cons_of_mem _ hd⟩ }

theorem Ordered.close (h : s.Ordered parse held) (reason : String) (held' : List ControlFrame) :
    (s.close reason).Ordered parse held' := by
  cases hclosed : s.closed with
  | true =>
    rw [close_of_closed hclosed]
    exact h.of_closed hclosed held'
  | false =>
    rw [close_of_open hclosed]
    exact
      { grounded := h.grounded
        newline := h.newline
        idle := h.idle
        rest := h.rest
        killing := h.killing
        deferred := nofun
        opened := nofun
        active := nofun
        activated := nofun
        closed := fun _ => ⟨rfl, by
          show s.dispatched <+: s.completed parse
          rw [h.opened hclosed, List.append_assoc]
          exact List.prefix_append _ _⟩
        replaying := fun _ _ => rfl }

theorem Ordered.terminate (h : s.Kept parse) (reason : String) :
    (s.terminate reason).Kept parse := by
  unfold ManifestDeclarationSession.terminate
  split
  · exact h
  have hterminal : ({ s with terminal := true } : ManifestDeclarationSession).Kept parse :=
    h.of_eq rfl rfl rfl rfl rfl rfl rfl rfl
  split
  · exact hterminal.close reason _
  · have hpush : (({ s with terminal := true } : ManifestDeclarationSession).push
        (.closing reason)).Kept parse :=
      hterminal.push h.grounded nofun nofun
        nofun
    exact Ordered.call hpush rfl

theorem Ordered.dispatch {frame : ControlFrame} (h : s.Ordered parse (frame :: s.deferredControls))
    (hopen : s.closed = false) (dispatch : ℕ) : (s.dispatchControl frame dispatch).Kept parse := by
  have hpush : (s.push .callback).Ordered parse (frame :: s.deferredControls) :=
    h.push h.grounded nofun nofun
      nofun
  unfold ManifestDeclarationSession.dispatchControl
  by_cases hordinary : frame.isOrdinary = true
  case neg =>
    have hdrop : s.Kept parse :=
      { h with
        opened := by
          intro _
          rw [h.opened hopen, List.filter_cons_of_neg hordinary] }
    split
    · apply Ordered.call hdrop
      show (if frame.isOrdinary = true then some frame else none) = none
      rw [if_neg hordinary]
    · exact hdrop
  rw [if_pos (by rw [ControlFrame.isControl, hordinary, Bool.or_true])]
  have hcall : (s.call (.control dispatch frame)).dispatched = s.dispatched ++ [frame] := by
    show (s.calls ++ [_]).filterMap _ = _
    rw [List.filterMap_append]
    congr 1
    show [Call.control dispatch frame].filterMap (·.ordinary?) = [frame]
    rw [List.filterMap_cons_some (b := frame)]
    · rfl
    · show (if frame.isOrdinary = true then some frame else none) = some frame
      rw [if_pos hordinary]
  refine { hpush with opened := ?_, closed := ?_ }
  · intro _
    show s.completed parse = _
    rw [hcall, h.opened hopen, List.filter_cons_of_pos hordinary, List.append_assoc s.dispatched [frame]]
    rfl
  · intro hclosed
    rw [show s.closed = true from hclosed] at hopen
    cases hopen

theorem Ordered.receiveFrame {frame : ControlFrame} {n : Option ℕ}
    (h : s.Ordered parse (s.deferredControls ++ [frame])) (hstack : s.stack = [.reading n]) :
    (s.receiveFrame frame).Kept parse := by
  have hreplaying : ¬ ∃ d, .replaying d ∈ s.stack := by
    rw [hstack]
    rintro ⟨d, hd⟩
    cases List.mem_singleton.mp hd
  unfold ManifestDeclarationSession.receiveFrame
  by_cases hresult : frame.code = RunnerMessageCode.manifestResult
  · rw [if_pos hresult]
    have hdrop := h.drop (by rw [ControlFrame.isOrdinary, hresult]; decide)
    unfold ManifestDeclarationSession.receiveResult
    split
    · exact hdrop
    · split
      · exact hdrop
      · exact Ordered.of_eq hdrop rfl rfl rfl rfl rfl rfl rfl rfl
  rw [if_neg hresult]
  by_cases hkill : frame.code = RunnerMessageCode.kill
  · rw [if_pos hkill]
    apply Ordered.terminate
    have hdrop := h.drop (by rw [ControlFrame.isOrdinary, hkill]; decide)
    apply Ordered.push hdrop
    · exact ⟨n, hstack⟩
    · exact nofun
    · intro w k d f heq
      cases heq
      exact hkill
    · exact nofun
  rw [if_neg hkill]
  split
  · next handler hhandler =>
      have hstop : frame.code = RunnerMessageCode.stop := by
        by_contra hnot
        rw [if_neg fun hboth => hnot hboth.1] at hhandler
        cases hhandler
      have hdrop := h.drop (by rw [ControlFrame.isOrdinary, hstop]; decide)
      have hcount : ({ s with earlyStops := s.earlyStops + 1 } :
          ManifestDeclarationSession).Kept parse := Ordered.of_eq hdrop rfl rfl rfl rfl rfl rfl rfl rfl
      exact Ordered.call hcount rfl
  · split
    · next d hdispatch =>
        have hopen : s.closed = false := by
          by_contra hclosed
          rw [(h.closed (by simpa using hclosed)).1] at hdispatch
          cases hdispatch
        have hnil := (h.active hopen (by rw [hdispatch]; exact nofun)).resolve_left
          hreplaying
        rw [hnil] at h
        apply Ordered.dispatch _ hopen
        rw [hnil]
        exact h
    · next hdispatch =>
        -- the frame is kept
        refine { h with deferred := ?_, active := ?_, replaying := ?_ }
        · intro f hf
          rcases List.mem_append.mp hf with hf | hf
          · exact h.deferred f hf
          · rw [List.mem_singleton.mp hf]
            exact hkill
        · exact fun _ hnot => absurd hdispatch hnot
        · exact fun _ hnot => absurd hnot hreplaying

section

variable (h : s.Kept parse)
include h

theorem Ordered.takeLine {n : ℕ} {rest : List Activity}
    (hstack : s.stack = .reading (some n) :: rest) :
    ({ s with
      buffer := s.buffer.drop (n + 1)
      stack := .reading (indexOfNewline (s.buffer.drop (n + 1))) :: rest } :
        ManifestDeclarationSession).Ordered parse
      (s.deferredControls ++ (lineFrame? parse (s.buffer.take n)).toList) := by
  have hgrounded := h.grounded
  rw [hstack] at hgrounded
  obtain rfl : rest = [] := hgrounded
  have hindex := h.newline (n := some n) (by rw [hstack]; exact List.mem_cons_self)
  obtain ⟨hbuffer, hline⟩ := indexOfNewline_eq_some hindex.symm
  constructor
  case grounded => rfl
  case newline =>
    intro m hm
    exact Activity.reading.inj (List.mem_singleton.mp hm)
  case idle => exact fun hnot => absurd List.mem_cons_self (hnot _)
  case rest =>
    show (Lines.lines '\n' s.text).2 = _
    rw [h.rest]
    conv_lhs => rw [hbuffer]
    rw [Lines.lines_line hline]
  case killing =>
    intro w k d frame hmem
    cases List.mem_singleton.mp hmem
  case deferred => exact h.deferred
  case opened =>
    intro hopen
    show s.completed parse = s.dispatched ++ _ ++ _
    rw [h.opened hopen]
    conv_lhs => rw [hbuffer]
    rw [ordinaryFrames_line hline, List.filter_append, List.append_assoc, List.append_assoc,
      List.append_assoc]
  case active =>
    intro hopen hdispatch
    rcases h.active hopen hdispatch with ⟨d, hd⟩ | hnil
    · rw [hstack] at hd
      cases List.mem_singleton.mp hd
    · exact .inr hnil
  case activated => exact h.activated
  case closed => exact h.closed
  case replaying =>
    rintro _ ⟨d, hd⟩
    cases List.mem_singleton.mp hd

theorem Ordered.readLine {n : ℕ} {rest : List Activity}
    (hstack : s.stack = .reading (some n) :: rest) : (s.readLine parse n rest).Kept parse := by
  have htake := h.takeLine hstack
  have hgrounded := h.grounded
  rw [hstack] at hgrounded
  obtain rfl : rest = [] := hgrounded
  unfold ManifestDeclarationSession.readLine
  cases hframe : lineFrame? parse (s.buffer.take n) with
  | none =>
    rw [hframe, show (none : Option ControlFrame).toList = [] from rfl, List.append_nil] at htake
    exact htake
  | some frame =>
    rw [hframe] at htake
    exact htake.receiveFrame rfl

theorem Ordered.replay {dispatch : ℕ} (hmem : .replaying dispatch ∈ s.stack)
    {frame : ControlFrame} {frames : List ControlFrame}
    (hdeferred : s.deferredControls = frame :: frames) :
    (({ s with deferredControls := frames } : ManifestDeclarationSession).dispatchControl frame
      dispatch).Kept parse := by
  have hopen : s.closed = false := by
    by_contra hclosed
    have hnil := h.replaying (by simpa using hclosed) ⟨dispatch, hmem⟩
    rw [hdeferred] at hnil
    cases hnil
  have hheld : ({ s with deferredControls := frames } : ManifestDeclarationSession).Ordered parse
      (frame :: frames) := by
    refine { h with deferred := ?_, opened := ?_, active := ?_, replaying := ?_ }
    · intro f hf
      apply h.deferred
      rw [hdeferred]
      exact List.mem_cons_of_mem _ hf
    · intro _
      show s.completed parse = _
      rw [h.opened hopen, hdeferred]
      rfl
    · exact fun _ _ => .inl ⟨dispatch, hmem⟩
    · intro hclosed
      rw [show s.closed = true from hclosed] at hopen
      cases hopen
  exact Ordered.dispatch (s := { s with deferredControls := frames }) hheld hopen dispatch

theorem Ordered.goOn : (s.goOn parse).Kept parse := by
  unfold ManifestDeclarationSession.goOn
  split
  · next rest hstack =>
      -- the reader is through
      have hgrounded := h.grounded
      rw [hstack] at hgrounded
      obtain rfl : rest = [] := hgrounded
      have hindex := h.newline (n := none) (by rw [hstack]; exact List.mem_cons_self)
      have hreplaying : ¬ ∃ d, .replaying d ∈ s.stack := by
        rw [hstack]
        rintro ⟨d, hd⟩
        cases List.mem_singleton.mp hd
      constructor
      case grounded => trivial
      case newline => exact nofun
      case idle => exact fun _ => indexOfNewline_eq_none hindex.symm
      case killing => exact nofun
      case active => exact fun hopen hdispatch => .inr ((h.active hopen hdispatch).resolve_left hreplaying)
      case replaying =>
        rintro _ ⟨d, hd⟩
        cases hd
      case rest => exact h.rest
      case deferred => exact h.deferred
      case opened => exact h.opened
      case activated => exact h.activated
      case closed => exact h.closed
  · next n rest hstack => exact Ordered.readLine h hstack
  · next dispatch rest hstack =>
      split
      · next hnil =>
          exact h.pop hstack nofun (fun _ _ => hnil)
      · next frame frames hdeferred =>
          exact Ordered.replay h (by rw [hstack]; exact List.mem_cons_self) hdeferred
  · next reason rest hstack =>
      have hpop := h.pop hstack nofun nofun
      exact hpop.close reason _
  · next w k d frame rest hstack =>
      have hpop : ({ s with stack := rest } : ManifestDeclarationSession).Kept parse :=
        h.pop hstack nofun nofun
      have hkill : frame.code = RunnerMessageCode.kill := h.killing (w := w) (h := k) (d := d)
        (by rw [hstack]; exact List.mem_cons_self)
      dsimp only
      split
      · exact Ordered.call hpop rfl
      · unfold ManifestDeclarationSession.dispatchControl
        split
        · apply Ordered.call hpop
          show (if frame.isOrdinary = true then some frame else none) = none
          rw [ControlFrame.isOrdinary, hkill]
          rfl
        · exact hpop
      · exact hpop
  · exact h

theorem Ordered.onData (hstack : s.stack = []) (chunk : List Char) :
    (s.onData chunk).Kept parse := by
  unfold ManifestDeclarationSession.onData
  split
  · exact h
  next hopen =>
  have hopen : s.closed = false := by
    rw [Bool.or_eq_true, not_or] at hopen
    simpa using hopen.1
  have hbuffer : '\n' ∉ s.buffer := by
    apply h.idle
    rw [hstack]
    exact fun _ => List.not_mem_nil
  -- what is left of the text is what is in the buffer
  have hrest : (Lines.lines '\n' s.text).2 = s.buffer := by
    rw [h.rest, Lines.lines_of_notMem hbuffer]
  have hgrounded : Grounded (.reading (indexOfNewline (s.buffer ++ chunk)) :: s.stack) := hstack
  constructor
  case grounded => exact hgrounded
  case newline =>
    intro n hn
    rcases List.mem_cons.mp hn with heq | hn
    · exact Activity.reading.inj heq
    · rw [show ({ s with buffer := s.buffer ++ chunk, text := s.text ++ chunk } :
        ManifestDeclarationSession).stack = [] from hstack] at hn
      cases hn
  case idle => exact fun hnot => absurd List.mem_cons_self (hnot _)
  case rest =>
    show (Lines.lines '\n' (s.text ++ chunk)).2 = _
    rw [Lines.lines_append, hrest]
    rfl
  case killing =>
    intro w k d frame hmem
    rcases List.mem_cons.mp hmem with heq | hmem
    · cases heq
    · exact h.killing hmem
  case deferred => exact h.deferred
  case opened =>
    intro _
    show ordinaryFrames parse (s.text ++ chunk) = s.dispatched ++ s.deferredControls.filter _ ++
      ordinaryFrames parse (s.buffer ++ chunk)
    rw [ordinaryFrames_append, hrest]
    congr 1
    have hsame := h.opened hopen
    rw [ordinaryFrames_of_notMem hbuffer, List.append_nil] at hsame
    exact hsame
  case active =>
    intro _ hdispatch
    refine (h.active hopen hdispatch).imp ?_ id
    rintro ⟨d, hd⟩
    exact ⟨d, List.mem_cons_of_mem _ hd⟩
  case activated => exact h.activated
  case closed =>
    intro hclosed
    rw [show s.closed = true from hclosed] at hopen
    cases hopen
  case replaying =>
    intro hclosed
    rw [show s.closed = true from hclosed] at hopen
    cases hopen

theorem Ordered.activate (dispatch : ℕ) : (s.activate dispatch).Kept parse := by
  unfold ManifestDeclarationSession.activate
  split
  · exact h
  next hclosed =>
  constructor
  case grounded => exact h.grounded
  case newline =>
    intro n hn
    rcases List.mem_cons.mp hn with heq | hn
    · cases heq
    · exact h.newline hn
  case idle => exact fun hnot => h.idle fun n hn => hnot n (List.mem_cons_of_mem _ hn)
  case killing =>
    intro w k d frame hmem
    rcases List.mem_cons.mp hmem with heq | hmem
    · cases heq
    · exact h.killing hmem
  case active => exact fun _ _ => .inl ⟨dispatch, List.mem_cons_self⟩
  case activated => exact nofun
  case closed => exact fun hnot => absurd hnot hclosed
  case replaying => exact fun hnot => absurd hnot hclosed
  case rest => exact h.rest
  case deferred => exact h.deferred
  case opened => exact h.opened

theorem Ordered.act {a : Action} (horderly : Orderly s a) : (s.act uuid a).Kept parse := by
  cases a with
  | data bytes =>
    apply Ordered.onData (s := { s with decoder := (s.decoder.write bytes).1 }) _ horderly
    exact h.of_eq rfl rfl rfl rfl rfl rfl rfl rfl
  | flush =>
    apply Ordered.onData (s := { s with decoder := none }) _ horderly
    exact h.of_eq rfl rfl rfl rfl rfl rfl rfl rfl
  | streamEnds event => exact Ordered.terminate h _
  | declare input writeError =>
    show (s.declare uuid input writeError).Kept parse
    unfold ManifestDeclarationSession.declare
    split
    · exact h.of_eq rfl rfl rfl rfl rfl rfl rfl rfl
    · split
      · exact h.of_eq rfl rfl rfl rfl rfl rfl rfl rfl
      · dsimp only
        split <;> exact h.of_eq rfl rfl rfl rfl rfl rfl rfl rfl
  | activate dispatch => exact Ordered.activate h dispatch
  | setEarlyKillHandler handler => exact h.of_eq rfl rfl rfl rfl rfl rfl rfl rfl
  | setEarlyStopHandler handler => exact h.of_eq rfl rfl rfl rfl rfl rfl rfl rfl
  | setTerminalHandler handler =>
    have hset : ({ s with terminalHandler := some handler } : ManifestDeclarationSession).Kept parse :=
      h.of_eq rfl rfl rfl rfl rfl rfl rfl rfl
    show (s.setTerminalHandler handler).Kept parse
    unfold ManifestDeclarationSession.setTerminalHandler
    dsimp only
    split
    · exact Ordered.call hset rfl
    · exact hset
  | close reason => exact h.close reason _
  | terminate reason => exact Ordered.terminate h reason
  | earlyStopSettles terminal =>
    unfold ManifestDeclarationSession.act
    dsimp only
    split
    · split
      · apply Ordered.terminate
        exact h.of_eq rfl rfl rfl rfl rfl rfl rfl rfl
      · exact h.of_eq rfl rfl rfl rfl rfl rfl rfl rfl
    · exact h
  | returns =>
    unfold ManifestDeclarationSession.act
    dsimp only
    split
    · next rest hstack =>
        exact h.pop hstack nofun nofun
    · exact h
  | goOn => exact h

end

theorem next_goOn : s.next parse uuid .goOn = s.goOn parse := rfl

theorem next_of_ne {a : Action} (ha : a ≠ .goOn) :
    s.next parse uuid a = if s.userTurn then s.act uuid a else s := by
  cases a <;> first | rfl | exact absurd rfl ha

theorem Ordered.next (h : s.Kept parse) {a : Action} (horderly : Orderly s a) :
    (s.next parse uuid a).Kept parse := by
  by_cases ha : a = .goOn
  · rw [ha, next_goOn]
    exact Ordered.goOn h
  · rw [next_of_ne ha]
    split
    · exact Ordered.act h horderly
    · exact h

/-! ## Closed sessions -/

theorem terminate_of_closed (h : s.closed = true) (reason : String) :
    s.terminate reason = s := if_pos h

theorem dispatched_terminate (h : s.closed = true) (reason : String) :
    (s.terminate reason).dispatched = s.dispatched := by
  rw [terminate_of_closed h]

theorem dispatched_close (h : s.closed = true) (reason : String) :
    (s.close reason).dispatched = s.dispatched := by
  rw [close_of_closed h]

theorem dispatched_dispatchControl {frame : ControlFrame} (hframe : frame.isOrdinary = false)
    (dispatch : ℕ) : (s.dispatchControl frame dispatch).dispatched = s.dispatched := by
  unfold ManifestDeclarationSession.dispatchControl
  split
  · apply dispatched_call
    show (if frame.isOrdinary = true then some frame else none) = none
    rw [hframe]
    rfl
  · rfl

theorem dispatched_receiveFrame (hclosed : s.closed = true) (hdispatch : s.dispatch = none)
    (frame : ControlFrame) : (s.receiveFrame frame).dispatched = s.dispatched := by
  unfold ManifestDeclarationSession.receiveFrame
  split
  · unfold ManifestDeclarationSession.receiveResult
    split
    · rfl
    · split <;> rfl
  · split
    · refine dispatched_terminate ?_ _
      exact hclosed
    · split
      · exact dispatched_call rfl
      · rw [hdispatch]
        rfl

theorem Ordered.quiet (h : s.Kept parse) (uuid : ℕ → String) (a : Action) :
    s.Quiet parse uuid a := by
  intro hclosed
  have hdispatch := (h.closed hclosed).1
  by_cases ha : a = .goOn
  · rw [ha, next_goOn]
    unfold ManifestDeclarationSession.goOn
    split
    · rfl
    · unfold ManifestDeclarationSession.readLine
      dsimp only
      split
      · rfl
      · refine dispatched_receiveFrame ?_ ?_ _
        · exact hclosed
        · exact hdispatch
    · next dispatch rest hstack =>
        split
        · rfl
        · next frame frames hdeferred =>
            have hnil := h.replaying hclosed ⟨dispatch, by rw [hstack]; exact List.mem_cons_self⟩
            rw [hdeferred] at hnil
            cases hnil
    · refine dispatched_close ?_ _
      exact hclosed
    · next w k d frame rest hstack =>
        have hkill : frame.code = RunnerMessageCode.kill := h.killing (w := w) (h := k) (d := d)
          (by rw [hstack]; exact List.mem_cons_self)
        dsimp only
        split
        · exact dispatched_call rfl
        · exact dispatched_dispatchControl (by rw [ControlFrame.isOrdinary, hkill]; decide) _
        · rfl
    · rfl
  · rw [next_of_ne ha]
    split
    case isFalse => rfl
    cases a with
    | data bytes | flush =>
      show (ManifestDeclarationSession.onData _ _).dispatched = _
      unfold ManifestDeclarationSession.onData
      split <;> rfl
    | streamEnds event => exact dispatched_terminate hclosed _
    | declare input writeError =>
      show (s.declare uuid input writeError).dispatched = _
      unfold ManifestDeclarationSession.declare
      split
      · rfl
      · rw [if_pos hclosed]
        rfl
    | activate dispatch =>
      show (s.activate dispatch).dispatched = _
      unfold ManifestDeclarationSession.activate
      rw [if_pos hclosed]
    | setEarlyKillHandler handler | setEarlyStopHandler handler => rfl
    | setTerminalHandler handler =>
      show (s.setTerminalHandler handler).dispatched = _
      unfold ManifestDeclarationSession.setTerminalHandler
      dsimp only
      split
      · exact dispatched_call rfl
      · rfl
    | close reason => exact dispatched_close hclosed _
    | terminate reason => exact dispatched_terminate hclosed _
    | earlyStopSettles terminal =>
      unfold ManifestDeclarationSession.act
      dsimp only
      split
      · split
        · refine dispatched_terminate ?_ _
          exact hclosed
        · rfl
      · rfl
    | returns =>
      unfold ManifestDeclarationSession.act
      dsimp only
      split <;> rfl
    | goOn => rfl

end ManifestDeclarationSession

/-! ## KILL -/

/-- KILL will be delivered when this goes on. -/
def Activity.delivers : Activity → Bool
  | .killing wasDeferred killHandler dispatch _ => (wasDeferred && killHandler.isSome) || dispatch.isSome
  | _ => false

namespace ManifestDeclarationSession

variable {s s' : ManifestDeclarationSession} {uuid : ℕ → String}

/-- How often KILL was delivered or will be. -/
def killsDue (s : ManifestDeclarationSession) : ℕ :=
  s.calls.countP (·.isKill) + s.stack.countP (·.delivers)

/-- The session is closed, or will be before what KILL has interrupted goes on. -/
def Ending (s : ManifestDeclarationSession) : Prop :=
  s.closed = true ∨ ∃ above reason w k d frame below,
    s.stack = above ++ .closing reason :: .killing w k d frame :: below

structure Killed (s : ManifestDeclarationSession) : Prop where
  once : s.killsDue ≤ 1
  ending : 0 < s.killsDue → s.Ending
  handler : s.closed = true → s.earlyKillHandler = none

theorem Killed.of_eq (h : s.Killed) (hcalls : s'.calls = s.calls) (hstack : s'.stack = s.stack)
    (hclosed : s'.closed = s.closed) (hhandler : s'.earlyKillHandler = s.earlyKillHandler) :
    s'.Killed := by
  have hdue : s'.killsDue = s.killsDue := by rw [killsDue, hcalls, hstack, killsDue]
  constructor
  · rw [hdue]
    exact h.once
  · rw [hdue, Ending, hclosed, hstack]
    exact h.ending
  · rw [hclosed, hhandler]
    exact h.handler

theorem Killed.of_closed (hdue : s.killsDue ≤ 1) (hclosed : s.closed = true)
    (hhandler : s.earlyKillHandler = none) : s.Killed :=
  ⟨hdue, fun _ => .inl hclosed, fun _ => hhandler⟩

theorem Killed.push (h : s.Killed) {activity : Activity} (hactivity : activity.delivers = false) :
    (s.push activity).Killed where
  once := by
    show s.calls.countP _ + (activity :: s.stack).countP _ ≤ 1
    rw [List.countP_cons_of_neg (by rw [hactivity]; decide)]
    exact h.once
  ending := by
    intro hdue
    have hdue' : 0 < s.calls.countP (·.isKill) + (activity :: s.stack).countP (·.delivers) := hdue
    rw [List.countP_cons_of_neg (by rw [hactivity]; decide)] at hdue'
    rcases h.ending hdue' with hclosed | ⟨above, reason, w, k, d, frame, below, hstack⟩
    · exact .inl hclosed
    · refine .inr ⟨activity :: above, reason, w, k, d, frame, below, ?_⟩
      show activity :: s.stack = _
      rw [hstack]
      rfl
  handler := h.handler

theorem Killed.call (h : s.Killed) {c : Call} (hcall : c.isKill = false) : (s.call c).Killed := by
  have hpush : (s.push .callback).Killed := h.push rfl
  have hdue : (s.call c).killsDue = (s.push .callback).killsDue := by
    show (s.calls ++ [c]).countP _ + _ = s.calls.countP _ + _
    rw [List.countP_append, List.countP_cons_of_neg (by rw [hcall]; decide)]
    rfl
  constructor
  · rw [hdue]
    exact hpush.once
  · rw [hdue]
    exact hpush.ending
  · exact hpush.handler

theorem Killed.close_of_due (hdue : s.killsDue ≤ 1)
    (hhandler : s.closed = true → s.earlyKillHandler = none) (reason : String) :
    (s.close reason).Killed := by
  cases hclosed : s.closed with
  | true =>
    rw [close_of_closed hclosed]
    exact .of_closed hdue hclosed (hhandler hclosed)
  | false =>
    rw [close_of_open hclosed]
    exact .of_closed hdue rfl rfl

theorem Killed.close (h : s.Killed) (reason : String) : (s.close reason).Killed :=
  .close_of_due h.once h.handler reason

theorem Killed.terminate (h : s.Killed) (reason : String) : (s.terminate reason).Killed := by
  unfold ManifestDeclarationSession.terminate
  split
  · exact h
  have hterminal : ({ s with terminal := true } : ManifestDeclarationSession).Killed :=
    h.of_eq rfl rfl rfl rfl
  split
  · exact hterminal.close reason
  · exact (hterminal.push rfl).call rfl

theorem Killed.pop {activity : Activity} {rest : List Activity} (h : s.Killed)
    (hstack : s.stack = activity :: rest) (hactivity : activity.delivers = false)
    (hclosing : ∀ reason, activity ≠ .closing reason) :
    ({ s with stack := rest } : ManifestDeclarationSession).Killed := by
  have hdue : ({ s with stack := rest } : ManifestDeclarationSession).killsDue = s.killsDue := by
    rw [killsDue, killsDue, hstack, List.countP_cons_of_neg (by rw [hactivity]; decide)]
  constructor
  · rw [hdue]
    exact h.once
  · rw [hdue]
    intro hpos
    rcases h.ending hpos with hclosed | ⟨above, reason, w, k, d, frame, below, heq⟩
    · exact .inl hclosed
    · refine .inr ?_
      rw [hstack] at heq
      cases above with
      | nil => exact absurd (List.cons.inj heq).1 (hclosing reason)
      | cons a above => exact ⟨above, reason, w, k, d, frame, below, (List.cons.inj heq).2⟩
  · exact h.handler

section

variable (h : s.Killed)
include h

theorem Killed.dispatchControl {frame : ControlFrame}
    (hframe : frame.code ≠ RunnerMessageCode.kill) (dispatch : ℕ) :
    (s.dispatchControl frame dispatch).Killed := by
  unfold ManifestDeclarationSession.dispatchControl
  split
  · apply h.call
    show decide (frame.code = RunnerMessageCode.kill) = false
    exact decide_eq_false hframe
  · exact h

theorem Killed.receiveKill {n : Option ℕ} (hstack : s.stack = [.reading n])
    (hdispatch : s.closed = true → s.dispatch = none) (frame : ControlFrame) (reason : String) :
    ((s.push (.killing s.dispatch.isNone s.earlyKillHandler s.dispatch frame)).terminate reason).Killed := by
  cases hclosed : s.closed with
  | true =>
    have hpush : (s.push (.killing s.dispatch.isNone s.earlyKillHandler s.dispatch frame)).Killed := by
      apply h.push
      rw [hdispatch hclosed, h.handler hclosed]
      rfl
    exact hpush.terminate reason
  | false =>
    -- KILL was not delivered before
    have hnone : s.killsDue = 0 := by
      by_contra hpos
      rcases h.ending (Nat.pos_of_ne_zero hpos) with hnot | ⟨above, r, w, k, d, f, below, heq⟩
      · rw [hclosed] at hnot
        cases hnot
      · have hlength := congrArg List.length heq
        rw [hstack, List.length_append, List.length_cons, List.length_cons] at hlength
        simp only [List.length_cons, List.length_nil] at hlength
        omega
    set killing := Activity.killing s.dispatch.isNone s.earlyKillHandler s.dispatch frame with hkilling
    have hdue : ∀ above : List Activity, (∀ activity ∈ above, activity.delivers = false) →
        s.calls.countP (·.isKill) + (above ++ killing :: s.stack).countP (·.delivers) ≤ 1 := by
      intro above habove
      have hzero : above.countP (·.delivers) = 0 := by
        rw [List.countP_eq_zero]
        intro activity hactivity
        rw [habove activity hactivity]
        decide
      have hone : (killing :: s.stack).countP (·.delivers) ≤ s.stack.countP (·.delivers) + 1 := by
        rw [List.countP_cons]
        split <;> omega
      rw [killsDue] at hnone
      rw [List.countP_append, hzero]
      omega
    unfold ManifestDeclarationSession.terminate
    rw [if_neg (by rw [show (s.push killing).closed = false from hclosed]; decide)]
    split
    · rw [close_of_open (show ({ s.push killing with terminal := true } :
        ManifestDeclarationSession).closed = false from hclosed)]
      exact .of_closed (hdue [] nofun) rfl rfl
    · next handler hhandler =>
        constructor
        · show (s.calls ++ [_]).countP _ + (Activity.callback :: .closing reason :: killing ::
            s.stack).countP _ ≤ 1
          rw [List.countP_append]
          exact hdue [.callback, .closing reason] (by simp [Activity.delivers])
        · exact fun _ => .inr ⟨[.callback], reason, _, _, _, _, s.stack, rfl⟩
        · intro hnot
          rw [show s.closed = true from hnot] at hclosed
          cases hclosed

theorem Killed.receiveFrame {n : Option ℕ} (hstack : s.stack = [.reading n])
    (hdispatch : s.closed = true → s.dispatch = none) (frame : ControlFrame) :
    (s.receiveFrame frame).Killed := by
  unfold ManifestDeclarationSession.receiveFrame
  split
  · unfold ManifestDeclarationSession.receiveResult
    split
    · exact h
    · split
      · exact h
      · exact h.of_eq rfl rfl rfl rfl
  · split
    · exact h.receiveKill hstack hdispatch frame _
    · next hkill =>
        split
        · have hcount : ({ s with earlyStops := s.earlyStops + 1 } : ManifestDeclarationSession).Killed :=
            h.of_eq rfl rfl rfl rfl
          exact hcount.call rfl
        · split
          · exact h.dispatchControl hkill _
          · exact h.of_eq rfl rfl rfl rfl

theorem Killed.closed_of_killing (hgrounded : Grounded s.stack)
    (hdue : 0 < s.killsDue)
    {w : Bool} {k d : Option ℕ} {frame : ControlFrame} {rest : List Activity}
    (hstack : s.stack = .killing w k d frame :: rest) : s.closed = true := by
  refine (h.ending hdue).resolve_right ?_
  rintro ⟨above, reason, w', k', d', frame', below, heq⟩
  rw [hstack] at hgrounded heq
  obtain ⟨n, rfl⟩ := hgrounded
  cases above with
  | nil => cases (List.cons.inj heq).1
  | cons a above =>
    rw [List.cons_append] at heq
    have hlength := congrArg List.length (List.cons.inj heq).2
    rw [List.length_append, List.length_cons, List.length_cons] at hlength
    simp only [List.length_cons, List.length_nil] at hlength
    omega

theorem Killed.deliver (hgrounded : Grounded s.stack) {w : Bool} {k d : Option ℕ}
    {frame : ControlFrame} {rest : List Activity} (hstack : s.stack = .killing w k d frame :: rest)
    (hdelivers : (Activity.killing w k d frame).delivers = true) {c : Call} :
    (({ s with stack := rest } : ManifestDeclarationSession).call c).Killed := by
  have hdue : s.killsDue = s.calls.countP (·.isKill) + (rest.countP (·.delivers) + 1) := by
    rw [killsDue, hstack, List.countP_cons_of_pos hdelivers]
  have hclosed := h.closed_of_killing hgrounded (by rw [hdue]; omega) hstack
  refine Killed.of_closed ?_ hclosed (h.handler hclosed)
  show (s.calls ++ [c]).countP _ + (Activity.callback :: rest).countP _ ≤ 1
  have honce := h.once
  rw [hdue] at honce
  have hcallback : (Activity.callback :: rest).countP (·.delivers) = rest.countP (·.delivers) :=
    List.countP_cons_of_neg Bool.false_ne_true
  rw [List.countP_append, hcallback]
  have hone : [c].countP (·.isKill) ≤ 1 := List.countP_le_length
  omega

theorem Killed.goOn (hkept : s.Kept parse) : (s.goOn parse).Killed := by
  unfold ManifestDeclarationSession.goOn
  split
  · next rest hstack => exact h.pop hstack rfl nofun
  · next n rest hstack =>
      have hgrounded := hkept.grounded
      rw [hstack] at hgrounded
      obtain rfl : rest = [] := hgrounded
      have hread : ({ s with
          buffer := s.buffer.drop (n + 1)
          stack := [.reading (indexOfNewline (s.buffer.drop (n + 1)))] } :
            ManifestDeclarationSession).Killed := by
        have hpop := h.pop hstack rfl nofun
        have hpush : (({ s with stack := [] } : ManifestDeclarationSession).push
            (.reading (indexOfNewline (s.buffer.drop (n + 1))))).Killed := hpop.push rfl
        exact hpush.of_eq rfl rfl rfl rfl
      unfold ManifestDeclarationSession.readLine
      dsimp only
      split
      · exact hread
      · exact hread.receiveFrame rfl (fun hclosed => (hkept.closed hclosed).1) _
  · next dispatch rest hstack =>
      split
      · exact h.pop hstack rfl nofun
      · next frame frames hdeferred =>
          have hsame : ({ s with deferredControls := frames } : ManifestDeclarationSession).Killed :=
            h.of_eq rfl rfl rfl rfl
          apply hsame.dispatchControl
          apply hkept.deferred
          rw [hdeferred]
          exact List.mem_cons_self
  · next reason rest hstack =>
      refine Killed.close_of_due ?_ ?_ _
      · have honce := h.once
        rw [killsDue, hstack, List.countP_cons_of_neg Bool.false_ne_true] at honce
        exact honce
      · exact h.handler
  · next w k d frame rest hstack =>
      have hkill : frame.code = RunnerMessageCode.kill := hkept.killing (w := w) (h := k) (d := d)
        (by rw [hstack]; exact List.mem_cons_self)
      dsimp only
      split
      · exact h.deliver hkept.grounded hstack rfl
      · next dispatch =>
          unfold ManifestDeclarationSession.dispatchControl
          rw [if_pos (by simp [ControlFrame.isControl, hkill])]
          apply h.deliver hkept.grounded hstack
          show (_ || true) = true
          exact Bool.or_true _
      · next hnot =>
          apply h.pop hstack _ nofun
          show (w && k.isSome || false) = false
          cases w <;> cases k <;> first | rfl | exact (hnot _ rfl rfl).elim
  · exact h

theorem Killed.act {a : Action} (horderly : Orderly s a) : (s.act uuid a).Killed := by
  have hdata : ∀ (decoder : StringDecoder) (chunk : List Char),
      (({ s with decoder } : ManifestDeclarationSession).onData chunk).Killed := by
    intro decoder chunk
    unfold ManifestDeclarationSession.onData
    split
    · exact h.of_eq rfl rfl rfl rfl
    · apply Killed.push _ rfl
      exact h.of_eq rfl rfl rfl rfl
  cases a with
  | data bytes | flush => exact hdata _ _
  | streamEnds event => exact h.terminate _
  | declare input writeError =>
    show (s.declare uuid input writeError).Killed
    unfold ManifestDeclarationSession.declare
    split
    · exact h.of_eq rfl rfl rfl rfl
    · split
      · exact h.of_eq rfl rfl rfl rfl
      · dsimp only
        split <;> exact h.of_eq rfl rfl rfl rfl
  | activate dispatch =>
    show (s.activate dispatch).Killed
    unfold ManifestDeclarationSession.activate
    split
    · exact h
    · apply Killed.push _ rfl
      exact h.of_eq rfl rfl rfl rfl
  | setEarlyKillHandler handler =>
    exact
      { once := h.once
        ending := h.ending
        handler := fun hclosed => absurd (hclosed.symm.trans horderly) (by decide) }
  | setEarlyStopHandler handler => exact h.of_eq rfl rfl rfl rfl
  | setTerminalHandler handler =>
    have hset : ({ s with terminalHandler := some handler } : ManifestDeclarationSession).Killed :=
      h.of_eq rfl rfl rfl rfl
    show (s.setTerminalHandler handler).Killed
    unfold ManifestDeclarationSession.setTerminalHandler
    dsimp only
    split
    · exact hset.call rfl
    · exact hset
  | close reason => exact h.close reason
  | terminate reason => exact h.terminate reason
  | earlyStopSettles terminal =>
    unfold ManifestDeclarationSession.act
    dsimp only
    split
    · split
      · apply Killed.terminate
        exact h.of_eq rfl rfl rfl rfl
      · exact h.of_eq rfl rfl rfl rfl
    · exact h
  | returns =>
    unfold ManifestDeclarationSession.act
    dsimp only
    split
    · next rest hstack => exact h.pop hstack rfl nofun
    · exact h
  | goOn => exact h

theorem Killed.next (hkept : s.Kept parse) {a : Action} (horderly : Orderly s a) :
    (s.next parse uuid a).Killed := by
  by_cases ha : a = .goOn
  · rw [ha, next_goOn]
    exact h.goOn hkept
  · rw [next_of_ne ha]
    split
    · exact h.act horderly
    · exact h

end

end ManifestDeclarationSession

/-! ## Runs -/

open ManifestDeclarationSession

end TransformHub.Runner.ManifestSession
