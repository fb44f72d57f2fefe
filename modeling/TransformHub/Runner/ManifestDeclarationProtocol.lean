import TransformHub.Runner.ManifestDeclarationClient

/-!
# Every declaration settles once

Requests are told apart by their ids (`Inv.distinct`), and a request is pending as long as its call
has not settled (`Inv.pending`).
-/

namespace TransformHub.Runner.Manifest

open OrderedMap

open Js (Json)

namespace Client

variable {uuid4 : ℕ → String} {str : Json → String} {s : Client}

/-! ## The invariant -/

structure Inv (uuid4 : ℕ → String) (str : Json → String) (s : Client) : Prop where
  drawn : ∀ (n : ℕ) (c : Call) (id : String), s.calls[n]? = some c → c.requestId = some id →
    ∃ k < s.drawn, uuid4 k = id
  distinct : ∀ (n m : ℕ) (c d : Call) (id : String), s.calls[n]? = some c → s.calls[m]? = some d →
    c.requestId = some id → d.requestId = some id → n = m
  requested : ∀ (n : ℕ) (c : Call), s.calls[n]? = some c → c.outcome = none → c.requestId.isSome
  pending : ∀ (id : String) (n : ℕ), s.pending.get? id = some n ↔
    ∃ c : Call, s.calls[n]? = some c ∧ c.requestId = some id ∧ c.outcome = none
  result : ∀ (n : ℕ) (c : Call) (receipt : Json), s.calls[n]? = some c →
    c.future = .result receipt → ∃ payload ∈ s.handled,
      payload.getStr? "requestId" = c.requestId ∧ resultOf str payload = .result receipt
  returned : ∀ (n : ℕ) (c : Call) (receipt : Json), s.calls[n]? = some c →
    c.outcome = some (.ok receipt) → c.future = .result receipt
  waiting : ∀ (n : ℕ) (c : Call), s.calls[n]? = some c → c.future = .pending → c.mustCancel = false
  terminated : s.terminalError.isSome → ∀ (n : ℕ) (c : Call), s.calls[n]? = some c →
    c.outcome = none → c.future ≠ .pending
  reader : s.readerError.isSome → s.terminalError.isSome

theorem inv_new : new.Inv uuid4 str where
  drawn := by simp [new]
  distinct := by simp [new]
  requested := by simp [new]
  pending := by
    intro id n
    constructor
    · exact nofun
    · rintro ⟨c, hc, -⟩
      simp [new] at hc
  result := by simp [new]
  returned := by simp [new]
  waiting := by simp [new]
  terminated := nofun
  reader := nofun

/-- What may happen to the calls besides their outcomes. -/
structure Completes (s s' : Client) (str : Json → String) (f : ℕ → Call → Call) : Prop where
  calls : ∀ n : ℕ, s'.calls[n]? = (s.calls[n]?).map (f n)
  same : ∀ (n : ℕ) (c : Call), s.calls[n]? = some c →
    (f n c).requestId = c.requestId ∧ (f n c).outcome = c.outcome
  /-- a future that is done stays as it is -/
  done : ∀ (n : ℕ) (c : Call), s.calls[n]? = some c → c.future ≠ .pending →
    (f n c).future = c.future
  result : ∀ (n : ℕ) (c : Call) (receipt : Json), s.calls[n]? = some c → c.future = .pending →
    (f n c).future = .result receipt → ∃ payload ∈ s'.handled,
      payload.getStr? "requestId" = c.requestId ∧ resultOf str payload = .result receipt
  waiting : ∀ (n : ℕ) (c : Call), s.calls[n]? = some c → (f n c).future = .pending →
    (f n c).mustCancel = c.mustCancel
  terminated : s'.terminalError.isSome → s.terminalError.isSome ∨ ∀ (n : ℕ) (c : Call),
    s.calls[n]? = some c → c.outcome = none → (f n c).future ≠ .pending
  pending : s'.pending = s.pending
  drawn : s'.drawn = s.drawn
  handled : s.handled ⊆ s'.handled

theorem Inv.completes (h : s.Inv uuid4 str) {s' : Client} {f : ℕ → Call → Call}
    (hf : Completes s s' str f) (hreader : s'.readerError.isSome → s'.terminalError.isSome) :
    s'.Inv uuid4 str := by
  have hget : ∀ {n : ℕ} {c' : Call}, s'.calls[n]? = some c' → ∃ c : Call, s.calls[n]? = some c ∧
      f n c = c' ∧ c'.requestId = c.requestId ∧ c'.outcome = c.outcome := by
    intro n c' hc'
    rw [hf.calls] at hc'
    obtain ⟨c, hc, rfl⟩ := Option.map_eq_some_iff.mp hc'
    exact ⟨c, hc, rfl, hf.same n c hc⟩
  refine ⟨fun n c' id hc' hid => ?_, fun n m c' d' id hc' hd' hid hid' => ?_, fun n c' hc' hnone => ?_,
    fun id n => ?_, fun n c' receipt hc' hfuture => ?_, fun n c' receipt hc' hreturned => ?_,
    fun n c' hc' hfuture => ?_, fun hterminal n c' hc' hnone => ?_, hreader⟩
  · obtain ⟨c, hc, rfl, hsame, -⟩ := hget hc'
    rw [hf.drawn]
    exact h.drawn n c id hc (hsame.symm.trans hid)
  · obtain ⟨c, hc, rfl, hsame, -⟩ := hget hc'
    obtain ⟨d, hd, rfl, hsame', -⟩ := hget hd'
    exact h.distinct n m c d id hc hd (hsame.symm.trans hid) (hsame'.symm.trans hid')
  · obtain ⟨c, hc, rfl, hsame, houtcome⟩ := hget hc'
    rw [hsame]
    exact h.requested n c hc (houtcome.symm.trans hnone)
  · rw [hf.pending, h.pending]
    constructor
    · rintro ⟨c, hc, hid, hnone⟩
      obtain ⟨hsame, houtcome⟩ := hf.same n c hc
      exact ⟨f n c, by rw [hf.calls, hc]; rfl, hsame.trans hid, houtcome.trans hnone⟩
    · rintro ⟨c', hc', hid, hnone⟩
      obtain ⟨c, hc, rfl, hsame, houtcome⟩ := hget hc'
      exact ⟨c, hc, hsame.symm.trans hid, houtcome.symm.trans hnone⟩
  · obtain ⟨c, hc, rfl, hsame, -⟩ := hget hc'
    rw [hsame]
    by_cases hpending : c.future = .pending
    · exact hf.result n c receipt hc hpending hfuture
    · rw [hf.done n c hc hpending] at hfuture
      obtain ⟨payload, hmem, hrest⟩ := h.result n c receipt hc hfuture
      exact ⟨payload, hf.handled hmem, hrest⟩
  · obtain ⟨c, hc, rfl, -, houtcome⟩ := hget hc'
    have hbefore := h.returned n c receipt hc (houtcome.symm.trans hreturned)
    rw [hf.done n c hc (by rw [hbefore]; simp), hbefore]
  · obtain ⟨c, hc, rfl, -, -⟩ := hget hc'
    have hpending : c.future = .pending := by
      by_contra hne
      exact hne ((hf.done n c hc hne).symm.trans hfuture)
    rw [hf.waiting n c hc hfuture]
    exact h.waiting n c hc hpending
  · obtain ⟨c, hc, rfl, -, houtcome⟩ := hget hc'
    have hnone' := houtcome.symm.trans hnone
    obtain hbefore | hall := hf.terminated hterminal
    · have hdone := h.terminated hbefore n c hc hnone'
      rw [hf.done n c hc hdone]
      exact hdone
    · exact hall n c hc hnone'

/-! ## Steps that leave the outcomes alone -/

theorem complete_of_ne {future : FutureState} (h : future ≠ .pending) (next : FutureState) :
    FutureState.complete future next = future := by
  cases future with
  | pending => exact absurd rfl h
  | result receipt | exception error | cancelled => rfl

theorem complete_ne_pending {next : FutureState} (h : next ≠ .pending) (future : FutureState) :
    FutureState.complete future next ≠ .pending := by
  cases future <;> simp [FutureState.complete, h]

/-- The future of a call comes to a state, unless it is done. -/
def completeCall (next : FutureState) (c : Call) : Call :=
  { c with future := FutureState.complete c.future next }

theorem Inv.handleResult (h : s.Inv uuid4 str) (payload : Json) :
    (s.handleResult str payload).Inv uuid4 str := by
  unfold Client.handleResult
  split
  · exact h
  · rename_i requestId hid
    split
    · refine h.completes (f := fun _ c => c) ⟨fun n => by simp, fun _ _ _ => ⟨rfl, rfl⟩,
        fun _ _ _ _ => rfl, fun n c receipt _ hpending hresult => ?_, fun _ _ _ _ => rfl, .inl, rfl,
        rfl, List.subset_append_left _ _⟩ h.reader
      rw [hpending] at hresult
      cases hresult
    · rename_i n hn
      obtain ⟨d, hd, hdid, -⟩ := (h.pending requestId n).mp hn
      refine h.completes (f := fun m c => if n = m then completeCall (resultOf str payload) c else c)
        ⟨fun m => ?_, fun m c _ => ?_, fun m c _ hdone => ?_,
          fun m c receipt hc hpending hresult => ?_, fun m c _ _ => ?_, .inl, rfl, rfl,
          List.subset_append_left _ _⟩ h.reader
      · simp only [List.getElem?_modify]
        rfl
      · split_ifs <;> exact ⟨rfl, rfl⟩
      · split_ifs
        · exact complete_of_ne hdone _
        · rfl
      · split_ifs at hresult with hnm
        · subst hnm
          rw [hd, Option.some_inj] at hc
          subst hc
          rw [completeCall, hpending] at hresult
          exact ⟨payload, List.mem_append_right _ (List.mem_singleton.mpr rfl), hid.trans hdid.symm,
            hresult⟩
        · rw [hpending] at hresult
          cases hresult
      · split_ifs <;> rfl

theorem getElem?_completeAll (next : FutureState) (hnext : next ≠ .pending) (ns : List ℕ)
    (calls : List Call) (m : ℕ) :
    (ns.foldl (fun cs n => cs.modify n (completeCall next)) calls)[m]? =
      (calls[m]?).map fun c => if m ∈ ns then completeCall next c else c := by
  induction ns generalizing calls with
  | nil => simp
  | cons n ns ih =>
    rw [List.foldl_cons, ih, List.getElem?_modify]
    cases calls[m]? with
    | none => rfl
    | some c =>
      by_cases hnm : n = m
      · subst hnm
        by_cases hmem : n ∈ ns
        · have htwice : completeCall next (completeCall next c) = completeCall next c := by
            unfold completeCall
            rw [complete_of_ne (complete_ne_pending hnext c.future)]
          simp [hmem, htwice]
        · simp [hmem]
      · simp [hnm, Ne.symm hnm]

/-- The error that termination gives to what is pending. -/
def rejection : FutureState := .exception (.eof closedMessage)

theorem rejection_ne_pending : rejection ≠ .pending := by simp [rejection]

theorem getElem?_rejectPending (s : Client) (error : PyError) (n : ℕ) :
    (s.rejectPending error).calls[n]? =
      (s.calls[n]?).map fun c => if n ∈ s.pending.values then completeCall rejection c else c :=
  getElem?_completeAll rejection rejection_ne_pending s.pending.values s.calls n

theorem Inv.mem_pending (h : s.Inv uuid4 str) {n : ℕ} {c : Call} (hc : s.calls[n]? = some c)
    (hnone : c.outcome = none) : n ∈ s.pending.values := by
  obtain ⟨id, hid⟩ := Option.isSome_iff_exists.mp (h.requested n c hc hnone)
  exact mem_values_iff.mpr ⟨id, (h.pending id n).mpr ⟨c, hc, hid, hnone⟩⟩

theorem rejectPending_terminalError (s : Client) (error : PyError) :
    (s.rejectPending error).terminalError.isSome = true := by
  simp [Client.rejectPending]

theorem Inv.rejectPending (h : s.Inv uuid4 str) (error : PyError) :
    (s.rejectPending error).Inv uuid4 str := by
  refine h.completes
    (f := fun n c => if n ∈ s.pending.values then completeCall rejection c else c)
    ⟨getElem?_rejectPending s error, fun n c _ => ?_, fun n c _ hdone => ?_,
      fun n c receipt _ hpending hresult => ?_, fun n c _ _ => ?_, fun _ => .inr fun n c hc hnone => ?_,
      rfl, rfl, List.Subset.refl _⟩ fun _ => s.rejectPending_terminalError error
  · split_ifs <;> exact ⟨rfl, rfl⟩
  · split_ifs
    · exact complete_of_ne hdone _
    · rfl
  · split_ifs at hresult
    · rw [completeCall, hpending] at hresult
      cases hresult
    · rw [hpending] at hresult
      cases hresult
  · split_ifs <;> rfl
  · rw [if_pos (h.mem_pending hc hnone)]
    exact complete_ne_pending rejection_ne_pending _

theorem Inv.terminate (h : s.Inv uuid4 str) (error : PyError) :
    (s.terminate error).Inv uuid4 str := by
  unfold Client.terminate
  split_ifs
  · exact h
  · exact { h.rejectPending error with reader := fun _ => s.rejectPending_terminalError error }

theorem getElem?_setCall {calls : List Call} {i : ℕ} {c c' : Call} (hc : calls[i]? = some c)
    (n : ℕ) : (calls.set i c')[n]? = (calls[n]?).map fun d => if n = i then c' else d := by
  rw [List.getElem?_set]
  by_cases hn : i = n
  · subst hn
    simp [(List.getElem?_eq_some_iff.mp hc).1]
  · rw [if_neg hn]
    cases calls[n]? with
    | none => rfl
    | some d => simp [Ne.symm hn]

theorem cancel_same (c : Call) :
    c.cancel.requestId = c.requestId ∧ c.cancel.outcome = c.outcome := by
  unfold Call.cancel
  split <;> exact ⟨rfl, rfl⟩

theorem cancel_done {c : Call} (h : c.future ≠ .pending) : c.cancel.future = c.future := by
  unfold Call.cancel
  split
  · exact absurd ‹_› h
  · rfl

theorem cancel_pending {c : Call} (h : c.future = .pending) : c.cancel.future = .cancelled := by
  unfold Call.cancel
  rw [h]

theorem Inv.cancel (h : s.Inv uuid4 str) (i : ℕ) : (s.cancel i).Inv uuid4 str := by
  unfold Client.cancel
  split
  · exact h
  · rename_i c hc
    split_ifs
    · have hcall : ∀ (n : ℕ) (d : Call), s.calls[n]? = some d →
          (if n = i then c.cancel else d) = if n = i then d.cancel else d := by
        intro n d hd
        by_cases hn : n = i
        · subst hn
          rw [hc, Option.some_inj] at hd
          rw [hd]
        · rw [if_neg hn, if_neg hn]
      refine h.completes (f := fun n d => if n = i then c.cancel else d)
        ⟨fun n => getElem?_setCall hc n, fun n d hd => ?_, fun n d hd hdone => ?_,
          fun n d receipt hd hpending hresult => ?_, fun n d hd hpending => ?_, .inl, rfl, rfl,
          List.Subset.refl _⟩ h.reader
      · rw [hcall n d hd]
        split_ifs
        · exact cancel_same d
        · exact ⟨rfl, rfl⟩
      · rw [hcall n d hd]
        split_ifs
        · exact cancel_done hdone
        · rfl
      · rw [hcall n d hd] at hresult
        split_ifs at hresult
        · rw [cancel_pending hpending] at hresult
          cases hresult
        · rw [hpending] at hresult
          cases hresult
      · rw [hcall n d hd] at hpending ⊢
        split_ifs at hpending with hn
        · by_cases hbefore : d.future = .pending
          · rw [cancel_pending hbefore] at hpending
            cases hpending
          · rw [cancel_done hbefore] at hpending
            exact absurd hpending hbefore
        · rw [if_neg hn]
    · exact h

/-! ## Calls that begin and calls that end -/

theorem Inv.called (h : s.Inv uuid4 str) {c : Call} {s' : Client}
    (hcalls : s'.calls = s.calls ++ [c]) (hfuture : c.future = .pending)
    (hcancel : c.mustCancel = false) (hreturned : ∀ receipt, c.outcome ≠ some (.ok receipt))
    (hid : ∀ id, c.requestId = some id → (∃ k < s'.drawn, uuid4 k = id) ∧
      ∀ (n : ℕ) (d : Call), s.calls[n]? = some d → d.requestId ≠ some id)
    (hrequested : c.outcome = none → c.requestId.isSome ∧ s.terminalError = none)
    (hpending : ∀ id n, s'.pending.get? id = some n ↔
      s.pending.get? id = some n ∨ c.requestId = some id ∧ c.outcome = none ∧ n = s.calls.length)
    (hdrawn : s.drawn ≤ s'.drawn) (hhandled : s'.handled = s.handled)
    (hterminal : s'.terminalError = s.terminalError) (hreader : s'.readerError = s.readerError) :
    s'.Inv uuid4 str := by
  have hget : ∀ {n : ℕ} {d : Call}, s'.calls[n]? = some d →
      s.calls[n]? = some d ∨ n = s.calls.length ∧ d = c := by
    intro n d hd
    rw [hcalls] at hd
    exact (getElem?_append_cases hd).symm.imp_left And.right
  have hold : ∀ {n : ℕ} {d : Call}, s.calls[n]? = some d → s'.calls[n]? = some d := by
    intro n d hd
    rw [hcalls, getElem?_append_of_some hd]
  have hlast : s'.calls[s.calls.length]? = some c := by rw [hcalls, List.getElem?_concat_length]
  refine ⟨fun n d id hd hdid => ?_, fun n m d e id hd he hdid heid => ?_, fun n d hd hnone => ?_,
    fun id n => ?_, fun n d receipt hd hresult => ?_, fun n d receipt hd hok => ?_,
    fun n d hd hwait => ?_, fun hterm n d hd hnone => ?_, fun hr => ?_⟩
  · obtain hd | ⟨-, rfl⟩ := hget hd
    · obtain ⟨k, hk, huuid⟩ := h.drawn n d id hd hdid
      exact ⟨k, Nat.lt_of_lt_of_le hk hdrawn, huuid⟩
    · exact (hid id hdid).1
  · obtain hd | ⟨rfl, rfl⟩ := hget hd
    · obtain he | ⟨rfl, rfl⟩ := hget he
      · exact h.distinct n m d e id hd he hdid heid
      · exact absurd hdid ((hid id heid).2 n d hd)
    · obtain he | ⟨rfl, rfl⟩ := hget he
      · exact absurd heid ((hid id hdid).2 m e he)
      · rfl
  · obtain hd | ⟨-, rfl⟩ := hget hd
    · exact h.requested n d hd hnone
    · exact (hrequested hnone).1
  · rw [hpending, h.pending]
    constructor
    · rintro (⟨d, hd, hrest⟩ | ⟨hcid, hcnone, rfl⟩)
      · exact ⟨d, hold hd, hrest⟩
      · exact ⟨c, hlast, hcid, hcnone⟩
    · rintro ⟨d, hd, hdid, hnone⟩
      obtain hd | ⟨hn, rfl⟩ := hget hd
      · exact .inl ⟨d, hd, hdid, hnone⟩
      · exact .inr ⟨hdid, hnone, hn⟩
  · rw [hhandled]
    obtain hd | ⟨-, rfl⟩ := hget hd
    · exact h.result n d receipt hd hresult
    · rw [hfuture] at hresult
      cases hresult
  · obtain hd | ⟨-, rfl⟩ := hget hd
    · exact h.returned n d receipt hd hok
    · exact absurd hok (hreturned receipt)
  · obtain hd | ⟨-, rfl⟩ := hget hd
    · exact h.waiting n d hd hwait
    · exact hcancel
  · rw [hterminal] at hterm
    obtain hd | ⟨-, rfl⟩ := hget hd
    · exact h.terminated hterm n d hd hnone
    · rw [(hrequested hnone).2] at hterm
      cases hterm
  · rw [hterminal]
    exact h.reader (hreader ▸ hr)

theorem Inv.raise (h : s.Inv uuid4 str) (error : PyError) : (s.raise error).Inv uuid4 str :=
  h.called rfl rfl rfl (fun _ => by simp) nofun nofun
    (fun id n => by simp [Client.raise]) (Nat.le_refl _) rfl rfl rfl

theorem Inv.declare (huuid : Function.Injective uuid4) (h : s.Inv uuid4 str)
    (declaration : PyValue) (writes : Bool) :
    (s.declare uuid4 declaration writes).Inv uuid4 str := by
  -- the id that is drawn is that of no call
  have hnew : ∀ (n : ℕ) (d : Call), s.calls[n]? = some d → d.requestId ≠ some (uuid4 s.drawn) := by
    intro n d hd hid
    obtain ⟨k, hk, heq⟩ := h.drawn n d _ hd hid
    exact absurd (huuid heq) (Nat.ne_of_lt hk)
  have hunused : s.pending.get? (uuid4 s.drawn) = none := by
    cases hget : s.pending.get? (uuid4 s.drawn) with
    | none => rfl
    | some n =>
      obtain ⟨d, hd, hid, -⟩ := (h.pending _ n).mp hget
      exact absurd hid (hnew n d hd)
  have hdrawn : ∀ id, some (uuid4 s.drawn) = some id → (∃ k < s.drawn + 1, uuid4 k = id) ∧
      ∀ (n : ℕ) (d : Call), s.calls[n]? = some d → d.requestId ≠ some id := by
    rintro id hid
    obtain rfl := Option.some_inj.mp hid
    exact ⟨⟨s.drawn, Nat.lt_succ_self _, rfl⟩, hnew⟩
  unfold Client.declare
  by_cases hterminal : s.terminalError.isSome
  · rw [if_pos hterminal]
    exact h.raise _
  · rw [if_neg hterminal]
    rw [Option.not_isSome_iff_eq_none] at hterminal
    split
    · exact h.raise _
    · cases writes with
      | true =>
        refine h.called rfl rfl rfl (fun _ => by simp) hdrawn (fun _ => ⟨rfl, hterminal⟩)
          (fun id n => ?_) (Nat.le_succ _) rfl rfl rfl
        show (s.pending.set (uuid4 s.drawn) s.calls.length).get? id = some n ↔ _
        rw [get?_set]
        by_cases hid : uuid4 s.drawn = id
        · subst hid
          simp [hunused, eq_comm]
        · simp [hid]
      | false =>
        refine h.called rfl rfl rfl (fun _ => by simp) hdrawn (fun h => by cases h)
          (fun id n => ?_) (Nat.le_succ _) rfl rfl rfl
        show ((s.pending.set (uuid4 s.drawn) s.calls.length).delete (uuid4 s.drawn)).get? id =
          some n ↔ _
        rw [get?_delete, get?_set]
        by_cases hid : uuid4 s.drawn = id
        · subst hid
          simp [hunused]
        · simp [hid]

theorem settled?_ok {c : Call} {receipt : Json} (h : c.settled? = some (.ok receipt)) :
    c.future = .result receipt := by
  unfold Call.settled? at h
  split at h
  · cases h
  · rename_i hfuture
    split_ifs at h
    · cases h
    · rw [hfuture, Except.ok.inj (Option.some.inj h)]
  · cases h
  · cases h

theorem Inv.settle (h : s.Inv uuid4 str) {i : ℕ} {c : Call} {id : String}
    {outcome : Except PyError Json} (hc : s.calls[i]? = some c) (hid : c.requestId = some id)
    (hsettled : c.settled? = some outcome) :
    ({ s with
        pending := s.pending.delete id
        calls := s.calls.set i { c with outcome := some outcome } } : Client).Inv uuid4 str := by
  have hget : ∀ {n : ℕ} {d : Call}, (s.calls.set i { c with outcome := some outcome })[n]? = some d →
      n = i ∧ d = { c with outcome := some outcome } ∨ n ≠ i ∧ s.calls[n]? = some d := by
    intro n d hd
    rw [getElem?_setCall hc] at hd
    obtain ⟨e, he, rfl⟩ := Option.map_eq_some_iff.mp hd
    by_cases hn : n = i
    · exact .inl ⟨hn, if_pos hn⟩
    · exact .inr ⟨hn, he.trans (congrArg some (if_neg hn).symm)⟩
  refine ⟨fun n d id' hd hdid => ?_, fun n m d e id' hd he hdid heid => ?_, fun n d hd hdnone => ?_,
    fun id' n => ?_, fun n d receipt hd hresult => ?_, fun n d receipt hd hok => ?_,
    fun n d hd hwait => ?_, fun hterm n d hd hdnone => ?_, h.reader⟩
  · obtain ⟨rfl, rfl⟩ | ⟨-, hd⟩ := hget hd
    · exact h.drawn n c id' hc hdid
    · exact h.drawn n d id' hd hdid
  · obtain ⟨rfl, rfl⟩ | ⟨-, hd'⟩ := hget hd
    · obtain ⟨rfl, rfl⟩ | ⟨-, he'⟩ := hget he
      · rfl
      · exact h.distinct n m c e id' hc he' hdid heid
    · obtain ⟨rfl, rfl⟩ | ⟨-, he'⟩ := hget he
      · exact h.distinct n m d c id' hd' hc hdid heid
      · exact h.distinct n m d e id' hd' he' hdid heid
  · obtain ⟨-, rfl⟩ | ⟨-, hd⟩ := hget hd
    · cases hdnone
    · exact h.requested n d hd hdnone
  · show (s.pending.delete id).get? id' = some n ↔ _
    rw [get?_delete]
    constructor
    · intro hpending
      split_ifs at hpending with hne
      obtain ⟨d, hd, hdid, hdnone⟩ := (h.pending id' n).mp hpending
      have hni : n ≠ i := by
        rintro rfl
        rw [hc, Option.some_inj] at hd
        rw [← hd, hid, Option.some_inj] at hdid
        exact hne hdid
      refine ⟨d, ?_, hdid, hdnone⟩
      rw [getElem?_setCall hc, hd, Option.map_some, if_neg hni]
    · rintro ⟨d, hd, hdid, hdnone⟩
      obtain ⟨-, rfl⟩ | ⟨hni, hd⟩ := hget hd
      · cases hdnone
      · have hne : id ≠ id' := by
          rintro rfl
          exact hni (h.distinct n i d c id hd hc hdid hid)
        rw [if_neg hne]
        exact (h.pending id' n).mpr ⟨d, hd, hdid, hdnone⟩
  · obtain ⟨rfl, rfl⟩ | ⟨-, hd⟩ := hget hd
    · exact h.result n c receipt hc hresult
    · exact h.result n d receipt hd hresult
  · obtain ⟨rfl, rfl⟩ | ⟨-, hd⟩ := hget hd
    · exact settled?_ok (hsettled.trans hok)
    · exact h.returned n d receipt hd hok
  · obtain ⟨rfl, rfl⟩ | ⟨-, hd⟩ := hget hd
    · exact h.waiting n c hc hwait
    · exact h.waiting n d hd hwait
  · obtain ⟨-, rfl⟩ | ⟨-, hd⟩ := hget hd
    · cases hdnone
    · exact h.terminated hterm n d hd hdnone

theorem Inv.resume (h : s.Inv uuid4 str) (i : ℕ) : (s.resume i).Inv uuid4 str := by
  unfold Client.resume
  split
  · exact h
  · rename_i c hc
    split
    · rename_i hid _ hsettled
      exact h.settle hc hid hsettled
    · exact h

theorem Inv.next (huuid : Function.Injective uuid4) (h : s.Inv uuid4 str) (a : Action) :
    (s.next uuid4 str a).Inv uuid4 str := by
  cases a with
  | declare declaration writes => exact h.declare huuid declaration writes
  | resume i => exact h.resume i
  | cancel i => exact h.cancel i
  | frame code payload =>
    simp only [Client.next]
    split_ifs
    · exact h
    · exact h.handleResult payload
    · exact h.terminate _
    · exact h
  | pumpFails error =>
    simp only [Client.next]
    split_ifs
    · exact h
    · exact { h.terminate error with }
  | close => exact { h.terminate (.eof "control reader stopped") with }

theorem inv_of_reachable (huuid : Function.Injective uuid4)
    (h : (system uuid4 str).Reachable System.anyStep s) : s.Inv uuid4 str :=
  h.invariant_ofFun inv_new fun _ a hs _ => hs.next huuid a

/-! ## The protocol -/

structure Call.Waits (c : Call) : Prop where
  outcome : c.outcome = none
  future : c.future = .pending

/-- What a reply means for the call that it belongs to. -/
def Answers (str : Json → String) (payload : Json) (outcome : Option (Except PyError Json)) :
    Prop :=
  (∃ receipt, resultOf str payload = .result receipt ∧ outcome = some (.ok receipt)) ∨
    ∃ error, resultOf str payload = .exception error ∧ outcome = some (.error error)

structure Protocol (uuid4 : ℕ → String) (str : Json → String) (s : Client) : Prop where
  /-- what a call returns is the receipt of a reply with its id that accepts -/
  own : ∀ (n : ℕ) (c : Call) (receipt : Json), s.calls[n]? = some c →
    c.outcome = some (.ok receipt) → ∃ payload ∈ s.handled,
      payload.getStr? "requestId" = c.requestId ∧ payload.get? "accepted" = some (.bool true) ∧
        payload.get? "receipt" = some receipt
  /-- a call that has settled stays as it is -/
  once : ∀ (n : ℕ) (c : Call) (a : Action), s.calls[n]? = some c → c.outcome.isSome →
    (s.next uuid4 str a).calls[n]? = some c
  /-- a reply changes nothing for other requests -/
  others : ∀ (n : ℕ) (c : Call) (payload : Json), s.calls[n]? = some c →
    payload.getStr? "requestId" ≠ c.requestId → (s.handleResult str payload).calls[n]? = some c
  /-- a reply settles its request, also when it is malformed -/
  replied : ∀ (n : ℕ) (c : Call) (payload : Json), s.calls[n]? = some c → Call.Waits c →
    payload.getStr? "requestId" = c.requestId →
      ∃ d, ((s.handleResult str payload).resume n).calls[n]? = some d ∧
        Answers str payload d.outcome
  /-- termination settles what waits -/
  rejected : ∀ (n : ℕ) (c : Call) (error : PyError), s.calls[n]? = some c → Call.Waits c →
    ∃ d, ((s.rejectPending error).resume n).calls[n]? = some d ∧
      d.outcome = some (.error (.eof closedMessage))
  /-- and nothing waits after it -/
  terminated : s.terminalError.isSome → (∀ (n : ℕ) (c : Call), s.calls[n]? = some c →
      ¬ Call.Waits c) ∧
    ∀ declaration writes, s.declare uuid4 declaration writes = s.raise (.eof closedMessage)

section

variable (h : s.Inv uuid4 str) {n : ℕ} {c : Call} (hc : s.calls[n]? = some c)
include h hc

end

end Client

end TransformHub.Runner.Manifest
