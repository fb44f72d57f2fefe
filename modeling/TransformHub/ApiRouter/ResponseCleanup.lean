import TransformHub.ApiRouter.ClientTransports

/-!
# The cleanup of a response

What may have been done with a response and with a dispatch, and what leaves it so: nothing
(`Fresh`), a cleanup of its own (`Disposed`), or `responseCleanup` (`Owned`).
-/

namespace TransformHub.ApiRouter

/-! ## Responses -/

namespace RoutedBrokerResponse

variable {r r' r'' : RoutedBrokerResponse}

structure Fresh (r : RoutedBrokerResponse) : Prop where
  cleanups : r.cleanups = 0
  cleanup : r.cleanup = .notCalled
  late : r.late = false
  owned : r.owned = false
  cleanupPromise : r.cleanupPromise = false
  requestListener : r.requestListener = false
  dispatchListener : r.dispatchListener = false

/-- It has been cleaned up, and not by `responseCleanup`. -/
structure Disposed (r : RoutedBrokerResponse) : Prop where
  cleanups : r.cleanups = 1
  owned : r.owned = false
  cleanupPromise : r.cleanupPromise = false
  requestListener : r.requestListener = false
  dispatchListener : r.dispatchListener = false

/-- `responseCleanup` has it, and its cleanup has not been called. -/
structure Taken (r : RoutedBrokerResponse) : Prop where
  cleanups : r.cleanups = 0
  cleanup : r.cleanup = .notCalled
  owned : r.owned = true
  cleanupPromise : r.cleanupPromise = false

/-- `responseCleanup` has it, and will have cleaned it up when its body is finished. -/
structure Owned (r : RoutedBrokerResponse) : Prop where
  owned : r.owned = true
  called : r.cleanupPromise = true → r.cleanups = 1 ∧ r.cleanup ≠ .notCalled
  uncalled : r.cleanupPromise = false → r.Taken ∧ r.body ≠ .finished
  released : r.cleanup.isSettled = true → r.requestListener = false ∧ r.dispatchListener = false

/-- Listeners have gone, and the body may have been destroyed. -/
structure Quieter (r r' : RoutedBrokerResponse) : Prop where
  body : r'.body = .finished → r.body = .finished
  cleanups : r'.cleanups = r.cleanups
  cleanup : r'.cleanup = r.cleanup
  late : r'.late = r.late
  owned : r'.owned = r.owned
  cleanupPromise : r'.cleanupPromise = r.cleanupPromise
  requestListener : r'.requestListener = true → r.requestListener = true
  dispatchListener : r'.dispatchListener = true → r.dispatchListener = true

theorem Quieter.refl (r : RoutedBrokerResponse) :
    r.Quieter r := ⟨id, rfl, rfl, rfl, rfl, rfl, id, id⟩

theorem Quieter.trans (h : r.Quieter r') (h' : r'.Quieter r'') : r.Quieter r'' where
  body := h.body ∘ h'.body
  cleanups := h'.cleanups.trans h.cleanups
  cleanup := h'.cleanup.trans h.cleanup
  late := h'.late.trans h.late
  owned := h'.owned.trans h.owned
  cleanupPromise := h'.cleanupPromise.trans h.cleanupPromise
  requestListener := h.requestListener ∘ h'.requestListener
  dispatchListener := h.dispatchListener ∘ h'.dispatchListener

theorem quieter_destroy (r : RoutedBrokerResponse) : r.Quieter r.destroy := by
  unfold destroy
  split
  · exact ⟨nofun, rfl, rfl, rfl, rfl, rfl, id, id⟩
  · exact .refl r

theorem quieter_abort (r : RoutedBrokerResponse) : r.Quieter r.abort := by
  unfold abort
  split
  · exact (quieter_destroy r).trans
      ⟨id, rfl, rfl, rfl, rfl, rfl, id, fun h => absurd h Bool.false_ne_true⟩
  · exact .refl r

theorem eq_false_of_imp {b b' : Bool} (h : b' = true → b = true) (hb : b = false) : b' = false :=
  Bool.eq_false_iff.mpr fun hb' => absurd (h hb') (Bool.eq_false_iff.mp hb)

theorem Fresh.quieter (h : r.Fresh) (hq : r.Quieter r') : r'.Fresh where
  cleanups := hq.cleanups.trans h.cleanups
  cleanup := hq.cleanup.trans h.cleanup
  late := hq.late.trans h.late
  owned := hq.owned.trans h.owned
  cleanupPromise := hq.cleanupPromise.trans h.cleanupPromise
  requestListener := eq_false_of_imp hq.requestListener h.requestListener
  dispatchListener := eq_false_of_imp hq.dispatchListener h.dispatchListener

theorem Disposed.quieter (h : r.Disposed) (hq : r.Quieter r') : r'.Disposed where
  cleanups := hq.cleanups.trans h.cleanups
  owned := hq.owned.trans h.owned
  cleanupPromise := hq.cleanupPromise.trans h.cleanupPromise
  requestListener := eq_false_of_imp hq.requestListener h.requestListener
  dispatchListener := eq_false_of_imp hq.dispatchListener h.dispatchListener

theorem Taken.quieter (h : r.Taken) (hq : r.Quieter r') : r'.Taken where
  cleanups := hq.cleanups.trans h.cleanups
  cleanup := hq.cleanup.trans h.cleanup
  owned := hq.owned.trans h.owned
  cleanupPromise := hq.cleanupPromise.trans h.cleanupPromise

theorem Owned.quieter (h : r.Owned) (hq : r.Quieter r') : r'.Owned where
  owned := hq.owned.trans h.owned
  called := fun hcalled => by
    rw [hq.cleanups, hq.cleanup]
    exact h.called (hq.cleanupPromise ▸ hcalled)
  uncalled := fun huncalled => by
    obtain ⟨htaken, hbody⟩ := h.uncalled (hq.cleanupPromise ▸ huncalled)
    exact ⟨htaken.quieter hq, fun hfinished => hbody (hq.body hfinished)⟩
  released := fun hsettled => by
    obtain ⟨hrequest, hdispatch⟩ := h.released (hq.cleanup ▸ hsettled)
    exact ⟨eq_false_of_imp hq.requestListener hrequest,
      eq_false_of_imp hq.dispatchListener hdispatch⟩

theorem fresh_new (status : ℕ) (headers : List (String × HeaderValue)) (body : BodyStage) :
    (new status headers body).Fresh := ⟨rfl, rfl, rfl, rfl, rfl, rfl, rfl⟩

theorem Fresh.callCleanup (h : r.Fresh) : r.callCleanup.Disposed :=
  { h with
    cleanups := congrArg (· + 1) h.cleanups }

theorem Fresh.ownLateCleanup (h : r.Fresh) :
    r.ownLateCleanup.late = true ∧ r.ownLateCleanup.Disposed := by
  have hdestroyed : { r.destroy with late := true }.callCleanup.Disposed :=
    { (h.quieter (quieter_destroy r)).callCleanup with }
  rw [RoutedBrokerResponse.ownLateCleanup, if_neg (Bool.eq_false_iff.mp h.late)]
  exact ⟨rfl, hdestroyed⟩

theorem ownLateCleanup_of_late (h : r.late = true) : r.ownLateCleanup = r := if_pos h

theorem Taken.cleanUp (h : r.Taken) : r.cleanUp.Owned ∧ r.cleanUp.cleanupPromise = true := by
  rw [RoutedBrokerResponse.cleanUp, if_neg (Bool.eq_false_iff.mp h.cleanupPromise)]
  refine ⟨⟨h.owned, fun _ => ⟨congrArg (· + 1) h.cleanups, ?_⟩, fun hpromise => ?_,
    fun hsettled => ?_⟩, rfl⟩
  · exact nofun
  · cases hpromise
  · cases hsettled

theorem Owned.cleanUp (h : r.Owned) : r.cleanUp.Owned ∧ r.cleanUp.cleanupPromise = true := by
  cases hpromise : r.cleanupPromise with
  | false => exact (h.uncalled hpromise).1.cleanUp
  | true =>
    rw [RoutedBrokerResponse.cleanUp, if_pos hpromise]
    exact ⟨h, hpromise⟩

theorem Owned.cleanupPromise_of_cleanup_ne (h : r.Owned) (hcleanup : r.cleanup ≠ .notCalled) :
    r.cleanupPromise = true := by
  cases hpromise : r.cleanupPromise with
  | true => rfl
  | false => exact absurd (h.uncalled hpromise).1.cleanup hcleanup

theorem isSettled_of_cleanUp (hsettled : r.cleanUp.cleanup.isSettled = true) :
    r.cleanup.isSettled = true := by
  unfold RoutedBrokerResponse.cleanUp at hsettled
  split at hsettled
  · exact hsettled
  · cases hsettled

theorem Fresh.finish (h : r.Fresh) : r.finish.Fresh := by
  unfold RoutedBrokerResponse.finish
  rw [if_neg (Bool.eq_false_iff.mp h.owned)]
  exact { h with }

theorem Disposed.finish (h : r.Disposed) : r.finish.Disposed := by
  unfold RoutedBrokerResponse.finish
  rw [if_neg (Bool.eq_false_iff.mp h.owned)]
  exact { h with }

theorem Owned.finish (h : r.Owned) : r.finish.Owned ∧ r.finish.cleanupPromise = true := by
  unfold RoutedBrokerResponse.finish
  rw [if_pos h.owned]
  by_cases hpromise : r.cleanupPromise = true
  · have howned : ({ r with body := .finished } : RoutedBrokerResponse).Owned :=
      { h with uncalled := fun hnot => absurd hpromise (Bool.eq_false_iff.mp hnot) }
    exact howned.cleanUp
  · have htaken : ({ r with body := .finished } : RoutedBrokerResponse).Taken :=
      { (h.uncalled (Bool.eq_false_iff.mpr hpromise)).1 with }
    exact htaken.cleanUp

theorem isSettled_of_finish (hsettled : r.finish.cleanup.isSettled = true) :
    r.cleanup.isSettled = true := by
  unfold finish at hsettled
  dsimp only at hsettled
  split at hsettled
  · exact isSettled_of_cleanUp (r := { r with body := .finished }) hsettled
  · exact hsettled

theorem Disposed.settleCleanup (h : r.Disposed) (failure : Option BrokerError) :
    (r.settleCleanup failure).Disposed where
  cleanups := h.cleanups
  owned := h.owned
  cleanupPromise := h.cleanupPromise
  requestListener := by rw [RoutedBrokerResponse.settleCleanup, h.requestListener, Bool.false_and]
  dispatchListener := by rw [RoutedBrokerResponse.settleCleanup, h.dispatchListener, Bool.false_and]

theorem Owned.settleCleanup (h : r.Owned) (hpromise : r.cleanupPromise = true)
    (failure : Option BrokerError) : (r.settleCleanup failure).Owned where
  owned := h.owned
  called := fun _ => ⟨(h.called hpromise).1, nofun⟩
  uncalled := fun huncalled => absurd hpromise (Bool.eq_false_iff.mp huncalled)
  released := fun _ => by
    show (r.requestListener && !r.cleanupPromise) = false ∧
      (r.dispatchListener && !r.cleanupPromise) = false
    rw [hpromise, Bool.not_true, Bool.and_false, Bool.and_false]
    exact ⟨rfl, rfl⟩

end RoutedBrokerResponse

/-! ## Dispatches -/

namespace BrokerDispatch

variable {d d' d'' : BrokerDispatch} {r : RoutedBrokerResponse}

/-- Neither the listener nor the timer of `requestWithTimeout` is registered. -/
def Quiet (d : BrokerDispatch) : Prop := d.abortListener = false ∧ d.timer = false

/-- Its response is cleaned up when it comes, or has been so. -/
def Discarded (d : BrokerDispatch) : Prop :=
  d.discardLateResponse = true ∧
    (d.broker = .pending ∨ ∃ r, d.broker = .responded r ∧ r.late = true ∧ r.Disposed)

/-- What is known of a dispatch in the race of `requestWithTimeout`, and after it. -/
def Raced (d : BrokerDispatch) : Option (Option BrokerError) → Prop
  | none => d.broker = .pending
  | some none => ∃ r, d.broker = .responded r ∧
      (r.Fresh ∨ d.discardLateResponse = true ∧ r.late = true ∧ r.Disposed)
  | some (some _) => d.broker = .failed ∨ d.Discarded

/-- The response is in the hands of `responseCleanup`, which lets go of the dispatch with it. -/
structure Owns (d : BrokerDispatch) (r : RoutedBrokerResponse) : Prop where
  broker : d.broker = .responded r
  owned : r.Owned
  quiet : r.cleanup.isSettled = true → d.Quiet

/-- Nothing is registered for a dispatch that is done with, and its response is cleaned up. -/
def Done (d : BrokerDispatch) : Prop :=
  d.Quiet ∧ (d.broker = .failed ∨ d.Discarded ∨ ∃ r, d.broker = .responded r ∧ r.Disposed)

/-- Listeners and timers have gone. -/
structure Quieter (d d' : BrokerDispatch) : Prop where
  abortListener : d'.abortListener = true → d.abortListener = true
  timer : d'.timer = true → d.timer = true
  discardLateResponse : d.discardLateResponse = true → d'.discardLateResponse = true
  failed : d.broker = .failed → d'.broker = .failed
  pending : d.broker = .pending → d'.broker = .pending
  responded : ∀ r, d.broker = .responded r → ∃ r', d'.broker = .responded r' ∧ r.Quieter r'

theorem Quieter.refl (d : BrokerDispatch) : d.Quieter d :=
  ⟨id, id, id, id, id, fun r hr => ⟨r, hr, .refl r⟩⟩

theorem Quieter.trans (h : d.Quieter d') (h' : d'.Quieter d'') : d.Quieter d'' where
  abortListener := h.abortListener ∘ h'.abortListener
  timer := h.timer ∘ h'.timer
  discardLateResponse := h'.discardLateResponse ∘ h.discardLateResponse
  failed := h'.failed ∘ h.failed
  pending := h'.pending ∘ h.pending
  responded := fun r hr => by
    obtain ⟨r', hr', hquieter⟩ := h.responded r hr
    obtain ⟨r'', hr'', hquieter'⟩ := h'.responded r' hr'
    exact ⟨r'', hr'', hquieter.trans hquieter'⟩

theorem quieter_updateResponse {f : RoutedBrokerResponse → RoutedBrokerResponse}
    (hf : ∀ r : RoutedBrokerResponse, r.Quieter (f r)) : d.Quieter (d.updateResponse f) := by
  unfold updateResponse
  split
  · rename_i r hr
    refine ⟨id, id, id, fun hd => ?_, fun hd => ?_, fun r' hr' => ?_⟩
    · rw [hr] at hd
      cases hd
    · rw [hr] at hd
      cases hd
    · cases hr.symm.trans hr'
      exact ⟨f r, rfl, hf r⟩
  · exact .refl d

theorem updateResponse_eq (hr : d.broker = .responded r)
    (f : RoutedBrokerResponse → RoutedBrokerResponse) :
    d.updateResponse f = { d with broker := .responded (f r) } := by
  unfold updateResponse
  rw [hr]

theorem response?_eq (hr : d.broker = .responded r) : d.response? = some r := by
  unfold response?
  rw [hr]

theorem response?_eq_some : d.response? = some r ↔ d.broker = .responded r := by
  refine ⟨fun h => ?_, response?_eq⟩
  unfold response? at h
  split at h
  · rename_i r' hr
    cases h
    exact hr
  · cases h

theorem quieter_abort (d : BrokerDispatch) : d.Quieter d.abort :=
  have haborted : d.Quieter { d with aborted := true } := { Quieter.refl d with }
  haborted.trans (quieter_updateResponse RoutedBrokerResponse.quieter_abort)

theorem quiet_release (d : BrokerDispatch) : d.release.Quiet := ⟨rfl, rfl⟩

theorem Quiet.quieter (h : d.Quiet) (hq : d.Quieter d') : d'.Quiet :=
  ⟨RoutedBrokerResponse.eq_false_of_imp hq.abortListener h.1,
    RoutedBrokerResponse.eq_false_of_imp hq.timer h.2⟩

theorem Discarded.quieter (h : d.Discarded) (hq : d.Quieter d') : d'.Discarded := by
  refine ⟨hq.discardLateResponse h.1, h.2.imp hq.pending ?_⟩
  rintro ⟨r, hr, hlate, hdisposed⟩
  obtain ⟨r', hr', hquieter⟩ := hq.responded r hr
  exact ⟨r', hr', hquieter.late.trans hlate, hdisposed.quieter hquieter⟩

theorem Raced.quieter {outcome : Option (Option BrokerError)} (h : d.Raced outcome)
    (hq : d.Quieter d') : d'.Raced outcome := by
  match outcome, h with
  | none, hpending => exact hq.pending hpending
  | some none, ⟨r, hr, hresponse⟩ =>
    obtain ⟨r', hr', hquieter⟩ := hq.responded r hr
    refine ⟨r', hr', hresponse.imp (·.quieter hquieter) ?_⟩
    rintro ⟨hdiscard, hlate, hdisposed⟩
    exact ⟨hq.discardLateResponse hdiscard, hquieter.late.trans hlate,
      hdisposed.quieter hquieter⟩
  | some (some _), hlost => exact hlost.imp hq.failed (·.quieter hq)

theorem Done.quieter (h : d.Done) (hq : d.Quieter d') : d'.Done := by
  refine ⟨h.1.quieter hq, h.2.imp hq.failed (Or.imp (·.quieter hq) ?_)⟩
  rintro ⟨r, hr, hdisposed⟩
  obtain ⟨r', hr', hquieter⟩ := hq.responded r hr
  exact ⟨r', hr', hdisposed.quieter hquieter⟩

theorem Owns.quieter (h : d.Owns r) (hq : d.Quieter d') : ∃ r', d'.Owns r' ∧ r.Quieter r' := by
  obtain ⟨r', hr', hquieter⟩ := hq.responded r h.broker
  exact ⟨r', ⟨hr', h.owned.quieter hquieter,
    fun hsettled => (h.quiet (hquieter.cleanup ▸ hsettled)).quieter hq⟩, hquieter⟩

end BrokerDispatch

end TransformHub.ApiRouter
