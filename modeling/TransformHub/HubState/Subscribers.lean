import TransformHub.HubState.Consume
import TransformHub.Lib.Transition

/-!
# The subscribers of a store

What one subscriber sees of the calls of a store, whatever the other subscribers do.
-/

namespace TransformHub.HubState

open Js

/-! ## Order of cursors -/

def HubCursor.SameIdentity (a b : HubCursor) : Prop := a.hubId = b.hubId ∧ a.epoch = b.epoch

/-- `b` is further in the history of `a`. -/
def HubCursor.Before (a b : HubCursor) : Prop := a.SameIdentity b ∧ a.position < b.position

/-- `b` is not behind `a`, in the same history. -/
def HubCursor.AtMost (a b : HubCursor) : Prop := a.SameIdentity b ∧ a.position ≤ b.position

instance (a b : HubCursor) : Decidable (a.SameIdentity b) :=
  inferInstanceAs (Decidable (_ ∧ _))

instance (a b : HubCursor) : Decidable (a.Before b) := inferInstanceAs (Decidable (_ ∧ _))

instance (a b : HubCursor) : Decidable (a.AtMost b) := inferInstanceAs (Decidable (_ ∧ _))

theorem HubCursor.AtMost.refl (a : HubCursor) : a.AtMost a := ⟨⟨rfl, rfl⟩, Nat.le_refl _⟩

theorem HubCursor.AtMost.trans {a b c : HubCursor} (h : a.AtMost b) (h' : b.AtMost c) :
    a.AtMost c :=
  ⟨⟨h.1.1.trans h'.1.1, h.1.2.trans h'.1.2⟩, Nat.le_trans h.2 h'.2⟩

theorem HubCursor.Before.atMost {a b : HubCursor} (h : a.Before b) : a.AtMost b :=
  ⟨h.1, Nat.le_of_lt h.2⟩

theorem HubCursor.AtMost.before {a b c : HubCursor} (h : a.AtMost b) (h' : b.Before c) :
    a.Before c :=
  ⟨⟨h.1.1.trans h'.1.1, h.1.2.trans h'.1.2⟩, Nat.lt_of_le_of_lt h.2 h'.2⟩

/-! ## Which notices a subscriber is given -/

/-- The notices for subscriber `id`, in order. -/
def noticesFor (id : ℕ) (notices : List (ℕ × Notice)) : List Notice :=
  notices.filterMap fun n => if n.1 = id then some n.2 else none

@[simp] theorem noticesFor_nil (id : ℕ) : noticesFor id [] = [] := rfl

variable {sub : Subscriber}

theorem noticesFor_of_mem {subs : List Subscriber} (hd : (subs.map Subscriber.id).Nodup)
    (g : Subscriber → Option Notice) (h : sub ∈ subs) :
    noticesFor sub.id (subs.filterMap fun s => (g s).map fun n => (s.id, n)) = (g sub).toList := by
  have hrest : ∀ (ss : List Subscriber) (id : ℕ), id ∉ ss.map Subscriber.id →
      noticesFor id (ss.filterMap fun s => (g s).map fun n => (s.id, n)) = [] := by
    intro ss id hid
    refine List.filterMap_eq_nil_iff.mpr fun n hn => if_neg fun hne => hid ?_
    obtain ⟨s, hs, hsn⟩ := List.mem_filterMap.mp hn
    obtain ⟨x, -, rfl⟩ := Option.map_eq_some_iff.mp hsn
    exact hne ▸ List.mem_map_of_mem hs
  induction subs with
  | nil => cases h
  | cons t ts ih =>
    rw [List.map_cons, List.nodup_cons] at hd
    have hcons : noticesFor sub.id ((t :: ts).filterMap fun s => (g s).map fun n => (s.id, n)) =
        (if t.id = sub.id then (g t).toList else []) ++
          noticesFor sub.id (ts.filterMap fun s => (g s).map fun n => (s.id, n)) := by
      cases hg : g t with
      | none => simp [hg]
      | some n => by_cases ht : t.id = sub.id <;> simp [hg, ht, noticesFor]
    rw [hcons]
    rcases List.mem_cons.mp h with rfl | hmem
    · rw [if_pos rfl, hrest ts _ hd.1, List.append_nil]
    · have hne : t.id ≠ sub.id := fun he => hd.1 (he ▸ List.mem_map_of_mem hmem)
      rw [if_neg hne, List.nil_append]
      exact ih hd.2 hmem

theorem noticesFor_of_notMem {subs : List Subscriber} (g : Subscriber → Option Notice) {id : ℕ}
    (h : ∀ sub ∈ subs, sub.id ≠ id) :
    noticesFor id (subs.filterMap fun s => (g s).map fun n => (s.id, n)) = [] := by
  refine List.filterMap_eq_nil_iff.mpr fun n hn => if_neg fun hne => ?_
  obtain ⟨s, hs, hsn⟩ := List.mem_filterMap.mp hn
  obtain ⟨x, -, rfl⟩ := Option.map_eq_some_iff.mp hsn
  exact h s hs hne

theorem failures_eq (s : HubStateStore) (e : HubStateSourceError) :
    s.failures e = s.subscribers.filterMap fun sub => (some (.error e)).map fun n => (sub.id, n) := by
  simp [HubStateStore.failures]

namespace HubStateStore

theorem fields_applyCopied (s : HubStateStore) (copied : HubStateMutation Json) :
    (s.applyCopied copied).subscribers = s.subscribers ∧
      (s.applyCopied copied).available = s.available ∧
        (s.applyCopied copied).closed = s.closed ∧ (s.applyCopied copied).cursor = s.cursor := by
  unfold HubStateStore.applyCopied
  split <;> first | exact ⟨rfl, rfl, rfl, rfl⟩ | (split <;> exact ⟨rfl, rfl, rfl, rfl⟩)

/-- What a notification leaves of a subscriber. -/
def kept (kind : HubWatchKind) (change : HubWatchChange) (throws : ℕ → Bool) (sub : Subscriber) :
    Option Subscriber :=
  if sub.kind = kind then
    if throws sub.id then none else some { sub with previousCursor := change.cursor }
  else some sub

variable {kind : HubWatchKind} {throws : ℕ → Bool}

theorem kept_eq_some {change : HubWatchChange} {sub sub' : Subscriber}
    (h : kept kind change throws sub = some sub') :
    sub'.id = sub.id ∧ sub'.kind = sub.kind ∧ (sub.kind = kind → throws sub.id = false) := by
  unfold kept at h
  split_ifs at h with hk ht
  · cases h
    exact ⟨rfl, rfl, fun _ => by simpa using ht⟩
  · cases h
    exact ⟨rfl, rfl, fun hk' => absurd hk' hk⟩

theorem kept_isSome (change : HubWatchChange) (h : sub.kind = kind → throws sub.id = false) :
    ∃ sub', kept kind change throws sub = some sub' ∧ sub'.id = sub.id := by
  unfold kept
  by_cases hk : sub.kind = kind
  · exact ⟨{ sub with previousCursor := change.cursor },
      by rw [if_pos hk, if_neg (by simp [h hk])], rfl⟩
  · exact ⟨sub, if_neg hk, rfl⟩

theorem map_id_filterMap_kept (kind : HubWatchKind) (change : HubWatchChange)
    (throws : ℕ → Bool) (subs : List Subscriber) :
    ((subs.filterMap (kept kind change throws)).map Subscriber.id).Sublist
      (subs.map Subscriber.id) := by
  induction subs with
  | nil => exact .slnil
  | cons sub subs ih =>
    cases hk : kept kind change throws sub with
    | none =>
      rw [List.filterMap_cons_none hk]
      exact ih.cons _
    | some sub' =>
      rw [List.filterMap_cons_some hk, List.map_cons, List.map_cons, (kept_eq_some hk).1]
      exact ih.cons_cons _

/-! ## One subscriber -/

def subscription (s : HubStateStore) (id : ℕ) : Option Subscriber :=
  s.subscribers.find? fun sub => sub.id = id

variable {s : HubStateStore}

theorem subscription_eq_some (hd : (s.subscribers.map Subscriber.id).Nodup)
    (h : sub ∈ s.subscribers) : s.subscription sub.id = some sub := by
  unfold subscription
  cases hfind : s.subscribers.find? fun t => t.id = sub.id with
  | none =>
    have := List.find?_eq_none.mp hfind sub h
    simp at this
  | some t =>
    have hid : t.id = sub.id := by simpa using List.find?_some hfind
    exact congrArg some (List.inj_on_of_nodup_map hd (List.mem_of_find?_eq_some hfind) h hid)

theorem mem_of_subscription {id : ℕ} (h : s.subscription id = some sub) :
    sub ∈ s.subscribers ∧ sub.id = id :=
  ⟨List.mem_of_find?_eq_some h, by simpa using List.find?_some h⟩

theorem subscription_eq_none {id : ℕ} :
    s.subscription id = none ↔ ∀ sub ∈ s.subscribers, sub.id ≠ id := by
  simp [subscription, List.find?_eq_none]

/-- The subscribers are distinct, only an available store has any, and none is ahead of it. -/
structure Tracking (s : HubStateStore) : Prop where
  distinct : (s.subscribers.map Subscriber.id).Nodup
  opened : s.subscribers ≠ [] → s.available = true ∧ s.closed = false ∧ s.cursor.isSome
  behind : ∀ sub ∈ s.subscribers, ∀ held, s.cursor = some held →
    sub.previousCursor.cursor.AtMost held.cursor

theorem tracking_new : new.Tracking := ⟨.nil, fun h => absurd rfl h, nofun⟩

theorem Tracking.of_empty (h : s.subscribers = []) : s.Tracking :=
  ⟨by simp [h], fun hne => absurd h hne, fun sub hsub => by simp [h] at hsub⟩

theorem Tracking.forward {s s' : HubStateStore} (h : s.Tracking)
    (hsubs : s'.subscribers = s.subscribers) (havail : s.available = true → s'.available = true)
    (hclosed : s'.closed = s.closed)
    (hcursor : ∀ held, s.subscribers ≠ [] → s.cursor = some held →
      ∃ held', s'.cursor = some held' ∧ held.cursor.AtMost held'.cursor) : s'.Tracking where
  distinct := hsubs ▸ h.distinct
  opened := by
    intro hne
    rw [hsubs] at hne
    obtain ⟨ha, hc, hs⟩ := h.opened hne
    obtain ⟨held, hheld⟩ := Option.isSome_iff_exists.mp hs
    obtain ⟨held', hheld', -⟩ := hcursor held hne hheld
    exact ⟨havail ha, hclosed.trans hc, by simp [hheld']⟩
  behind := by
    intro sub hsub held' hheld'
    rw [hsubs] at hsub
    have hne := List.ne_nil_of_mem hsub
    obtain ⟨held, hheld⟩ := Option.isSome_iff_exists.mp (h.opened hne).2.2
    obtain ⟨held'', hheld'', hle⟩ := hcursor held hne hheld
    rw [hheld'', Option.some.injEq] at hheld'
    exact hheld' ▸ (h.behind sub hsub held hheld).trans hle

/-- What a call of the store means for the subscriber with this number. -/
inductive Served (s : HubStateStore) (id : ℕ) (o : Outcome) : Prop
  /-- it is given nothing -/
  | quiet (notices : noticesFor id o.notices = [])
      (after : o.store.subscription id = s.subscription id)
  /-- it is given an error and removed -/
  | failed (error : HubStateSourceError) (before : (s.subscription id).isSome)
      (notices : noticesFor id o.notices = [.error error])
      (after : o.store.subscription id = none)
  /-- it is given a change that leads on from what it was given last -/
  | changed (sub : Subscriber) (change : HubWatchChange) (before : s.subscription id = some sub)
      (notices : noticesFor id o.notices = [.change change])
      (linked : change.previousCursor = sub.previousCursor)
      (forward : sub.previousCursor.cursor.Before change.cursor.cursor)
      (after : o.store.subscription id = some { sub with previousCursor := change.cursor })

/-! ### Calls that fail or change nobody -/

section Calls

variable {s : HubStateStore} {id : ℕ}

theorem Served.congr {s' : HubStateStore} {o : Outcome} (h : s.Served id o)
    (hsubs : s'.subscribers = s.subscribers) : s'.Served id o := by
  have heq : s'.subscription id = s.subscription id := by rw [subscription, hsubs, subscription]
  cases h with
  | quiet hn ha => exact .quiet hn (ha.trans heq.symm)
  | failed e hb hn ha => exact .failed e (heq ▸ hb) hn ha
  | changed sub c hb hn hl hf ha => exact .changed sub c (heq.trans hb) hn hl hf ha

theorem served_silent {s' : HubStateStore} (t : Bool) (hsubs : s'.subscribers = s.subscribers) :
    s.Served id ⟨s', [], t⟩ :=
  .quiet rfl (by simp only [subscription, hsubs])

theorem served_failures (h : s.Tracking) {s' : HubStateStore} (hsubs : s'.subscribers = [])
    (e : HubStateSourceError) (t : Bool) : s.Served id ⟨s', s.failures e, t⟩ := by
  have hafter : s'.subscription id = none := by simp [subscription, hsubs]
  cases hsub : s.subscription id with
  | none =>
    refine .quiet ?_ (hafter.trans hsub.symm)
    simp only [failures_eq]
    exact noticesFor_of_notMem (fun _ => some (.error e)) (subscription_eq_none.mp hsub)
  | some sub =>
    obtain ⟨hmem, rfl⟩ := mem_of_subscription hsub
    refine .failed e (by simp [hsub]) ?_ hafter
    simp only [failures_eq]
    exact noticesFor_of_mem h.distinct (fun _ => some (.error e)) hmem

/-! ### Notifications -/

theorem subscribers_notify (s : HubStateStore) (kind : HubWatchKind) (change : HubWatchChange)
    (throws : ℕ → Bool) :
    (s.notify kind change throws).store.subscribers =
      s.subscribers.filterMap (kept kind change throws) := rfl

def noticeOf (kind : HubWatchKind) (change : HubWatchChange) (sub : Subscriber) : Option Notice :=
  if sub.kind = kind then some (.change (sub.select change)) else none

theorem notices_notify (s : HubStateStore) (kind : HubWatchKind) (change : HubWatchChange)
    (throws : ℕ → Bool) :
    (s.notify kind change throws).notices =
      s.subscribers.filterMap fun sub => (noticeOf kind change sub).map fun n => (sub.id, n) := by
  refine List.filterMap_congr fun sub _ => ?_
  by_cases hk : sub.kind = kind <;> simp [noticeOf, hk]

theorem notify_served (hd : (s.subscribers.map Subscriber.id).Nodup) {change : HubWatchChange}
    (ht : throws id = false)
    (hforward : ∀ sub ∈ s.subscribers, sub.previousCursor.cursor.Before change.cursor.cursor) :
    s.Served id (s.notify kind change throws) := by
  have hd' : ((s.notify kind change throws).store.subscribers.map Subscriber.id).Nodup :=
    hd.sublist (map_id_filterMap_kept _ _ _ _)
  cases hsub : s.subscription id with
  | none =>
    have hnot := subscription_eq_none.mp hsub
    refine .quiet ?_ ?_
    · rw [notices_notify]
      exact noticesFor_of_notMem _ hnot
    · rw [hsub, subscription_eq_none]
      intro sub' hsub'
      obtain ⟨t, htmem, hkept⟩ := List.mem_filterMap.mp hsub'
      exact (kept_eq_some hkept).1 ▸ hnot t htmem
  | some sub =>
    obtain ⟨hmem, rfl⟩ := mem_of_subscription hsub
    have hnotices := noticesFor_of_mem hd (noticeOf kind change) hmem
    rw [← notices_notify s kind change throws] at hnotices
    by_cases hk : sub.kind = kind
    · have hkept : kept kind change throws sub =
          some { sub with previousCursor := change.cursor } := by
        simp [kept, hk, ht]
      refine .changed sub (sub.select change) hsub ?_ rfl (hforward sub hmem) ?_
      · rw [hnotices]
        simp [noticeOf, hk]
      · exact subscription_eq_some hd' (List.mem_filterMap.mpr ⟨sub, hmem, hkept⟩)
    · have hkept : kept kind change throws sub = some sub := if_neg hk
      refine .quiet ?_ ?_
      · rw [hnotices]
        simp [noticeOf, hk]
      · rw [hsub]
        exact subscription_eq_some hd' (List.mem_filterMap.mpr ⟨sub, hmem, hkept⟩)

theorem notify_tracking (h : s.Tracking) {change : HubWatchChange}
    (hcursor : s.cursor = some change.cursor) :
    (s.notify kind change throws).store.Tracking where
  distinct := h.distinct.sublist (map_id_filterMap_kept _ _ _ _)
  opened := by
    intro hne
    refine h.opened fun hnil => hne ?_
    rw [subscribers_notify, hnil]
    rfl
  behind := by
    intro sub' hsub' held hheld
    have hheld' : held = change.cursor := by
      have : s.cursor = some held := hheld
      rw [hcursor, Option.some.injEq] at this
      exact this.symm
    subst hheld'
    obtain ⟨sub, hsub, hkept⟩ := List.mem_filterMap.mp hsub'
    split_ifs at hkept with hk ht
    · cases hkept
      exact .refl _
    · cases hkept
      exact h.behind sub' hsub _ hcursor

/-! ### Every call -/

theorem continues_spec {previousCursor cursor : HubCursor}
    (h : s.continues previousCursor cursor = true) :
    ∃ held, s.cursor = some held ∧ held.cursor.Before cursor := by
  unfold continues at h
  split at h
  next => cases h
  next held hheld =>
    simp only [Bool.and_eq_true, decide_eq_true_eq] at h
    obtain ⟨⟨⟨⟨-, -⟩, hhub⟩, hepoch⟩, hpos⟩ := h
    exact ⟨held, hheld, ⟨hhub.symm, hepoch.symm⟩, by omega⟩

theorem publish_cases {record : JsValue} {mutation : HubStateMutation JsValue}
    (accepted : s.AcceptedChange record mutation) (copied : HubStateMutation Json)
    (throws : ℕ → Bool) :
    (s.applyCopied copied).publish (record.get "hubState") mutation.kind throws =
        ⟨s.applyCopied copied, [], true⟩ ∨
      ∃ held stored : StoredCursor, s.cursor = some held ∧ held.cursor.Before stored.cursor ∧
        ((s.applyCopied copied).publish (record.get "hubState") mutation.kind throws =
            ⟨{ s.applyCopied copied with cursor := some stored }, [], true⟩ ∨
          ∃ change : HubWatchChange, change.cursor = stored ∧
            (s.applyCopied copied).publish (record.get "hubState") mutation.kind throws =
              ({ s.applyCopied copied with cursor := some stored } : HubStateStore).notify
                mutation.kind change throws) := by
  obtain ⟨previousCursor, cursor, -, hvalid, hcont⟩ := accepted.continues
  obtain ⟨held, hheld, hbefore⟩ := continues_spec hcont
  unfold publish
  split
  next => exact .inl rfl
  next stored hstored =>
    have heq : stored.cursor = cursor := by
      rcases copyCursor_spec hvalid with ⟨-, hn⟩ | ⟨s', -, hs', heq⟩
      · rw [hn] at hstored
        cases hstored
      · rw [hs'] at hstored
        cases hstored
        exact heq
    refine .inr ⟨held, stored, hheld, heq ▸ hbefore, ?_⟩
    simp only
    split
    next j previous _ _ => exact .inr ⟨⟨j, stored, previous⟩, rfl, rfl⟩
    next => exact .inl rfl

section

variable (h : s.Tracking)
include h

theorem applied_tracking (copied : HubStateMutation Json) : (s.applyCopied copied).Tracking := by
  obtain ⟨hsubs, havail, hclosed, hcursor⟩ := fields_applyCopied s copied
  exact h.forward hsubs (fun ha => havail.trans ha) hclosed
    fun held _ hheld => ⟨held, hcursor.trans hheld, .refl _⟩

theorem advanced_tracking (copied : HubStateMutation Json)
    {held stored : StoredCursor} (hheld : s.cursor = some held)
    (hbefore : held.cursor.Before stored.cursor) :
    ({ s.applyCopied copied with cursor := some stored } : HubStateStore).Tracking := by
  obtain ⟨hsubs, havail, hclosed, -⟩ := fields_applyCopied s copied
  refine h.forward hsubs (fun ha => havail.trans ha) hclosed fun held' _ hheld' => ?_
  rw [hheld, Option.some.injEq] at hheld'
  exact ⟨stored, rfl, hheld' ▸ hbefore.atMost⟩

theorem consume_tracking (record : JsValue) (throws : ℕ → Bool) :
    (s.consume record throws).store.Tracking := by
  generalize ho : s.consume record throws = o
  have hcase : s.Consumed record throws o := ho ▸ consume_consumed
  cases hcase with
  | ignored t => exact h
  | failed e | replaced e inventory cursor => exact .of_empty rfl
  | loaded accepted here =>
    refine h.forward rfl (fun _ => rfl) rfl fun held hne hheld => ⟨_, rfl, ?_⟩
    exact here held hheld (h.opened hne).1 ▸ .refl _
  | @changed mutation copied accepted hcopied =>
    rcases publish_cases accepted copied throws with
      hp | ⟨held, stored, hheld, hbefore, hp | ⟨change, rfl, hp⟩⟩
    · rw [hp]
      exact applied_tracking h copied
    · rw [hp]
      exact advanced_tracking h copied hheld hbefore
    · rw [hp]
      exact notify_tracking (advanced_tracking h copied hheld hbefore) rfl

theorem consume_served (ht : throws id = false) (record : JsValue) :
    s.Served id (s.consume record throws) := by
  generalize ho : s.consume record throws = o
  have hcase : s.Consumed record throws o := ho ▸ consume_consumed
  cases hcase with
  | ignored t => exact served_silent t rfl
  | failed e | replaced e inventory cursor => exact served_failures h rfl e false
  | loaded accepted here => exact served_silent false rfl
  | @changed mutation copied accepted hcopied =>
    have hsubs := (fields_applyCopied s copied).1
    rcases publish_cases accepted copied throws with
      hp | ⟨held, stored, hheld, hbefore, hp | ⟨change, rfl, hp⟩⟩
    · rw [hp]
      exact served_silent true hsubs
    · rw [hp]
      exact served_silent true hsubs
    · rw [hp]
      refine .congr (notify_served (advanced_tracking h copied hheld hbefore).distinct ht
        fun sub hsub => ?_) hsubs.symm
      exact (h.behind sub (hsubs ▸ hsub) held hheld).before hbefore

theorem close_served : s.Served id s.close := served_failures h rfl _ false

theorem subscribe_served {new : ℕ} {store : HubStateStore}
    {snapshot : HubWatchSnapshot} (hsub : s.subscribe kind new = some (store, snapshot))
    (hnew : ∀ sub ∈ s.subscribers, sub.id ≠ new) :
    (∀ other, new ≠ other → store.subscription other = s.subscription other) ∧
      store.subscription new = some ⟨new, kind, snapshot.cursor⟩ ∧ store.Tracking := by
  obtain ⟨snap, hsnap, heq⟩ := Option.map_eq_some_iff.mp hsub
  cases heq
  unfold HubStateStore.snapshot at hsnap
  split_ifs at hsnap with hopen
  obtain ⟨cursor, hcursor, rfl⟩ := Option.map_eq_some_iff.mp hsnap
  have hd : ((s.subscribers ++ [(⟨new, kind, cursor⟩ : Subscriber)]).map Subscriber.id).Nodup := by
    rw [List.map_append, List.nodup_append]
    refine ⟨h.distinct, by simp, fun a ha b hb => ?_⟩
    obtain ⟨sub, hs, rfl⟩ := List.mem_map.mp ha
    simp only [List.map_cons, List.map_nil, List.mem_singleton] at hb
    exact hb ▸ hnew sub hs
  refine ⟨fun other hne => ?_, ?_, hd, fun _ => ⟨hopen.1, by simpa using hopen.2, by simp [hcursor]⟩, ?_⟩
  · simp [subscription, List.find?_append, hne]
  · have hmem : (⟨new, kind, cursor⟩ : Subscriber) ∈ s.subscribers ++ [⟨new, kind, cursor⟩] :=
      List.mem_append_right _ (List.mem_singleton.mpr rfl)
    exact subscription_eq_some (s := { s with subscribers := _ }) hd hmem
  · intro sub hs held hheld
    rcases List.mem_append.mp hs with hs | hs
    · exact h.behind sub hs held hheld
    · rw [List.mem_singleton] at hs
      subst hs
      have : cursor = held := Option.some.inj (hcursor.symm.trans hheld)
      exact this ▸ .refl _

end

theorem subscription_unsubscribe (s : HubStateStore) (other id : ℕ) :
    (s.unsubscribe other).subscription id =
      if other = id then none else s.subscription id := by
  by_cases ho : other = id
  · rw [if_pos ho, subscription_eq_none]
    intro sub hs
    have := (List.mem_filter.mp hs).2
    simpa [ho] using this
  · rw [if_neg ho]
    simp only [subscription, unsubscribe, List.find?_filter]
    refine congrArg (fun p => List.find? p s.subscribers) (funext fun sub => ?_)
    by_cases hi : sub.id = id <;> simp [hi, Ne.symm ho]

theorem unsubscribe_tracking (h : s.Tracking) (other : ℕ) : (s.unsubscribe other).Tracking := by
  refine ⟨h.distinct.sublist (List.filter_sublist.map _), fun hne => ?_,
    fun sub hs held hheld => h.behind sub (List.mem_of_mem_filter hs) held hheld⟩
  refine h.opened fun hnil => hne ?_
  simp [unsubscribe, hnil]

theorem Tracking.snapshot (h : s.Tracking) (hsub : s.subscription id = some sub)
    (kind : HubWatchKind) :
    ∃ snap, s.snapshot kind = some snap ∧ snap.kind = kind ∧
      sub.previousCursor.cursor.AtMost snap.cursor.cursor := by
  obtain ⟨hmem, -⟩ := mem_of_subscription hsub
  obtain ⟨ha, hc, hs⟩ := h.opened (List.ne_nil_of_mem hmem)
  obtain ⟨held, hheld⟩ := Option.isSome_iff_exists.mp hs
  exact ⟨⟨kind, held, s.items kind⟩, by simp [HubStateStore.snapshot, ha, hc, hheld], rfl,
    h.behind sub hmem held hheld⟩

end Calls

/-! ## Runs of a store -/

/-- The calls of a store. A subscription is opened under a number that is not in use. -/
inductive Call where
  | consume (record : JsValue) (throws : ℕ → Bool)
  | subscribe (kind : HubWatchKind) (id : ℕ)
  | unsubscribe (id : ℕ)
  | close

def next (s : HubStateStore) : Call → HubStateStore
  | .consume record throws => (s.consume record throws).store
  | .subscribe kind id =>
    if s.subscribers.any fun sub => sub.id = id then s
    else ((s.subscribe kind id).map Prod.fst).getD s
  | .unsubscribe id => s.unsubscribe id
  | .close => s.close.store

def system : System HubStateStore Call := .ofFun new next

theorem Tracking.next (h : s.Tracking) (call : Call) : (s.next call).Tracking := by
  cases call with
  | consume record throws => exact consume_tracking h record throws
  | subscribe kind id =>
    simp only [HubStateStore.next]
    split_ifs with hany
    · exact h
    · cases hsub : s.subscribe kind id with
      | none => exact h
      | some r =>
        refine (subscribe_served h hsub fun sub hs heq => hany ?_).2.2
        simpa using ⟨sub, hs, heq⟩
  | unsubscribe id => exact unsubscribe_tracking h id
  | close => exact .of_empty rfl

theorem subscription_subscribe (h : s.Tracking) (kind : HubWatchKind) {other id : ℕ}
    (hne : other ≠ id) :
    (s.next (.subscribe kind other)).subscription id = s.subscription id := by
  simp only [HubStateStore.next]
  split_ifs with hany
  · rfl
  · cases hsub : s.subscribe kind other with
    | none => rfl
    | some r =>
      refine (subscribe_served h hsub fun sub hs heq => hany ?_).1 id hne
      simpa using ⟨sub, hs, heq⟩

theorem kind_of_subscribe {s store : HubStateStore} {id : ℕ} {snapshot : HubWatchSnapshot}
    (h : s.subscribe kind id = some (store, snapshot)) :
    snapshot.kind = kind := by
  obtain ⟨snap, hsnap, heq⟩ := Option.map_eq_some_iff.mp h
  cases heq
  unfold HubStateStore.snapshot at hsnap
  split_ifs at hsnap
  obtain ⟨cursor, -, rfl⟩ := Option.map_eq_some_iff.mp hsnap
  rfl

theorem tracking_of_reachable (h : system.Reachable System.anyStep s) : s.Tracking :=
  h.invariant_ofFun tracking_new fun _ call hs _ => hs.next call

/-- Throughout a run, subscribers have distinct ids, and whatever kind is asked for, the store has a
snapshot that is not behind any of them. -/
theorem served_in_runs (calls : List Call) :
    let s := calls.foldl next new
    (s.subscribers.map Subscriber.id).Nodup ∧ ∀ id sub, s.subscription id = some sub →
      ∀ kind, ∃ snap, s.snapshot kind = some snap ∧ snap.kind = kind ∧
        sub.previousCursor.cursor.AtMost snap.cursor.cursor := by
  intro s
  have h : s.Tracking := tracking_of_reachable (System.reachable_foldl calls)
  exact ⟨h.distinct, fun id sub => h.snapshot⟩

end HubStateStore

/-! ### Records of small runs -/

/-- A cursor of Hub `hub` in epoch `e`. -/
def cursorValue (position : ℕ) : JsValue :=
  .obj true [("hubId", .str "hub"), ("epoch", .str "e"), ("position", .num (.ofNat position))]

/-- A checkpoint with these sequences and nothing else. -/
def checkpointRecord (position : ℕ) (sequences : List JsValue) : JsValue :=
  .obj true [("hubState", .obj true [("type", .str "checkpoint"), ("cursor", cursorValue position),
    ("inventory", .obj true [("sequences", .arr true sequences []), ("instances", .arr true [] []),
      ("topics", .arr true [] []), ("health", .obj true [])])])]

/-- A change that brings the sequence `id`. -/
def upsertRecord (position : ℕ) (id : String) : JsValue :=
  .obj true [("hubState", .obj true [("type", .str "change"),
    ("cursor", cursorValue (position + 1)), ("previousCursor", cursorValue position),
    ("mutation", .obj true [("kind", .str "sequence"), ("action", .str "upsert"),
      ("sequenceId", .str id), ("value", .obj true [("id", .str id)])])])]

end TransformHub.HubState
