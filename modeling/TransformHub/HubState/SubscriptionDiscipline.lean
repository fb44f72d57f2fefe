import TransformHub.HubState.Callbacks

/-!
# What the subscriptions of a store see

A loop goes over a copy of the set, and does not look whether the subscriber that it comes to is
still in the set.
-/

namespace TransformHub.HubState

open Js

namespace HubStateStore

/-! ## What a call does before its loop -/

/-- The calls of `consume`, up to their loop. -/
inductive Began (s : HubStateStore) : Begun → Prop where
  /-- nobody is called -/
  | silent {store : HubStateStore} (thrown : Bool) (tracking : store.Tracking)
      (same : store.subscribers = s.subscribers) : Began s ⟨store, none, none, thrown⟩
  | failed (error : HubStateSourceError) (pending : Option JsValue) :
      Began s ⟨s.emptied, some (.fail error), pending, false⟩
  /-- a change is applied that nobody has seen -/
  | changed {store : HubStateStore} (kind : HubWatchKind) (change : HubWatchChange)
      (tracking : store.Tracking) (same : store.subscribers = s.subscribers)
      (here : store.cursor = some change.cursor)
      (forward : ∀ sub ∈ s.subscribers, sub.previousCursor.cursor.Before change.cursor.cursor) :
      Began s ⟨store, some (.change kind change), none, false⟩

variable {s : HubStateStore}

theorem load_tracking (h : s.Tracking) {inventory : Json} {cursor : StoredCursor}
    (here : ∀ held, s.cursor = some held → s.available = true → held.cursor = cursor.cursor) :
    (s.load inventory cursor).Tracking :=
  h.forward rfl (fun _ => rfl) rfl fun held hne hheld =>
    ⟨cursor, rfl, here held hheld (h.opened hne).1 ▸ .refl _⟩

theorem beginLoad_began (h : s.Tracking) {audit : JsValue} {cursor : HubCursor}
    (hcursor : validCursor (audit.get "cursor") = some cursor)
    (here : ∀ held, s.cursor = some held → s.available = true → held.cursor = cursor) :
    s.Began (s.beginLoad audit) := by
  unfold beginLoad
  split
  · rename_i inventory stored _ hstored
    refine .silent false (load_tracking h fun held hheld havail => ?_) rfl
    obtain ⟨-, hnone⟩ | ⟨stored', -, hsome, heq⟩ := copyCursor_spec hcursor
    · rw [hnone] at hstored
      cases hstored
    · rw [hsome, Option.some_inj] at hstored
      rw [here held hheld havail, ← heq, hstored]
  · exact .failed _ none

theorem beginLoad_began_of_empty (h : s.subscribers = []) (audit : JsValue) :
    s.Began (s.beginLoad audit) := by
  unfold beginLoad
  split
  · exact .silent false (.of_empty h) rfl
  · exact .failed _ none

theorem beginCheckpoint_began (h : s.Tracking) {audit : JsValue} {cursor : HubCursor}
    (hcursor : validCursor (audit.get "cursor") = some cursor) :
    s.Began (s.beginCheckpoint audit cursor) := by
  unfold beginCheckpoint
  split
  · rename_i hnone
    exact beginLoad_began h hcursor fun held hheld => by simp [hnone] at hheld
  · rename_i held hheld
    split_ifs with hother hlower hahead
    · exact .failed _ _
    · exact .silent false h rfl
    · exact .failed _ _
    · refine beginLoad_began h hcursor fun held' hheld' havail => ?_
      rw [hheld, Option.some_inj] at hheld'
      subst hheld'
      have hposition : held.cursor.position = cursor.position := by
        have : ¬ held.cursor.position < cursor.position := fun hlt => hahead ⟨havail, hlt⟩
        omega
      rw [not_or, not_not, not_not] at hother
      have hcur : held.cursor = ⟨cursor.hubId, cursor.epoch, cursor.position⟩ := by
        rw [hother.1, hother.2, ← hposition]
      exact hcur

theorem beginPublish_began (h : s.Tracking) {audit : JsValue} {copied : HubStateMutation Json}
    {previousCursor cursor : HubCursor} (kind : HubWatchKind)
    (hcursor : validCursor (audit.get "cursor") = some cursor)
    (hcont : s.continues previousCursor cursor = true) :
    s.Began ((s.applyCopied copied).beginPublish audit kind) := by
  obtain ⟨held, hheld, hbefore⟩ := continues_spec hcont
  have hsubs := (fields_applyCopied s copied).1
  unfold beginPublish
  split
  · exact .silent true (applied_tracking h copied) hsubs
  · rename_i stored hstored
    have heq : stored.cursor = cursor := by
      obtain ⟨-, hnone⟩ | ⟨stored', -, hsome, heq⟩ := copyCursor_spec hcursor
      · rw [hnone] at hstored
        cases hstored
      · rw [hsome, Option.some_inj] at hstored
        rw [← hstored, heq]
    have htracking := advanced_tracking h copied hheld (heq ▸ hbefore : held.cursor.Before stored.cursor)
    dsimp only
    split
    · refine .changed kind _ htracking hsubs rfl fun sub hsub => ?_
      exact (h.behind sub hsub held hheld).before (heq ▸ hbefore)
    · exact .silent true htracking hsubs

theorem beginConsume_began (h : s.Tracking) (record : JsValue) :
    s.Began (s.beginConsume record) := by
  unfold beginConsume
  dsimp only
  split_ifs
  · exact .silent false h rfl
  · exact .failed _ none
  · unfold beginConsumeCheckpoint
    split
    · rename_i hcursor _
      split
      · exact .silent true h rfl
      · exact .failed _ none
      · exact beginCheckpoint_began h hcursor
    · exact .failed _ none
  · unfold beginConsumeChange
    split
    · rename_i hcursor _ _
      split_ifs with hassociations hcont
      · exact .failed _ none
      · exact .failed _ none
      · unfold apply
        split
        · exact .failed _ none
        · rename_i mutation _ _ applied happlied
          obtain ⟨copied, -, rfl⟩ := Option.map_eq_some_iff.mp happlied
          exact beginPublish_began h _ hcursor (by simpa using hcont)
    · exact .failed _ none

end HubStateStore

/-! ## The invariant -/

/-- The loop tells of an error. -/
def Pass.Fails (p : Pass) : Prop := ∃ error, p.message = .fail error

/-- What a loop may rely on. Whoever is left of the copy has not seen the change; and whoever is
still subscribed while an error is told of is left of the copy. -/
def Pass.Fits (p : Pass) (store : HubStateStore) (count : ℕ) : Prop :=
  match p.message with
  | .change _ change =>
    (p.rest.map Subscriber.id).Nodup ∧ store.cursor = some change.cursor ∧
      ∀ t ∈ p.rest, t.id < count ∧ ∀ sub ∈ store.subscribers, sub.id = t.id →
        sub.previousCursor.cursor.Before change.cursor.cursor
  | .fail _ => store.available = false ∧ ∀ sub ∈ store.subscribers, ∃ t ∈ p.rest, t.id = sub.id

/-- Only the outermost loop may tell of a change, and none does when a checkpoint is to be
loaded. -/
def Nested (pending : Option JsValue) : List Pass → Prop
  | [] => pending = none
  | [p] => pending.isSome → p.Fails
  | p :: q :: passes => p.Fails ∧ Nested pending (q :: passes)

variable {outer : List Pass}

theorem Nested.replace {pending : Option JsValue} {p p' : Pass} (h : Nested pending (p :: outer))
    (hmessage : p'.message = p.message) :
    Nested pending (p' :: outer) := by
  cases outer with
  | nil => exact fun hsome => (h hsome).imp fun error herror => hmessage.trans herror
  | cons q passes => exact ⟨h.1.imp fun error herror => hmessage.trans herror, h.2⟩

theorem Nested.cons {pending : Option JsValue} {p : Pass} {passes : List Pass}
    (h : Nested pending passes) (hp : p.Fails) : Nested pending (p :: passes) := by
  cases passes with
  | nil => exact fun _ => hp
  | cons q passes => exact ⟨hp, h⟩

theorem Nested.outer_eq_nil {pending : Option JsValue} {p : Pass} {kind : HubWatchKind}
    {change : HubWatchChange} (h : Nested pending (p :: outer))
    (hp : p.message = .change kind change) : outer = [] := by
  cases outer with
  | nil => rfl
  | cons q passes =>
    obtain ⟨error, herror⟩ := h.1
    rw [hp] at herror
    cases herror

theorem Pass.Fits.mono {p : Pass} {store store' : HubStateStore} {count count' : ℕ}
    (h : p.Fits store count) (hsubs : store'.subscribers ⊆ store.subscribers)
    (hcursor : store'.cursor = store.cursor)
    (havail : store.available = false → store'.available = false) (hcount : count ≤ count') :
    p.Fits store' count' := by
  unfold Pass.Fits at h ⊢
  split
  · rename_i kind change hmessage
    rw [hmessage] at h
    obtain ⟨hd, hheld, hrest⟩ := h
    refine ⟨hd, hcursor.trans hheld, fun t ht =>
      ⟨?_, fun sub hsub => (hrest t ht).2 sub (hsubs hsub)⟩⟩
    exact Nat.lt_of_lt_of_le (hrest t ht).1 hcount
  · rename_i error hmessage
    rw [hmessage] at h
    exact ⟨havail h.1, fun sub hsub => h.2 sub (hsubs hsub)⟩

def Seen.isChange : Seen → Bool
  | .change _ => true
  | _ => false

theorem Subscription.Disciplined.changes_first {sub : Subscription} (h : sub.Disciplined) :
    (sub.seen.map Seen.isChange).Pairwise fun a b => b = true → a = true := by
  obtain ⟨changes, ending, hseen, -, hending⟩ := h
  have hchanges : ∀ b ∈ (changes.map Seen.change).map Seen.isChange, b = true := by
    simp [Seen.isChange]
  have hrest : ∀ b ∈ ending.map Seen.isChange, b = false := by
    cases hending <;> simp [Seen.isChange]
  rw [hseen, List.map_append]
  refine List.pairwise_append.mpr ⟨?_, ?_, fun a ha _ _ _ => hchanges a ha⟩
  · exact List.pairwise_of_forall_mem_list fun a ha _ _ _ => hchanges a ha
  · refine List.pairwise_of_forall_mem_list fun _ _ b hb htrue => ?_
    rw [hrest b hb] at htrue
    cases htrue

namespace Loops

structure Inv (s : Loops) : Prop where
  distinct : (s.store.subscribers.map Subscriber.id).Nodup
  live : ∀ sub ∈ s.store.subscribers, ∃ subscription : Subscription,
    s.subscriptions[sub.id]? = some subscription ∧ subscription.LiveAt sub.previousCursor
  disciplined : ∀ (id : ℕ) (subscription : Subscription),
    s.subscriptions[id]? = some subscription → subscription.Disciplined
  behind : ∀ sub ∈ s.store.subscribers, ∀ held, s.store.cursor = some held →
    sub.previousCursor.cursor.AtMost held.cursor
  opened : s.store.subscribers ≠ [] → s.store.cursor.isSome ∧
    (s.store.available = true ∧ s.store.closed = false ∨ ∃ p ∈ s.passes, p.Fails)
  fits : ∀ p ∈ s.passes, p.Fits s.store s.subscriptions.length
  nested : Nested s.pending s.passes

theorem inv_new : new.Inv where
  distinct := .nil
  live := by simp [new, HubStateStore.new]
  disciplined := by simp [new]
  behind := by simp [new, HubStateStore.new]
  opened := fun h => absurd rfl h
  fits := by simp [new]
  nested := rfl

variable {s : Loops}

theorem Inv.tracking (h : s.Inv) (hidle : s.passes = []) : s.store.Tracking where
  distinct := h.distinct
  opened := by
    intro hne
    obtain ⟨hcursor, havail | ⟨p, hp, -⟩⟩ := h.opened hne
    · exact ⟨havail.1, havail.2, hcursor⟩
    · rw [hidle] at hp
      cases hp
  behind := h.behind

theorem Inv.subscribers_eq_nil (h : s.Inv) {error : HubStateSourceError} {calling : Option ℕ}
    (hpasses : s.passes = ⟨.fail error, [], calling⟩ :: outer) :
    s.store.subscribers = [] := by
  have hfits := h.fits ⟨.fail error, [], calling⟩ (by rw [hpasses]; exact List.mem_cons_self ..)
  refine List.eq_nil_iff_forall_not_mem.mpr fun sub hsub => ?_
  obtain ⟨t, ht, -⟩ := hfits.2 sub hsub
  cases ht

theorem mem_unsubscribe {store : HubStateStore} {id : ℕ} {sub : Subscriber} :
    sub ∈ (store.unsubscribe id).subscribers ↔ sub ∈ store.subscribers ∧ sub.id ≠ id := by
  simp [HubStateStore.unsubscribe]

theorem see_of_ne (s : Loops) {id other : ℕ} (event : Seen) (h : other ≠ id) :
    (s.see id event)[other]? = s.subscriptions[other]? := by
  simp [see, Ne.symm h]

theorem see_self (s : Loops) (id : ℕ) (event : Seen) :
    (s.see id event)[id]? = s.subscriptions[id]?.map (Subscription.see event) := by
  simp [see]

theorem length_see (s : Loops) (id : ℕ) (event : Seen) :
    (s.see id event).length = s.subscriptions.length :=
  List.length_modify ..

theorem Inv.disciplined_see (h : s.Inv) {id : ℕ} {event : Seen}
    (hthis : ∀ subscription : Subscription, s.subscriptions[id]? = some subscription →
      (subscription.see event).Disciplined) (other : ℕ) (subscription : Subscription)
    (hget : (s.see id event)[other]? = some subscription) : subscription.Disciplined := by
  by_cases heq : other = id
  · subst heq
    rw [see_self, Option.map_eq_some_iff] at hget
    obtain ⟨before, hbefore, rfl⟩ := hget
    exact hthis before hbefore
  · exact h.disciplined other subscription ((s.see_of_ne event heq).symm.trans hget)

theorem Inv.removed (h : s.Inv) (id : ℕ) {subscriptions : List Subscription} {passes : List Pass}
    (hothers : ∀ other, other ≠ id → subscriptions[other]? = s.subscriptions[other]?)
    (hdisciplined : ∀ (other : ℕ) (subscription : Subscription),
      subscriptions[other]? = some subscription → subscription.Disciplined)
    (hfails : (∃ p ∈ s.passes, p.Fails) → ∃ p ∈ passes, p.Fails)
    (hfits : ∀ p ∈ passes, p.Fits (s.store.unsubscribe id) subscriptions.length)
    (hnested : Nested s.pending passes) :
    Inv ⟨s.store.unsubscribe id, passes, s.pending, subscriptions⟩ where
  distinct := h.distinct.sublist (List.filter_sublist.map _)
  live := by
    intro sub hsub
    obtain ⟨hmem, hne⟩ := mem_unsubscribe.mp hsub
    obtain ⟨subscription, hget, hlive⟩ := h.live sub hmem
    exact ⟨subscription, (hothers _ hne).trans hget, hlive⟩
  disciplined := hdisciplined
  behind := fun sub hsub => h.behind sub (mem_unsubscribe.mp hsub).1
  opened := by
    intro hne
    obtain ⟨sub, hsub⟩ := List.exists_mem_of_ne_nil _ hne
    obtain ⟨hcursor, havail⟩ := h.opened (List.ne_nil_of_mem (mem_unsubscribe.mp hsub).1)
    exact ⟨hcursor, havail.imp_right hfails⟩
  fits := hfits
  nested := hnested

theorem Inv.goesOn (h : s.Inv) {p p' : Pass} (hpasses : s.passes = p :: outer)
    (hmessage : p'.message = p.message) (hfits : p'.Fits s.store s.subscriptions.length) :
    ({ s with passes := p' :: outer } : Loops).Inv where
  distinct := h.distinct
  live := h.live
  disciplined := h.disciplined
  behind := h.behind
  opened := by
    intro hne
    obtain ⟨hcursor, havail | ⟨q, hq, hfails⟩⟩ := h.opened hne
    · exact ⟨hcursor, .inl havail⟩
    · rw [hpasses] at hq
      obtain rfl | hmem := List.mem_cons.mp hq
      · exact ⟨hcursor, .inr ⟨p', List.mem_cons_self .., hfails.imp fun e he => hmessage.trans he⟩⟩
      · exact ⟨hcursor, .inr ⟨q, List.mem_cons_of_mem _ hmem, hfails⟩⟩
  fits := by
    intro q hq
    obtain rfl | hmem := List.mem_cons.mp hq
    · exact hfits
    · exact h.fits q (by rw [hpasses]; exact List.mem_cons_of_mem _ hmem)
  nested := (hpasses ▸ h.nested).replace hmessage

/-! ## Steps -/

/-- Whom the innermost loop calls next. -/
def callee (s : Loops) : Option Subscriber :=
  match s.passes with
  | ⟨.change kind _, sub :: _, none⟩ :: _ => if sub.kind = kind then some sub else none
  | ⟨.fail _, sub :: _, none⟩ :: _ => some sub
  | _ => none

/-- The subscriber that the innermost loop calls is still in the set. -/
def StillSubscribed (s : Loops) : Action → Prop
  | .call => (s.callee.all fun sub => (s.store.subscription sub.id).isSome) = true
  | _ => True

instance (s : Loops) : (a : Action) → Decidable (s.StillSubscribed a)
  | .call => inferInstanceAs (Decidable (_ = true))
  | .consume _ | .subscribe _ | .unsubscribe _ | .close | .return _ => .isTrue trivial

section

variable (h : s.Inv)
include h

theorem Inv.unsubscribe (id : ℕ) : (s.next (.unsubscribe id)).Inv := by
  rw [next]
  split
  · refine h.removed id (fun other hne => s.see_of_ne .closed hne)
      (h.disciplined_see fun subscription hget => (h.disciplined id subscription hget).closed) (·)
      (fun p hp => ?_) h.nested
    exact (h.fits p hp).mono (fun sub hsub => (mem_unsubscribe.mp hsub).1) rfl (·)
      (Nat.le_of_eq (s.length_see id .closed).symm)
  · exact h

theorem Inv.returned (throws : Bool) : (s.next (.return throws)).Inv := by
  rw [next]
  split
  · rename_i kind change rest id outer hpasses
    have hgoes : ({ s with passes := ⟨.change kind change, rest, none⟩ :: outer } : Loops).Inv :=
      h.goesOn hpasses rfl
        (h.fits ⟨.change kind change, rest, some id⟩ (by rw [hpasses]; exact List.mem_cons_self ..))
    cases throws with
    | false => exact hgoes
    | true =>
      refine hgoes.removed id (fun _ _ => rfl) hgoes.disciplined (·) (fun p hp => ?_) hgoes.nested
      exact (hgoes.fits p hp).mono (fun sub hsub => (mem_unsubscribe.mp hsub).1) rfl (·)
        (Nat.le_refl _)
  · rename_i error rest id outer hpasses
    exact h.goesOn hpasses rfl
      (h.fits ⟨.fail error, rest, some id⟩ (by rw [hpasses]; exact List.mem_cons_self ..))
  · exact h

theorem Inv.subscribe (kind : HubWatchKind) : (s.next (.subscribe kind)).Inv := by
  rw [next]
  split
  · split
    · exact h
    · rename_i store snapshot hsub
      obtain ⟨snap, hsnap, heq⟩ := Option.map_eq_some_iff.mp hsub
      cases heq
      unfold HubStateStore.snapshot at hsnap
      split_ifs at hsnap with hopen
      obtain ⟨cursor, hcursor, rfl⟩ := Option.map_eq_some_iff.mp hsnap
      have hold : ∀ sub ∈ s.store.subscribers, sub.id < s.subscriptions.length := by
        intro sub hsub
        obtain ⟨subscription, hget, -⟩ := h.live sub hsub
        exact (List.getElem?_eq_some_iff.mp hget).1
      -- an error is not told of while the store is available
      have hnotFails : ∀ p ∈ s.passes, ¬ p.Fails := by
        rintro ⟨_, rest, calling⟩ hp ⟨error, rfl⟩
        have hunavailable := (h.fits _ hp).1
        rw [hopen.1] at hunavailable
        cases hunavailable
      refine ⟨?_, fun sub hsub => ?_, fun id subscription hget => ?_, fun sub hsub held hheld => ?_,
        fun _ => ⟨by simp [hcursor], .inl ⟨hopen.1, by simpa using hopen.2⟩⟩, fun p hp => ?_, h.nested⟩
      · rw [List.map_append, List.nodup_append]
        refine ⟨h.distinct, by simp, fun a ha b hb => ?_⟩
        obtain ⟨sub, hsub, rfl⟩ := List.mem_map.mp ha
        simp only [List.map_cons, List.map_nil, List.mem_singleton] at hb
        exact hb ▸ Nat.ne_of_lt (hold sub hsub)
      · obtain hmem | hnew := List.mem_append.mp hsub
        · obtain ⟨subscription, hget, hlive⟩ := h.live sub hmem
          exact ⟨subscription, by rw [List.getElem?_append_left (hold sub hmem), hget], hlive⟩
        · rw [List.mem_singleton.mp hnew]
          exact ⟨⟨cursor, []⟩, List.getElem?_concat_length, [], rfl, .nil, rfl⟩
      · obtain hlt | heq := Nat.lt_or_eq_of_le (Nat.le_of_lt_succ
          (by simpa using (List.getElem?_eq_some_iff.mp hget).1 : id < s.subscriptions.length + 1))
        · rw [List.getElem?_append_left hlt] at hget
          exact h.disciplined id subscription hget
        · rw [heq, List.getElem?_concat_length, Option.some_inj] at hget
          rw [← hget]
          exact ⟨[], [], rfl, .nil, .opened⟩
      · obtain hmem | hnew := List.mem_append.mp hsub
        · exact h.behind sub hmem held hheld
        · rw [List.mem_singleton.mp hnew]
          have : cursor = held := Option.some.inj (hcursor.symm.trans hheld)
          exact this ▸ .refl _
      · have hfits := h.fits p hp
        unfold Pass.Fits at hfits ⊢
        split
        · rename_i kind' change hmessage
          rw [hmessage] at hfits
          obtain ⟨hd, hheld, hrest⟩ := hfits
          refine ⟨hd, hheld, fun t ht => ⟨?_, fun sub hsub hid => ?_⟩⟩
          · rw [List.length_append]
            exact Nat.lt_add_right _ (hrest t ht).1
          · obtain hmem | hnew := List.mem_append.mp hsub
            · exact (hrest t ht).2 sub hmem hid
            · rw [List.mem_singleton.mp hnew] at hid
              exact absurd hid (Nat.ne_of_gt (hrest t ht).1)
        · rename_i error hmessage
          exact absurd ⟨error, hmessage⟩ (hnotFails p hp)
  · exact h

theorem Inv.close : (s.next .close).Inv := by
  rw [next]
  split
  · refine ⟨h.distinct, h.live, h.disciplined, h.behind, fun hne => ⟨(h.opened hne).1, .inr
      ⟨_, List.mem_cons_self .., _, rfl⟩⟩, fun p hp => ?_, h.nested.cons ⟨_, rfl⟩⟩
    obtain rfl | hmem := List.mem_cons.mp hp
    · exact ⟨rfl, fun sub hsub => ⟨sub, hsub, rfl⟩⟩
    · exact (h.fits p hmem).mono (fun _ hsub => hsub) rfl (fun _ => rfl) (Nat.le_refl _)
  · exact h

theorem Inv.begun {b : Begun} (hb : s.store.Began b) : (s.begun b).Inv := by
  have hlive : ∀ store : HubStateStore, store.subscribers = s.store.subscribers →
      ∀ sub ∈ store.subscribers, ∃ subscription : Subscription,
        s.subscriptions[sub.id]? = some subscription ∧ subscription.LiveAt sub.previousCursor :=
    fun store hsame sub hsub => h.live sub (hsame ▸ hsub)
  cases hb with
  | silent thrown tracking same =>
    exact ⟨tracking.distinct, hlive _ same, h.disciplined, tracking.behind,
      fun hne => ⟨(tracking.opened hne).2.2, .inl ⟨(tracking.opened hne).1,
        (tracking.opened hne).2.1⟩⟩, nofun, rfl⟩
  | failed error pending =>
    refine ⟨h.distinct, h.live, h.disciplined, h.behind, fun hne => ⟨(h.opened hne).1, .inr
      ⟨_, List.mem_cons_self .., error, rfl⟩⟩, fun p hp => ?_, fun _ => ⟨error, rfl⟩⟩
    obtain rfl := List.mem_singleton.mp hp
    exact ⟨rfl, fun sub hsub => ⟨sub, hsub, rfl⟩⟩
  | changed kind change tracking same here forward =>
    refine ⟨tracking.distinct, hlive _ same, h.disciplined, tracking.behind,
      fun hne => ⟨(tracking.opened hne).2.2, .inl ⟨(tracking.opened hne).1,
        (tracking.opened hne).2.1⟩⟩, fun p hp => ?_, nofun⟩
    obtain rfl := List.mem_singleton.mp hp
    refine ⟨tracking.distinct, here, fun t ht => ⟨?_, fun sub hsub _ => forward sub (same ▸ hsub)⟩⟩
    obtain ⟨subscription, hget, -⟩ := hlive _ same t ht
    exact (List.getElem?_eq_some_iff.mp hget).1

theorem Inv.consume (record : JsValue) : (s.next (.consume record)).Inv := by
  rw [next]
  split
  · rename_i hidle
    have htracking := h.tracking (List.isEmpty_iff.mp hidle)
    exact h.begun (HubStateStore.beginConsume_began htracking record)
  · exact h

theorem Inv.finish {message : Message}
    (hpasses : s.passes = ⟨message, [], none⟩ :: outer) : (s.finish outer).Inv := by
  have hnested := h.nested
  rw [hpasses] at hnested
  -- after an error nobody is subscribed; after a change the loops that are left are as they were
  have hpop : Nested s.pending outer → ({ s with passes := outer } : Loops).Inv := by
    intro hrest
    refine ⟨h.distinct, h.live, h.disciplined, h.behind, fun hne => ?_, fun p hp => ?_, hrest⟩
    · obtain ⟨hcursor, havail | ⟨p, hp, hfails⟩⟩ := h.opened hne
      · exact ⟨hcursor, .inl havail⟩
      · rw [hpasses] at hp
        obtain rfl | hmem := List.mem_cons.mp hp
        · obtain ⟨error, rfl⟩ := hfails
          exact absurd (h.subscribers_eq_nil hpasses) hne
        · exact ⟨hcursor, .inr ⟨p, hmem, hfails⟩⟩
    · exact h.fits p (by rw [hpasses]; exact List.mem_cons_of_mem _ hp)
  cases outer with
  | nil =>
    cases hpending : s.pending with
    | none =>
      have hfinish : s.finish [] = { s with passes := [] } := by
        unfold Loops.finish
        rw [hpending]
      exact hfinish ▸ hpop hpending
    | some audit =>
      obtain ⟨error, rfl⟩ : Pass.Fails ⟨message, [], none⟩ := hnested (by rw [hpending]; rfl)
      have hempty := h.subscribers_eq_nil hpasses
      have hfinish : s.finish [] = s.begun (s.store.beginLoad audit) := by
        unfold Loops.finish
        rw [hpending]
      exact hfinish ▸ h.begun (HubStateStore.beginLoad_began_of_empty hempty audit)
  | cons q passes => exact hpop hnested.2

theorem Inv.failed {error : HubStateSourceError} {sub : Subscriber}
    {rest : List Subscriber} (hpasses : s.passes = ⟨.fail error, sub :: rest, none⟩ :: outer)
    (hstill : (s.store.subscription sub.id).isSome = true) :
    (s.visit (.fail error) sub rest outer).Inv := by
  obtain ⟨current, hcurrent⟩ := Option.isSome_iff_exists.mp hstill
  obtain ⟨hmem, hid⟩ := HubStateStore.mem_of_subscription hcurrent
  obtain ⟨subscription, hget, hlive⟩ := h.live current hmem
  rw [hid] at hget
  have hhead := h.fits ⟨.fail error, sub :: rest, none⟩
    (by rw [hpasses]; exact List.mem_cons_self ..)
  refine h.removed sub.id (fun other hne => s.see_of_ne (.error error) hne)
    (h.disciplined_see fun before hbefore => ?_)
    (fun _ => ⟨_, List.mem_cons_self .., error, rfl⟩) (fun p hp => ?_) ?_
  · rw [hget, Option.some_inj] at hbefore
    exact hbefore ▸ hlive.error error
  · obtain rfl | hmem := List.mem_cons.mp hp
    · refine ⟨hhead.1, fun other hother => ?_⟩
      obtain ⟨hothermem, hne⟩ := mem_unsubscribe.mp hother
      obtain ⟨t, ht, htid⟩ := hhead.2 other hothermem
      obtain rfl | htail := List.mem_cons.mp ht
      · exact absurd htid.symm hne
      · exact ⟨t, htail, htid⟩
    · exact (h.fits p (by rw [hpasses]; exact List.mem_cons_of_mem _ hmem)).mono
        (fun other hother => (mem_unsubscribe.mp hother).1) rfl (·)
        (Nat.le_of_eq (s.length_see sub.id (.error error)).symm)
  · exact (hpasses ▸ h.nested).replace rfl

theorem Inv.changed {kind : HubWatchKind} {change : HubWatchChange} {sub : Subscriber}
    {rest : List Subscriber}
    (hpasses : s.passes = ⟨.change kind change, sub :: rest, none⟩ :: outer)
    (hstill : (s.store.subscription sub.id).isSome = true) :
    ({ s.notify change sub with
        passes := ⟨.change kind change, rest, some sub.id⟩ :: outer } : Loops).Inv := by
  obtain ⟨current, hcurrent⟩ := Option.isSome_iff_exists.mp hstill
  obtain ⟨hmem, hid⟩ := HubStateStore.mem_of_subscription hcurrent
  obtain ⟨subscription, hget, hlive⟩ := h.live current hmem
  rw [hid] at hget
  obtain ⟨hd, hheld, hrest⟩ := h.fits ⟨.change kind change, sub :: rest, none⟩
    (by rw [hpasses]; exact List.mem_cons_self ..)
  have hforward := (hrest sub (List.mem_cons_self ..)).2 current hmem hid
  have hnested := h.nested
  rw [hpasses] at hnested
  obtain rfl := hnested.outer_eq_nil rfl
  have hsees : (subscription.see (.change (current.select change))).LiveAt change.cursor :=
    hlive.change rfl hforward
  unfold notify
  rw [hcurrent, Option.getD_some]
  refine ⟨?_, fun t ht => ?_, h.disciplined_see fun before hbefore => ?_, fun t ht held hheld' => ?_,
    fun hne => ?_, fun p hp => ?_, hnested.replace rfl⟩
  · have hids : (s.store.subscribers.map fun t =>
        if t.id = sub.id then { t with previousCursor := change.cursor } else t).map Subscriber.id =
          s.store.subscribers.map Subscriber.id := by
      rw [List.map_map]
      refine List.map_congr_left fun t _ => ?_
      show (if t.id = sub.id then { t with previousCursor := change.cursor } else t).id = t.id
      split <;> rfl
    exact hids ▸ h.distinct
  · obtain ⟨before, hbefore, rfl⟩ := List.mem_map.mp ht
    by_cases heq : before.id = sub.id
    · rw [if_pos heq]
      refine ⟨_, ?_, hsees⟩
      show (s.see sub.id _)[before.id]? = _
      rw [heq, see_self, hget]
      rfl
    · rw [if_neg heq]
      obtain ⟨other, hother, hotherLive⟩ := h.live before hbefore
      exact ⟨other, (s.see_of_ne _ heq).trans hother, hotherLive⟩
  · rw [hget, Option.some_inj] at hbefore
    exact hbefore ▸ hsees.disciplined
  · obtain ⟨before, hbefore, rfl⟩ := List.mem_map.mp ht
    by_cases heq : before.id = sub.id
    · rw [if_pos heq]
      have : change.cursor = held := Option.some.inj (hheld.symm.trans hheld')
      exact this ▸ .refl _
    · rw [if_neg heq]
      exact h.behind before hbefore held hheld'
  · obtain ⟨hcursor, havail | ⟨p, hp, hfails⟩⟩ := h.opened (List.ne_nil_of_mem hmem)
    · exact ⟨hcursor, .inl havail⟩
    · rw [hpasses, List.mem_singleton] at hp
      obtain ⟨error, herror⟩ := hfails
      rw [hp] at herror
      cases herror
  · obtain rfl := List.mem_singleton.mp hp
    rw [List.map_cons, List.nodup_cons] at hd
    refine ⟨hd.2, hheld, fun t ht => ⟨?_, fun other hother hid' => ?_⟩⟩
    · rw [length_see]
      exact (hrest t (List.mem_cons_of_mem _ ht)).1
    · obtain ⟨before, hbefore, rfl⟩ := List.mem_map.mp hother
      by_cases heq : before.id = sub.id
      · rw [if_pos heq] at hid'
        refine absurd (List.mem_map_of_mem ht) (?_ : t.id ∉ rest.map Subscriber.id)
        exact (heq.symm.trans hid') ▸ hd.1
      · rw [if_neg heq] at hid' ⊢
        exact (hrest t (List.mem_cons_of_mem _ ht)).2 before hbefore hid'

theorem Inv.call (hstill : s.StillSubscribed .call) : (s.next .call).Inv := by
  have hcallee : ∀ sub, s.callee = some sub → (s.store.subscription sub.id).isSome = true := by
    intro sub hsub
    rw [StillSubscribed, hsub] at hstill
    exact hstill
  rw [next]
  split
  · rename_i message sub rest outer hpasses
    cases message with
    | change kind change =>
      rw [visit]
      split
      · rename_i hkind
        refine h.changed hpasses (hcallee sub ?_)
        rw [callee, hpasses]
        exact if_pos hkind
      · refine h.goesOn hpasses rfl ?_
        obtain ⟨hd, hheld, hrest⟩ := h.fits ⟨.change kind change, sub :: rest, none⟩
          (by rw [hpasses]; exact List.mem_cons_self ..)
        exact ⟨(List.nodup_cons.mp hd).2, hheld,
          fun t ht => hrest t (List.mem_cons_of_mem _ ht)⟩
    | fail error =>
      refine h.failed hpasses (hcallee sub ?_)
      rw [callee, hpasses]
  · rename_i hpasses
    exact h.finish hpasses
  · exact h

theorem Inv.next {a : Action} (hstill : s.StillSubscribed a) : (s.next a).Inv := by
  cases a with
  | consume record => exact h.consume record
  | subscribe kind => exact h.subscribe kind
  | unsubscribe id => exact h.unsubscribe id
  | close => exact h.close
  | call => exact h.call hstill
  | «return» throws => exact h.returned throws

end

/-- As long as the loops come to those only who are still subscribed, every subscription sees linked
changes, then one error at most, and nothing after its error or its `close`. -/
theorem subscription_disciplined (h : system.Reachable StillSubscribed s) {id : ℕ}
    {subscription : Subscription} (hget : s.subscriptions[id]? = some subscription) :
    subscription.Disciplined :=
  (h.invariant_ofFun inv_new fun _ _ hs hstill => hs.next hstill).disciplined id subscription hget

/-! ## Runs with callbacks -/

/-- Two subscriptions, and a change: the first callback runs. -/
def twoSubscriptions : List Action :=
  [.consume (checkpointRecord 0 []), .subscribe .sequence, .subscribe .sequence,
    .consume (upsertRecord 0 "a"), .call]

/-- The second callback throws, and the store is closed. -/
def thenClosed : List Action :=
  twoSubscriptions ++ [.return false, .call, .return true, .call, .close, .call]

/-- The first callback closes the second subscription. -/
def closesAnother : List Action :=
  twoSubscriptions ++ [.unsubscribe 1, .return false, .call]

theorem subscription_disciplined_two :
    ∃ subscription, (thenClosed.foldl next new).subscriptions[0]? = some subscription ∧
      subscription.seen.map Seen.isChange = [true, false] ∧ subscription.Disciplined := by
  have hseen : ((thenClosed.foldl next new).subscriptions[0]?).map
      (fun s => s.seen.map Seen.isChange) = some [true, false] := by
    decide +kernel
  have htest : ∀ (s : Loops) (a : Action), decide (s.StillSubscribed a) = true →
      s.StillSubscribed a := fun _ _ => of_decide_eq_true
  have hrun : system.Reachable StillSubscribed (thenClosed.foldl next new) :=
    System.Reachable.of_checks htest (.init rfl) (by decide +kernel)
  obtain ⟨subscription, hget, hkinds⟩ := Option.map_eq_some_iff.mp hseen
  exact ⟨subscription, hget, hkinds, subscription_disciplined hrun hget⟩

/-- The second subscription is told of the change after its `close` has returned. -/
theorem closesAnother_undisciplined :
    ∃ subscription, (closesAnother.foldl next new).subscriptions[1]? = some subscription ∧
      ¬ subscription.Disciplined := by
  have hseen : ((closesAnother.foldl next new).subscriptions[1]?).map
      (fun s => s.seen.map Seen.isChange) = some [false, true] := by
    decide +kernel
  obtain ⟨subscription, hget, hkinds⟩ := Option.map_eq_some_iff.mp hseen
  refine ⟨subscription, hget, fun hdisciplined => ?_⟩
  have horder := hdisciplined.changes_first
  rw [hkinds] at horder
  exact absurd horder (by decide)

end Loops

end TransformHub.HubState
