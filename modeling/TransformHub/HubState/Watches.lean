import TransformHub.HubState.Subscribers

/-!
# Subscriptions over a run of the store

A `World` is a store together with everything its subscriptions were given: their snapshots and
change events, and how each has ended.
-/

namespace TransformHub.HubState

open Js

/-! ## The run -/

inductive WatchStatus where
  | live
  | closed
  | failed
  | threw
deriving DecidableEq

/-- A subscription as its owner sees it. -/
structure Watch where
  kind : HubWatchKind
  snapshot : HubWatchSnapshot
  changes : List HubWatchChange
  status : WatchStatus

/-- The items the owner holds: the snapshot with the changes folded over it. -/
def Watch.replica (w : Watch) : Replica :=
  (Replica.ofItems w.kind w.snapshot.items).foldChanges w.changes

/-- A call of one of the callbacks; `throws` says whether the change callback throws. -/
def Watch.receive (throws : Bool) (w : Watch) : Notice → Watch
  | .change c =>
    { w with changes := w.changes ++ [c], status := if throws then .threw else w.status }
  | .error _ => { w with status := .failed }

/-- A store and the subscriptions it has given out; a subscription's number is its index. -/
structure World where
  store : HubStateStore
  watches : List Watch

namespace World

def new : World := ⟨.new, []⟩

/-- The world after a call of the store: the callbacks have run. -/
def after (w : World) (throws : ℕ → Bool) (o : Outcome) : World where
  store := o.store
  watches := w.watches.mapIdx fun id watch =>
    (noticesFor id o.notices).foldl (Watch.receive (throws id)) watch

inductive Action where
  | consume (record : JsValue) (throws : ℕ → Bool)
  | subscribe (kind : HubWatchKind)
  | unsubscribe (id : ℕ)
  | close

def next (w : World) : Action → World
  | .consume record throws => w.after throws (w.store.consume record throws)
  | .subscribe kind =>
    match w.store.subscribe kind w.watches.length with
    | some (store, snapshot) => ⟨store, w.watches ++ [⟨kind, snapshot, [], .live⟩]⟩
    | none => w
  | .unsubscribe id =>
    ⟨w.store.unsubscribe id, w.watches.modify id fun watch => { watch with status := .closed }⟩
  | .close => w.after (fun _ => false) w.store.close

/-- The runs of a store and its subscriptions. -/
def system : System World Action := .ofFun new next

end World

/-! ## The steps that keep subscribers informed -/

namespace HubStateStore

def Watched (s : HubStateStore) (kind : HubWatchKind) : Prop :=
  ∃ sub ∈ s.subscribers, sub.kind = kind

/-- The record does not change, behind a subscriber's back, what the subscriber watches. -/
structure Safe (s : HubStateStore) (record : JsValue) : Prop where
  /-- A checkpoint at the cursor of an available store brings the items that the store has. -/
  checkpoint : ∀ inventory cursor, AcceptedCheckpoint record inventory cursor →
    s.available = true → (∃ held, s.cursor = some held ∧ held.cursor = cursor.cursor) →
      ∀ kind, s.Watched kind →
        Replica.Same (s.replica kind) (.ofItems kind (inventoryItems inventory kind))
  /-- A change does not bring a sequence that the store lacks but keeps manifests of. -/
  leftover : ∀ mutation copied, s.AcceptedChange record mutation →
    mutation.traverse copy = some copied → s.Watched mutation.kind → s.NoLeftover copied
  /-- A change can be copied whole, with its cursors. -/
  whole : ∀ mutation, s.AcceptedChange record mutation → s.Watched mutation.kind →
    (copy ((record.get "hubState").get "cursor")).isSome ∧
      (copy ((record.get "hubState").get "mutation")).isSome ∧
        (copy ((record.get "hubState").get "previousCursor")).isSome

end HubStateStore

/-- The steps whose records are safe for the store they are given to. -/
def World.SafeStep (w : World) : World.Action → Prop
  | .consume record _ => w.store.Safe record
  | _ => True

/-! ## The invariant -/

namespace World

/-- What holds between a store and its subscriptions. -/
structure Inv (w : World) : Prop where
  wellKeyed : w.store.WellKeyed
  distinct : (w.store.subscribers.map Subscriber.id).Nodup
  /-- every subscriber is a live subscription of its kind -/
  known : ∀ sub ∈ w.store.subscribers, ∃ watch, w.watches[sub.id]? = some watch ∧
    watch.kind = sub.kind ∧ watch.status = .live
  /-- every live subscription has its subscriber -/
  subscribed : ∀ (id : ℕ) (watch : Watch), w.watches[id]? = some watch → watch.status = .live →
    ∃ sub ∈ w.store.subscribers, sub.id = id
  /-- only an available store has subscribers -/
  opened : w.store.subscribers ≠ [] →
    w.store.available = true ∧ w.store.closed = false ∧ w.store.cursor.isSome
  /-- every live subscription shows what the store shows -/
  follows : ∀ (id : ℕ) (watch : Watch), w.watches[id]? = some watch → watch.status = .live →
    Replica.Same watch.replica (w.store.replica watch.kind)

theorem watches_after (w : World) (throws : ℕ → Bool) (o : Outcome) (id : ℕ) :
    (w.after throws o).watches[id]? =
      (w.watches[id]?).map fun watch =>
        (noticesFor id o.notices).foldl (Watch.receive (throws id)) watch := by
  simp [after]

variable {w : World}

theorem Inv.ended (h : w.Inv) {id : ℕ} {watch : Watch} (hw : w.watches[id]? = some watch)
    (hs : watch.status ≠ .live) : ∀ sub ∈ w.store.subscribers, sub.id ≠ id := by
  intro sub hsub hid
  obtain ⟨watch', hw', -, hlive⟩ := h.known sub hsub
  rw [hid, hw, Option.some.injEq] at hw'
  exact hs (hw' ▸ hlive)

theorem Inv.no_live (h : w.Inv) {throws : ℕ → Bool} {e : HubStateSourceError} {s : HubStateStore}
    {t : Bool} {id : ℕ} {watch : Watch}
    (hw : (w.after throws ⟨s, w.store.failures e, t⟩).watches[id]? = some watch) :
    watch.status ≠ .live := by
  rw [watches_after] at hw
  obtain ⟨old, hold, rfl⟩ := Option.map_eq_some_iff.mp hw
  simp only [failures_eq]
  by_cases hlive : old.status = .live
  · obtain ⟨sub, hsub, rfl⟩ := h.subscribed id old hold hlive
    rw [noticesFor_of_mem h.distinct (fun _ => some (.error e)) hsub]
    simp [Watch.receive]
  · rw [noticesFor_of_notMem (fun _ => some (.error e)) (h.ended hold hlive)]
    exact hlive

theorem Inv.of_no_live {s : HubStateStore} {watches : List Watch} (hs : s.WellKeyed)
    (hsubs : s.subscribers = [])
    (hlive : ∀ (id : ℕ) (watch : Watch), watches[id]? = some watch → watch.status ≠ .live) :
    Inv ⟨s, watches⟩ where
  wellKeyed := hs
  distinct := by simp [hsubs]
  known := fun sub hsub => by simp [hsubs] at hsub
  subscribed := fun id watch hw hl => absurd hl (hlive id watch hw)
  opened := fun hne => absurd hsubs hne
  follows := fun id watch hw hl => absurd hl (hlive id watch hw)

theorem Inv.of_same (h : w.Inv) {s : HubStateStore} (hs : s.WellKeyed)
    (hsubs : s.subscribers = w.store.subscribers)
    (hopen : w.store.subscribers ≠ [] →
      s.available = true ∧ s.closed = false ∧ s.cursor.isSome)
    (hsame : ∀ kind, w.store.Watched kind →
      Replica.Same (w.store.replica kind) (s.replica kind)) : Inv ⟨s, w.watches⟩ where
  wellKeyed := hs
  distinct := by rw [hsubs]; exact h.distinct
  known := fun sub hsub => h.known sub (hsubs ▸ hsub)
  subscribed := fun id watch hw hl => by rw [hsubs]; exact h.subscribed id watch hw hl
  opened := fun hne => hopen (hsubs ▸ hne)
  follows := by
    intro id watch hw hl
    obtain ⟨sub, hsub, rfl⟩ := h.subscribed id watch hw hl
    obtain ⟨watch', hw', hkind, -⟩ := h.known sub hsub
    have hww : watch = watch' := by
      rw [hw', Option.some.injEq] at hw
      exact hw.symm
    exact (h.follows _ watch hw hl).trans (hsame _ ⟨sub, hsub, by rw [hww, hkind]⟩)

theorem after_silent (w : World) (throws : ℕ → Bool) (s : HubStateStore) (t : Bool) :
    w.after throws ⟨s, [], t⟩ = ⟨s, w.watches⟩ := by
  refine congrArg (World.mk s) (List.ext_getElem? fun i => ?_)
  simp

/-! ### The steps -/

theorem Inv.failed (h : w.Inv) (throws : ℕ → Bool) (e : HubStateSourceError) :
    (w.after throws (w.store.invalidate e)).Inv :=
  .of_no_live HubStateStore.wellKeyed_cleared rfl fun _ _ hw => h.no_live hw

theorem Inv.replaced (h : w.Inv) (throws : ℕ → Bool) (e : HubStateSourceError) (inventory : Json)
    (cursor : StoredCursor) :
    (w.after throws ⟨w.store.cleared.load inventory cursor, w.store.failures e, false⟩).Inv :=
  .of_no_live HubStateStore.wellKeyed_load rfl fun _ _ hw => h.no_live hw

section

variable (h : w.Inv)
include h

/-- Loading a checkpoint without failing anyone: there is nobody to fail, or the checkpoint brings
what is there. -/
theorem Inv.loaded {record : JsValue} {throws : ℕ → Bool} {inventory : Json}
    {cursor : StoredCursor} (hsafe : w.store.Safe record)
    (accepted : HubStateStore.AcceptedCheckpoint record inventory cursor)
    (here : ∀ held, w.store.cursor = some held → w.store.available = true →
      held.cursor = cursor.cursor) :
    (w.after throws ⟨w.store.load inventory cursor, [], false⟩).Inv := by
  rw [after_silent]
  refine h.of_same HubStateStore.wellKeyed_load rfl (fun hne => ⟨rfl, (h.opened hne).2.1, rfl⟩)
    fun kind hwatched => ?_
  have ⟨sub, hsub, _⟩ := hwatched
  obtain ⟨havail, -, hcur⟩ := h.opened (List.ne_nil_of_mem hsub)
  obtain ⟨held, hheld⟩ := Option.isSome_iff_exists.mp hcur
  have hsame := hsafe.checkpoint inventory cursor accepted havail
    ⟨held, hheld, here held hheld havail⟩
  rw [HubStateStore.replica_load _ accepted.wellNamed]
  · exact hsame kind hwatched
  · rintro rfl
    exact HubStateStore.nodup_instanceNames_of_same h.wellKeyed (hsame _ hwatched)

theorem Inv.unnoticed {copied : HubStateMutation Json}
    (hassoc : HubStateStore.Associated copied) (hnone : ¬ w.store.Watched copied.kind)
    (cursor : Option StoredCursor) (hcursor : w.store.cursor.isSome → cursor.isSome) :
    Inv ⟨{ w.store.applyCopied copied with cursor := cursor }, w.watches⟩ := by
  have hfields : (w.store.applyCopied copied).subscribers = w.store.subscribers ∧
      (w.store.applyCopied copied).available = w.store.available ∧
        (w.store.applyCopied copied).closed = w.store.closed := by
    unfold HubStateStore.applyCopied
    split <;> first | exact ⟨rfl, rfl, rfl⟩ | (split <;> exact ⟨rfl, rfl, rfl⟩)
  refine h.of_same ?_ hfields.1 (fun hne => ?_) fun kind hwatched => ?_
  · exact { HubStateStore.wellKeyed_applyCopied h.wellKeyed hassoc with }
  · obtain ⟨ha, hc, hs⟩ := h.opened hne
    exact ⟨hfields.2.1.trans ha, hfields.2.2.trans hc, hcursor hs⟩
  · have hkind : kind ≠ copied.kind := by
      rintro rfl
      exact hnone hwatched
    exact .of_eq (congrArg (Replica.ofItems kind)
      (HubStateStore.applyCopied_items_of_ne hkind).symm)

theorem Inv.notified {throws : ℕ → Bool} {copied : HubStateMutation Json}
    (change : HubWatchChange) (hassoc : HubStateStore.Associated copied)
    (hread : readMutation change.mutation = some copied)
    (hleft : w.store.Watched copied.kind → w.store.NoLeftover copied) :
    (w.after throws
      (({ w.store.applyCopied copied with cursor := some change.cursor } : HubStateStore).notify
        copied.kind change throws)).Inv := by
  obtain ⟨hsubs, havail, hclosed, -⟩ := HubStateStore.fields_applyCopied w.store copied
  set s : HubStateStore := { w.store.applyCopied copied with cursor := some change.cursor } with hs
  have hwell : s.WellKeyed := { HubStateStore.wellKeyed_applyCopied h.wellKeyed hassoc with }
  have hsubs' : (s.notify copied.kind change throws).store.subscribers =
      w.store.subscribers.filterMap (HubStateStore.kept copied.kind change throws) := by
    rw [HubStateStore.subscribers_notify, show s.subscribers = w.store.subscribers from hsubs]
  let g := HubStateStore.noticeOf copied.kind change
  have hg : ∀ sub, g sub = HubStateStore.noticeOf copied.kind change sub := fun _ => rfl
  have hnotices : (s.notify copied.kind change throws).notices =
      w.store.subscribers.filterMap fun sub => (g sub).map fun n => (sub.id, n) := by
    rw [HubStateStore.notices_notify, show s.subscribers = w.store.subscribers from hsubs]
  -- what became of the subscription of one subscriber
  have hwatch : ∀ sub ∈ w.store.subscribers, ∃ old, w.watches[sub.id]? = some old ∧
      old.kind = sub.kind ∧ old.status = .live ∧
        (w.after throws (s.notify copied.kind change throws)).watches[sub.id]? =
          some ((g sub).toList.foldl (Watch.receive (throws sub.id)) old) := by
    intro sub hsub
    obtain ⟨old, hold, hkind, hlive⟩ := h.known sub hsub
    refine ⟨old, hold, hkind, hlive, ?_⟩
    rw [watches_after, hold, hnotices, noticesFor_of_mem h.distinct g hsub]
    rfl
  -- a live subscription was live, and its callback did not throw
  have hlive : ∀ (id : ℕ) (watch : Watch),
      (w.after throws (s.notify copied.kind change throws)).watches[id]? = some watch →
      watch.status = .live → ∃ sub ∈ w.store.subscribers, sub.id = id := by
    intro id watch hw hl
    rw [watches_after] at hw
    obtain ⟨old, hold, rfl⟩ := Option.map_eq_some_iff.mp hw
    by_cases holdlive : old.status = .live
    · exact h.subscribed id old hold holdlive
    · rw [hnotices, noticesFor_of_notMem g (h.ended hold holdlive)] at hl
      exact absurd hl holdlive
  refine ⟨{ hwell with }, ?_, ?_, ?_, ?_, ?_⟩
  · show ((s.notify copied.kind change throws).store.subscribers.map Subscriber.id).Nodup
    rw [hsubs']
    exact h.distinct.sublist (HubStateStore.map_id_filterMap_kept _ _ _ _)
  · intro sub' hsub'
    have hsub' : sub' ∈ (s.notify copied.kind change throws).store.subscribers := hsub'
    rw [hsubs'] at hsub'
    obtain ⟨sub, hsub, hkept⟩ := List.mem_filterMap.mp hsub'
    obtain ⟨hid, hkind, hthrow⟩ := HubStateStore.kept_eq_some hkept
    obtain ⟨old, -, hok, hol, hnew⟩ := hwatch sub hsub
    refine ⟨_, hid ▸ hnew, ?_⟩
    by_cases hk : sub.kind = copied.kind
    · have ht : throws sub'.id = false := hid ▸ hthrow hk
      simp [hg, HubStateStore.noticeOf, hk, Watch.receive, ht, hol, hok, hkind]
    · simp [hg, HubStateStore.noticeOf, hk, hol, hok, hkind]
  · intro id watch hw hl
    obtain ⟨sub, hsub, rfl⟩ := hlive id watch hw hl
    obtain ⟨old, -, -, -, hnew⟩ := hwatch sub hsub
    rw [hnew, Option.some.injEq] at hw
    subst hw
    have hthrow : sub.kind = copied.kind → throws sub.id = false := by
      intro hk
      by_contra ht
      rw [Bool.not_eq_false] at ht
      simp [hg, HubStateStore.noticeOf, hk, Watch.receive, ht] at hl
    obtain ⟨sub', hkept, hid⟩ := HubStateStore.kept_isSome change hthrow
    refine ⟨sub', ?_, hid⟩
    show sub' ∈ (s.notify copied.kind change throws).store.subscribers
    rw [hsubs']
    exact List.mem_filterMap.mpr ⟨sub, hsub, hkept⟩
  · intro hne
    have hne : (s.notify copied.kind change throws).store.subscribers ≠ [] := hne
    have hold : w.store.subscribers ≠ [] := by
      rintro hnil
      rw [hsubs', hnil] at hne
      exact hne rfl
    obtain ⟨ha, hc, -⟩ := h.opened hold
    exact ⟨havail.trans ha, hclosed.trans hc, rfl⟩
  · intro id watch hw hl
    obtain ⟨sub, hsub, rfl⟩ := hlive id watch hw hl
    obtain ⟨old, hold, hok, hol, hnew⟩ := hwatch sub hsub
    rw [hnew, Option.some.injEq] at hw
    subst hw
    have hfollows := h.follows _ old hold hol
    show Replica.Same _ (s.replica _)
    by_cases hk : sub.kind = copied.kind
    · -- the event carries the mutation that the store has applied
      have hreplica : ((g sub).toList.foldl (Watch.receive (throws sub.id)) old).replica =
          old.replica.fold copied := by
        simp [hg, HubStateStore.noticeOf, hk, Watch.receive, Watch.replica, Replica.foldChanges_concat,
          Replica.foldChange, Subscriber.select, hread]
      have hkind : ((g sub).toList.foldl (Watch.receive (throws sub.id)) old).kind =
          copied.kind := by
        simp [hg, HubStateStore.noticeOf, hk, Watch.receive, hok]
      rw [hreplica, hkind]
      rw [hok, hk] at hfollows
      exact (hfollows.fold copied).trans
        (HubStateStore.applyCopied_replica h.wellKeyed hassoc (hleft ⟨sub, hsub, hk⟩))
    · have hsame : (g sub).toList.foldl (Watch.receive (throws sub.id)) old = old := by
        simp [hg, HubStateStore.noticeOf, hk]
      rw [hsame]
      refine hfollows.trans (.of_eq (congrArg (Replica.ofItems old.kind) ?_))
      exact (HubStateStore.applyCopied_items_of_ne (hok ▸ hk)).symm

theorem Inv.changed {record : JsValue} {throws : ℕ → Bool}
    {mutation : HubStateMutation JsValue} {copied : HubStateMutation Json}
    (hsafe : w.store.Safe record) (accepted : w.store.AcceptedChange record mutation)
    (hcopied : mutation.traverse copy = some copied) :
    (w.after throws ((w.store.applyCopied copied).publish (record.get "hubState") mutation.kind
      throws)).Inv := by
  have hassoc := HubStateStore.associated_of_valid accepted.associations hcopied
  have hkind : copied.kind = mutation.kind := HubStateMutation.kind_of_traverse hcopied
  obtain ⟨previousCursor, cursor, hprevious, hcursor, -⟩ := accepted.continues
  have hstore := (HubStateStore.fields_applyCopied w.store copied).2.2.2
  unfold HubStateStore.publish
  by_cases hwatched : w.store.Watched mutation.kind
  · obtain ⟨hc, hm, hp⟩ := hsafe.whole mutation accepted hwatched
    obtain ⟨j, hj⟩ := Option.isSome_iff_exists.mp hm
    rcases copyCursor_spec hcursor with ⟨hn, -⟩ | ⟨sc, -, hsc, -⟩
    · simp [hn] at hc
    rcases copyCursor_spec hprevious with ⟨hn, -⟩ | ⟨sp, -, hsp, -⟩
    · simp [hn] at hp
    obtain ⟨ν, hν, hread⟩ := readMutation_copy hj accepted.valid
    rw [hcopied, Option.some.injEq] at hν
    subst hν
    rw [hsc, hj, hsp, ← hkind]
    exact h.notified ⟨j, sc, sp⟩ hassoc hread fun hw =>
      hsafe.leftover mutation copied accepted hcopied (hkind ▸ hw)
  · have hnone : ¬ w.store.Watched copied.kind := hkind ▸ hwatched
    split
    next =>
      rw [after_silent]
      have hun := h.unnoticed hassoc hnone _ id
      rwa [← hstore] at hun
    next sc hsc =>
      split
      next j sp hj hsp =>
        obtain ⟨ν, hν, hread⟩ := readMutation_copy hj accepted.valid
        rw [hcopied, Option.some.injEq] at hν
        subst hν
        rw [← hkind]
        exact h.notified ⟨j, sc, sp⟩ hassoc hread fun hw => absurd hw hnone
      next =>
        rw [after_silent]
        exact h.unnoticed hassoc hnone (some sc) fun _ => rfl

theorem Inv.consumed {record : JsValue} {throws : ℕ → Bool}
    (hsafe : w.store.Safe record) : (w.after throws (w.store.consume record throws)).Inv := by
  generalize ho : w.store.consume record throws = o
  have hcase : w.store.Consumed record throws o := ho ▸ HubStateStore.consume_consumed
  cases hcase with
  | ignored t => rw [after_silent]; exact h
  | failed e => exact h.failed throws e
  | replaced e inventory cursor => exact h.replaced throws e inventory cursor
  | loaded accepted here => exact h.loaded hsafe accepted here
  | changed accepted hcopied => exact h.changed hsafe accepted hcopied

theorem Inv.subscribed_new {kind : HubWatchKind} {store : HubStateStore}
    {snapshot : HubWatchSnapshot}
    (hsub : w.store.subscribe kind w.watches.length = some (store, snapshot)) :
    Inv ⟨store, w.watches ++ [⟨kind, snapshot, [], .live⟩]⟩ := by
  obtain ⟨snap, hsnap, heq⟩ := Option.map_eq_some_iff.mp hsub
  cases heq
  unfold HubStateStore.snapshot at hsnap
  split_ifs at hsnap with hopen
  obtain ⟨cursor, hcursor, rfl⟩ := Option.map_eq_some_iff.mp hsnap
  have hlt : ∀ sub ∈ w.store.subscribers, sub.id < w.watches.length := by
    intro sub hs
    obtain ⟨watch, hw, -⟩ := h.known sub hs
    exact (List.getElem?_eq_some_iff.mp hw).1
  have hold : ∀ {id : ℕ} {watch : Watch}, w.watches[id]? = some watch →
      (w.watches ++ [⟨kind, ⟨kind, cursor, w.store.items kind⟩, [], .live⟩])[id]? =
        some watch := OrderedMap.getElem?_append_of_some
  -- a subscription of the new world is an old one or the new one
  have hcases : ∀ {id : ℕ} {watch : Watch},
      (w.watches ++ [⟨kind, ⟨kind, cursor, w.store.items kind⟩, [], .live⟩])[id]? = some watch →
      w.watches[id]? = some watch ∨ (id = w.watches.length ∧
        watch = ⟨kind, ⟨kind, cursor, w.store.items kind⟩, [], .live⟩) := by
    intro id watch hw
    exact (OrderedMap.getElem?_append_cases hw).symm.imp_left And.right
  refine ⟨{ h.wellKeyed with }, ?_, ?_, ?_, fun _ => ⟨hopen.1, by simpa using hopen.2, ?_⟩, ?_⟩
  · show ((w.store.subscribers ++ [_]).map Subscriber.id).Nodup
    rw [List.map_append, List.nodup_append]
    refine ⟨h.distinct, by simp, fun a ha b hb => ?_⟩
    obtain ⟨sub, hs, rfl⟩ := List.mem_map.mp ha
    simp only [List.map_cons, List.map_nil, List.mem_singleton] at hb
    exact hb ▸ Nat.ne_of_lt (hlt sub hs)
  · intro sub hs
    rcases List.mem_append.mp hs with hs | hs
    · obtain ⟨watch, hw, hk, hl⟩ := h.known sub hs
      exact ⟨watch, hold hw, hk, hl⟩
    · rw [List.mem_singleton] at hs
      subst hs
      exact ⟨⟨kind, ⟨kind, cursor, w.store.items kind⟩, [], .live⟩, by simp, rfl, rfl⟩
  · intro id watch hw hl
    rcases hcases hw with hw | ⟨rfl, -⟩
    · obtain ⟨sub, hs, hid⟩ := h.subscribed id watch hw hl
      exact ⟨sub, List.mem_append_left _ hs, hid⟩
    · exact ⟨_, List.mem_append_right _ (List.mem_singleton.mpr rfl), rfl⟩
  · simp [hcursor]
  · intro id watch hw hl
    rcases hcases hw with hw | ⟨-, rfl⟩
    · exact h.follows id watch hw hl
    · exact .refl _

theorem Inv.unsubscribed (id : ℕ) : (w.next (.unsubscribe id)).Inv := by
  have hcases : ∀ {i : ℕ} {watch : Watch},
      (w.watches.modify id fun x => { x with status := .closed })[i]? = some watch →
      watch.status = .live → i ≠ id ∧ w.watches[i]? = some watch := by
    intro i watch hw hl
    rw [List.getElem?_modify] at hw
    obtain ⟨old, hold, rfl⟩ := Option.map_eq_some_iff.mp hw
    by_cases hi : id = i
    · simp [hi] at hl
    · exact ⟨Ne.symm hi, by simp [hi, hold]⟩
  refine ⟨{ h.wellKeyed with }, h.distinct.sublist (List.filter_sublist.map _), ?_, ?_, ?_, ?_⟩
  · intro sub hs
    obtain ⟨hs, hne⟩ := List.mem_filter.mp hs
    obtain ⟨watch, hw, hk, hl⟩ := h.known sub hs
    have hne : sub.id ≠ id := by simpa using hne
    exact ⟨watch, by simp [next, hw, Ne.symm hne], hk, hl⟩
  · intro i watch hw hl
    obtain ⟨hi, hw⟩ := hcases hw hl
    obtain ⟨sub, hs, rfl⟩ := h.subscribed i watch hw hl
    exact ⟨sub, List.mem_filter.mpr ⟨hs, by simpa using hi⟩, rfl⟩
  · intro hne
    refine h.opened fun hnil => hne ?_
    simp [next, HubStateStore.unsubscribe, hnil]
  · intro i watch hw hl
    exact h.follows i watch (hcases hw hl).2 hl

theorem Inv.next {a : Action} (hsafe : w.SafeStep a) : (w.next a).Inv := by
  cases a with
  | consume record throws => exact h.consumed hsafe
  | subscribe kind =>
    simp only [World.next]
    split
    next store snapshot hsub => exact h.subscribed_new hsub
    next => exact h
  | unsubscribe id => exact h.unsubscribed id
  | close => exact .of_no_live HubStateStore.wellKeyed_cleared rfl fun _ _ hw => h.no_live hw

end

theorem inv_new : new.Inv where
  wellKeyed := HubStateStore.wellKeyed_new
  distinct := .nil
  known := nofun
  subscribed := fun id watch hw => by simp [new] at hw
  opened := fun hne => absurd rfl hne
  follows := fun id watch hw => by simp [new] at hw

theorem inv_of_reachable (h : system.Reachable SafeStep w) : w.Inv :=
  h.invariant_ofFun inv_new fun _ _ hi hsafe => hi.next hsafe

end World

/-! ## The refinement -/

/-- Along every run of safe steps, a live subscription shows the items that a snapshot of its kind
would show now. -/
theorem live_watch_follows {w : World} (h : World.system.Reachable World.SafeStep w) (id : ℕ)
    (watch : Watch) (hw : w.watches[id]? = some watch) (hl : watch.status = .live) :
    ∃ snapshot, w.store.snapshot watch.kind = some snapshot ∧
      Replica.Same watch.replica (.ofItems watch.kind snapshot.items) := by
  have hinv := World.inv_of_reachable h
  obtain ⟨sub, hsub, -⟩ := hinv.subscribed id watch hw hl
  obtain ⟨havail, hclosed, hcursor⟩ := hinv.opened (List.ne_nil_of_mem hsub)
  obtain ⟨cursor, hc⟩ := Option.isSome_iff_exists.mp hcursor
  exact ⟨⟨watch.kind, cursor, w.store.items watch.kind⟩,
    by simp [HubStateStore.snapshot, havail, hclosed, hc], hinv.follows id watch hw hl⟩

/-! ### Runs -/

/-- A subscriber of an empty store learns of the sequence that a change brings. -/
theorem live_watch_follows_upsert :
    ∃ (w : World) (watch : Watch), w.watches[0]? = some watch ∧ watch.status = .live ∧
      watch.changes.length = 1 ∧
        ∃ snapshot : HubWatchSnapshot, w.store.snapshot watch.kind = some snapshot ∧
          Replica.Same watch.replica (.ofItems watch.kind snapshot.items) := by
  let w₁ := World.new.next (.consume (checkpointRecord 1 []) fun _ => false)
  let w₂ := w₁.next (.subscribe .sequence)
  let w₃ := w₂.next (.consume (upsertRecord 1 "s") fun _ => false)
  have hsafe₁ : World.new.SafeStep (.consume (checkpointRecord 1 []) fun _ => false) := by
    refine { checkpoint := ?_, leftover := ?_, whole := ?_ }
    · intro _ _ _ havail
      cases havail
    · intro _ _ accepted
      exact absurd accepted.type (by decide)
    · intro _ accepted
      exact absurd accepted.type (by decide)
  have hsafe₃ : w₂.SafeStep (.consume (upsertRecord 1 "s") fun _ => false) := by
    refine { checkpoint := ?_, leftover := ?_, whole := fun _ _ _ => by decide }
    · intro _ _ accepted
      exact absurd accepted.type (by decide)
    · intro _ copied _ _ _
      cases copied <;> first | exact .inr rfl | trivial
  have h₁ : World.system.Reachable World.SafeStep w₁ := .step (.init rfl) hsafe₁ rfl
  have h₂ : World.system.Reachable World.SafeStep w₂ :=
    .step h₁ (a := .subscribe .sequence) trivial rfl
  have h₃ : World.system.Reachable World.SafeStep w₃ := .step h₂ hsafe₃ rfl
  have hany : w₃.watches[0]?.any
      (fun watch => watch.status = .live && watch.changes.length = 1) = true := by
    decide
  obtain ⟨watch, hwatch, hstatus⟩ := (Option.any_eq_true _ _).mp hany
  rw [Bool.and_eq_true, decide_eq_true_eq, decide_eq_true_eq] at hstatus
  exact ⟨w₃, watch, hwatch, hstatus.1, hstatus.2, live_watch_follows h₃ 0 watch hwatch hstatus.1⟩

/-- A checkpoint at the cursor of an available store empties it, and the subscriber that holds a
sequence is told nothing. -/
theorem silent_checkpoint_diverges :
    ∃ (w : World) (watch : Watch) (snapshot : HubWatchSnapshot),
      World.system.Reachable System.anyStep w ∧ w.watches[0]? = some watch ∧
      watch.status = .live ∧ w.store.snapshot watch.kind = some snapshot ∧
        ¬ Replica.Same watch.replica (.ofItems watch.kind snapshot.items) := by
  let run : List World.Action :=
    [.consume (checkpointRecord 1 [.obj true [("id", .str "s"), ("manifests", .arr true [] [])]])
        fun _ => false,
      .subscribe .sequence, .consume (checkpointRecord 1 []) fun _ => false]
  refine ⟨run.foldl World.next World.new, _, _, System.reachable_foldl run, rfl, rfl, rfl, ?_⟩
  intro h
  have hlen := h.length_eq
  revert hlen
  decide

end TransformHub.HubState
