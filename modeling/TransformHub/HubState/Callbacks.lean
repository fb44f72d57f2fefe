import TransformHub.HubState.Subscribers

/-!
# Callbacks of the subscribers

`consume` and `close` call the subscribers one after another, in a loop over a copy of the set.
-/

namespace TransformHub.HubState

open Js

/-! ## Calls up to their loop -/

/-- What a loop over the subscribers tells them. -/
inductive Message where
  | change (kind : HubWatchKind) (change : HubWatchChange)
  | fail (error : HubStateSourceError)

/-- How far a call comes before it calls anyone: the store, the loop over its subscribers that
follows, and the record whose checkpoint is loaded after that loop. -/
structure Begun where
  store : HubStateStore
  loop : Option Message
  pending : Option JsValue
  thrown : Bool

namespace HubStateStore

/-- `invalidate` before its loop. -/
def emptied (s : HubStateStore) : HubStateStore := { s.cleared with subscribers := s.subscribers }

def beginInvalidate (s : HubStateStore) (error : HubStateSourceError) : Begun :=
  ⟨s.emptied, some (.fail error), none, false⟩

/-- `loadCheckpoint`. -/
def beginLoad (s : HubStateStore) (audit : JsValue) : Begun :=
  match copy (audit.get "inventory"), copyCursor (audit.get "cursor") with
  | some inventory, some cursor => ⟨s.load inventory cursor, none, none, false⟩
  | _, _ => s.beginInvalidate ⟨.gap, "Invalid Hub state checkpoint"⟩

/-- `checkpoint`. -/
def beginCheckpoint (s : HubStateStore) (audit : JsValue) (cursor : HubCursor) : Begun :=
  match s.cursor with
  | none => s.beginLoad audit
  | some held =>
    if cursor.hubId ≠ held.cursor.hubId ∨ cursor.epoch ≠ held.cursor.epoch then
      { s.beginInvalidate ⟨.restarted, "Hub state identity restarted"⟩ with
        pending := some audit }
    else if cursor.position < held.cursor.position then ⟨s, none, none, false⟩
    else if s.available ∧ held.cursor.position < cursor.position then
      { s.beginInvalidate
          ⟨.gap, "Hub state checkpoint advanced beyond the current cursor"⟩ with
        pending := some audit }
    else s.beginLoad audit

/-- The checkpoint branch of `consume`. -/
def beginConsumeCheckpoint (s : HubStateStore) (audit : JsValue) : Begun :=
  match validCursor (audit.get "cursor"), readInventory (audit.get "inventory") with
  | some cursor, some inventory =>
    match validInventoryAssociations inventory with
    | none => ⟨s, none, none, true⟩
    | some false => s.beginInvalidate ⟨.gap, "Invalid Hub state checkpoint associations"⟩
    | some true => s.beginCheckpoint audit cursor
  | _, _ => s.beginInvalidate ⟨.gap, "Invalid Hub state checkpoint"⟩

/-- The part of `consume` after `apply`. -/
def beginPublish (s : HubStateStore) (audit : JsValue) (kind : HubWatchKind) : Begun :=
  match copyCursor (audit.get "cursor") with
  | none => ⟨s, none, none, true⟩
  | some cursor =>
    let advanced := { s with cursor := some cursor }
    match copy (audit.get "mutation"), copyCursor (audit.get "previousCursor") with
    | some mutation, some previousCursor =>
      ⟨advanced, some (.change kind ⟨mutation, cursor, previousCursor⟩), none, false⟩
    | _, _ => ⟨advanced, none, none, true⟩

/-- The change branch of `consume`. -/
def beginConsumeChange (s : HubStateStore) (audit : JsValue) : Begun :=
  match (audit.get "type").str?, validCursor (audit.get "cursor"),
    validCursor (audit.get "previousCursor"), validMutation (audit.get "mutation") with
  | some "change", some cursor, some previousCursor, some mutation =>
    if !validMutationAssociations mutation then
      s.beginInvalidate ⟨.gap, "Invalid Hub state audit associations"⟩
    else if !s.continues previousCursor cursor then
      s.beginInvalidate ⟨.gap, "Hub state audit continuity was lost"⟩
    else
      match s.apply mutation with
      | none => s.beginInvalidate ⟨.gap, "Invalid Hub state audit mutation"⟩
      | some applied => applied.beginPublish audit mutation.kind
  | _, _, _, _ => s.beginInvalidate ⟨.gap, "Invalid Hub state audit mutation"⟩

/-- `consume`. -/
def beginConsume (s : HubStateStore) (record : JsValue) : Begun :=
  let audit := record.get "hubState"
  if s.closed ∨ audit.isUndefined then ⟨s, none, none, false⟩
  else if !audit.isObject then s.beginInvalidate ⟨.gap, "Invalid Hub state audit record"⟩
  else if (audit.get "type").str? = some "checkpoint" then s.beginConsumeCheckpoint audit
  else s.beginConsumeChange audit

end HubStateStore

/-! ## Loops and callbacks -/

/-- What a subscription is given, and that its `close` has returned. -/
inductive Seen where
  | change (change : HubWatchChange)
  | error (error : HubStateSourceError)
  | closed

/-- A subscription: the cursor of its snapshot, and what it has seen. -/
structure Subscription where
  cursor : StoredCursor
  seen : List Seen

def Subscription.see (event : Seen) (sub : Subscription) : Subscription :=
  { sub with seen := sub.seen ++ [event] }

/-- A loop under way: what is left of the copy of the set, and whose callback is running. -/
structure Pass where
  message : Message
  rest : List Subscriber
  calling : Option ℕ

/-- A store with the loops under way, the innermost first. The subscriptions are numbered in the
order in which they were opened. -/
structure Loops where
  store : HubStateStore
  passes : List Pass
  pending : Option JsValue
  subscriptions : List Subscription

namespace Loops

def new : Loops := ⟨.new, [], none, []⟩

inductive Action where
  | consume (record : JsValue)
  | subscribe (kind : HubWatchKind)
  | unsubscribe (id : ℕ)
  | close
  /-- the innermost loop goes on -/
  | call
  /-- the callback that is running ends -/
  | «return» (throws : Bool)

/-- Code outside the store runs: no loop is under way, or the innermost one is in a callback. -/
def outside (s : Loops) : Bool := s.passes.head?.all (·.calling.isSome)

/-- A call comes to its loop. -/
def begun (s : Loops) (b : Begun) : Loops where
  store := b.store
  passes := (b.loop.map fun message => ⟨message, b.store.subscribers, none⟩).toList
  pending := b.pending
  subscriptions := s.subscriptions

def see (s : Loops) (id : ℕ) (event : Seen) : List Subscription :=
  s.subscriptions.modify id (Subscription.see event)

/-- `subscriber.notify(change)`. The object of a subscriber that is not in the set any more is the
one in the copy. -/
def notify (s : Loops) (change : HubWatchChange) (sub : Subscriber) : Loops :=
  let current := (s.store.subscription sub.id).getD sub
  { s with
    store :=
      { s.store with
        subscribers := s.store.subscribers.map fun t =>
          if t.id = sub.id then { t with previousCursor := change.cursor } else t }
    subscriptions := s.see sub.id (.change (current.select change)) }

def fail (s : Loops) (error : HubStateSourceError) (sub : Subscriber) : Loops :=
  { s with
    store := s.store.unsubscribe sub.id
    subscriptions := s.see sub.id (.error error) }

/-- The loop comes to a subscriber. -/
def visit (s : Loops) (message : Message) (sub : Subscriber) (rest : List Subscriber)
    (outer : List Pass) : Loops :=
  match message with
  | .change kind change =>
    if sub.kind = kind then
      { s.notify change sub with passes := ⟨message, rest, some sub.id⟩ :: outer }
    else { s with passes := ⟨message, rest, none⟩ :: outer }
  | .fail error => { s.fail error sub with passes := ⟨message, rest, some sub.id⟩ :: outer }

/-- A loop is over. After the loop of `checkpoint` the checkpoint is loaded. -/
def finish (s : Loops) (outer : List Pass) : Loops :=
  match outer, s.pending with
  | [], some audit => s.begun (s.store.beginLoad audit)
  | _, _ => { s with passes := outer }

def next (s : Loops) : Action → Loops
  | .consume record => if s.passes.isEmpty then s.begun (s.store.beginConsume record) else s
  | .subscribe kind =>
    if s.outside then
      match s.store.subscribe kind s.subscriptions.length with
      | none => s
      | some (store, snapshot) =>
        { s with
          store := store
          subscriptions := s.subscriptions ++ [⟨snapshot.cursor, []⟩] }
    else s
  | .unsubscribe id =>
    if s.outside then
      { s with
        store := s.store.unsubscribe id
        subscriptions := s.see id .closed }
    else s
  | .close =>
    if s.outside then
      { s with
        store := { s.store with closed := true }.emptied
        passes := ⟨.fail ⟨.sourceUnavailable, "Hub state source is closed"⟩,
          s.store.subscribers, none⟩ :: s.passes }
    else s
  | .call =>
    match s.passes with
    | ⟨message, sub :: rest, none⟩ :: outer => s.visit message sub rest outer
    | ⟨_, [], none⟩ :: outer => s.finish outer
    | _ => s
  | .return throws =>
    match s.passes with
    | ⟨.change kind change, rest, some id⟩ :: outer =>
      -- a subscriber whose change callback throws is removed
      { s with
        store := if throws then s.store.unsubscribe id else s.store
        passes := ⟨.change kind change, rest, none⟩ :: outer }
    | ⟨.fail error, rest, some _⟩ :: outer =>
      { s with passes := ⟨.fail error, rest, none⟩ :: outer }
    | _ => s

def system : System Loops Action := .ofFun new next

/-! ## What a subscription may see -/

end Loops

/-- Changes that lead on from a cursor, each linked to the one before. -/
inductive Linked : StoredCursor → List HubWatchChange → Prop where
  | nil {cursor : StoredCursor} : Linked cursor []
  | cons {cursor : StoredCursor} {change : HubWatchChange} {changes : List HubWatchChange}
      (linked : change.previousCursor = cursor)
      (forward : cursor.cursor.Before change.cursor.cursor)
      (rest : Linked change.cursor changes) : Linked cursor (change :: changes)

/-- Where changes lead to from a cursor. -/
def lastCursor (cursor : StoredCursor) (changes : List HubWatchChange) : StoredCursor :=
  changes.foldl (fun _ change => change.cursor) cursor

/-- What is left of a subscription: the ways in which it ends, after which only a further `close` of
it may return. -/
inductive Ending : List Seen → Prop where
  | opened : Ending []
  | failed (error : HubStateSourceError) (times : ℕ) :
      Ending (.error error :: List.replicate times .closed)
  | closed (times : ℕ) : Ending (.closed :: List.replicate times .closed)

/-- A subscription has seen linked changes that lead on from its snapshot, then one error at most,
and nothing after its error or after its `close`. -/
def Subscription.Disciplined (sub : Subscription) : Prop :=
  ∃ changes ending, sub.seen = changes.map .change ++ ending ∧ Linked sub.cursor changes ∧
    Ending ending

/-- A subscription that is not over, and the cursor of the change that it has seen last. -/
def Subscription.LiveAt (sub : Subscription) (cursor : StoredCursor) : Prop :=
  ∃ changes, sub.seen = changes.map .change ∧ Linked sub.cursor changes ∧
    lastCursor sub.cursor changes = cursor

variable {cursor : StoredCursor}

theorem Linked.concat {changes : List HubWatchChange} {change : HubWatchChange}
    (h : Linked cursor changes) (hlinked : change.previousCursor = lastCursor cursor changes)
    (hforward : (lastCursor cursor changes).cursor.Before change.cursor.cursor) :
    Linked cursor (changes ++ [change]) := by
  induction h with
  | nil => exact .cons hlinked hforward .nil
  | cons linked forward _ ih => exact .cons linked forward (ih hlinked hforward)

theorem lastCursor_concat (cursor : StoredCursor) (changes : List HubWatchChange)
    (change : HubWatchChange) : lastCursor cursor (changes ++ [change]) = change.cursor := by
  rw [lastCursor, List.foldl_append]
  rfl

variable {sub : Subscription}

theorem Subscription.LiveAt.disciplined (h : sub.LiveAt cursor) : sub.Disciplined := by
  obtain ⟨changes, hseen, hlinked, -⟩ := h
  exact ⟨changes, [], by rw [hseen, List.append_nil], hlinked, .opened⟩

theorem Subscription.LiveAt.change {change : HubWatchChange} (h : sub.LiveAt cursor)
    (hlinked : change.previousCursor = cursor)
    (hforward : cursor.cursor.Before change.cursor.cursor) :
    (sub.see (.change change)).LiveAt change.cursor := by
  obtain ⟨changes, hseen, hchanges, rfl⟩ := h
  refine ⟨changes ++ [change], ?_, hchanges.concat hlinked hforward, lastCursor_concat _ _ _⟩
  rw [Subscription.see, hseen, List.map_append]
  rfl

theorem Subscription.LiveAt.error (h : sub.LiveAt cursor) (error : HubStateSourceError) :
    (sub.see (.error error)).Disciplined := by
  obtain ⟨changes, hseen, hlinked, -⟩ := h
  exact ⟨changes, [.error error], by rw [Subscription.see, hseen], hlinked, .failed error 0⟩

theorem Ending.close {ending : List Seen} (h : Ending ending) : Ending (ending ++ [.closed]) := by
  cases h with
  | opened => exact .closed 0
  | failed error times =>
    rw [List.cons_append, ← List.replicate_succ']
    exact .failed error (times + 1)
  | closed times =>
    rw [List.cons_append, ← List.replicate_succ']
    exact .closed (times + 1)

theorem Subscription.Disciplined.closed (h : sub.Disciplined) : (sub.see .closed).Disciplined := by
  obtain ⟨changes, ending, hseen, hlinked, hending⟩ := h
  refine ⟨changes, ending ++ [.closed], ?_, hlinked, hending.close⟩
  rw [Subscription.see, hseen, List.append_assoc]

end TransformHub.HubState
