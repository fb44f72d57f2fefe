import TransformHub.Lib.Transition
import TransformHub.Lib.Lines

/-!
# Topics

`topic.ts`: a transform stream that serves the producers of a queue one after the other.
-/

namespace TransformHub.Host

namespace Topic

inductive ContentType where
  | textXNdjson
  | applicationXNdjson
  | textPlain
  | applicationOctetStream
deriving DecidableEq

def newlineByte : UInt8 := 10

structure Written where
  /-- its place among all the chunks -/
  number : ℕ
  /-- the source it is from, or none for who writes to the topic itself -/
  source : Option ℕ
  /-- the number of sources served so far -/
  turn : ℕ
  /-- nothing else is from the source in this turn -/
  first : Bool
  /-- the newline of `addXndjsonException` -/
  added : Bool
  bytes : List UInt8
deriving DecidableEq

structure PendingIngress where
  /-- with its callback -/
  chunk : Written
  source : ℕ

structure ActiveIngress where
  source : ℕ
  firstChunkSeen : Bool

/-- The wait of `consumePipe` for the source. -/
structure Consuming where
  source : ℕ
  resolved : Bool
deriving DecidableEq

/-- The promise is resolved if it is for the source. -/
def Consuming.resolve (p : ℕ) (c : Consuming) : Consuming :=
  { c with resolved := c.resolved || c.source == p }

/-- A `Readable` that is piped to the topic, or is going to be. -/
structure Source where
  /-- `end` has been emitted -/
  readableEnded : Bool
  errored : Bool
  closed : Bool
  /-- the topic is a destination of the source -/
  piped : Bool
  /-- the `lastChunk` of each call of `addXndjsonException` -/
  lastChunks : List (List UInt8)

namespace Source

def new : Source := ⟨false, false, false, false, []⟩

variable (source : Source)

def terminated : Bool := source.readableEnded || source.errored || source.closed

def emitData (bytes : List UInt8) : Source :=
  { source with lastChunks := source.lastChunks.map fun _ => bytes }

/-- A source that ends unpipes itself. -/
def emitEnd : Source := { source with readableEnded := true, piped := false }

def emitError : Source := { source with errored := true }

def emitClose : Source := { source with closed := true }

/-- `pipe`, with the listener of the topic unless its records have no boundary. -/
def pipe (boundary : Bool) : Source :=
  { source with
    piped := !source.readableEnded
    lastChunks := if boundary then source.lastChunks ++ [[]] else source.lastChunks }

def unpipe : Source := { source with piped := false }

variable {source}

theorem terminated_emitError : source.emitError.terminated = true := by
  unfold terminated emitError
  rw [Bool.or_true, Bool.true_or]

theorem terminated_emitClose : source.emitClose.terminated = true := Bool.or_true _

end Source

inductive Listener where
  | data
  | readable
deriving DecidableEq

end Topic

open Topic

structure Topic where
  contentType : ContentType
  pipeQueue : List ℕ
  consuming : Option Consuming
  pendingTransform : Option Written
  pendingIngress : Option PendingIngress
  activeIngress : Option ActiveIngress
  pipeTargets : List ℕ
  dataListeners : ℕ
  readableListeners : ℕ
  destroyed : Bool
  sources : ℕ → Source
  /-- the chunks that wait for `_transform` -/
  writable : List Written
  /-- the chunks that wait for the consumers -/
  readable : List Written
  /-- the calls of `acceptPipe` -/
  accepted : List ℕ
  /-- the sources that have been piped by `consumePipe` -/
  served : List ℕ
  /-- all chunks -/
  written : List Written
  transformed : List Written
  /-- the calls of the callbacks of `_transform` -/
  called : List Written
  pushed : List Written
  /-- with whether there was a consumer -/
  dropped : List (Written × Bool)
  /-- what went to the consumers -/
  delivered : List Written
  /-- what went to each destination -/
  received : ℕ → List Written

namespace Topic

def new (contentType : ContentType) : Topic where
  contentType := contentType
  pipeQueue := []
  consuming := none
  pendingTransform := none
  pendingIngress := none
  activeIngress := none
  pipeTargets := []
  dataListeners := 0
  readableListeners := 0
  destroyed := false
  sources := fun _ => .new
  writable := []
  readable := []
  accepted := []
  served := []
  written := []
  transformed := []
  called := []
  pushed := []
  dropped := []
  delivered := []
  received := fun _ => []

/-! ## The writable side -/

section Writable

variable (t : Topic)

def hasConsumer : Bool :=
  !t.pipeTargets.isEmpty || decide (0 < t.dataListeners) || decide (0 < t.readableListeners)

/-- The chunk whose callback has not been called. -/
def outstanding : Option Written := (t.pendingIngress.map (·.chunk)).or t.pendingTransform

/-- `write`, by a source or by someone else. -/
def write (source : Option ℕ) (added : Bool) (bytes : List UInt8) : Topic :=
  if t.destroyed then t
  else
    let first := source.isSome &&
      !t.written.any fun w => w.turn == t.served.length && w.source == source
    let w : Written := ⟨t.written.length, source, t.served.length, first, added, bytes⟩
    { t with writable := t.writable ++ [w], written := t.written ++ [w] }

def callback (w : Written) : Topic := { t with called := t.called ++ [w] }

/-- `push`, and the callback unless there is no room. -/
def deliver (w : Written) (room : Bool) : Topic :=
  let t := { t with pushed := t.pushed ++ [w], readable := t.readable ++ [w] }
  if room then t.callback w else { t with pendingTransform := some w }

def holdFirstIngressChunk (w : Written) (source : ℕ) : Topic :=
  { t with pendingIngress := some ⟨w, source⟩ }

def transform (w : Written) (room : Bool) : Topic :=
  let t' := { t with
    transformed := t.transformed ++ [w]
    activeIngress := t.activeIngress.map fun ingress : ActiveIngress =>
      { ingress with firstChunkSeen := true } }
  if t.hasConsumer then t'.deliver w room
  else
    match t.activeIngress with
    | some ⟨source, false⟩ => t'.holdFirstIngressChunk w source
    | _ => { t' with dropped := t'.dropped ++ [(w, t.hasConsumer)] }.callback w

/-- The next chunk goes to `_transform` when all the callbacks have been called. -/
def transformNext (room : Bool) : Topic :=
  match t.writable with
  | [] => t
  | w :: rest =>
    if t.destroyed = false ∧ t.outstanding = none then
      { t with writable := rest }.transform w room
    else t

/-- What `_transform` does with a chunk. -/
inductive Transformed (t : Topic) (w : Written) (rest : List Written) : Topic → Prop where
  | pushed (ingress : Option ActiveIngress) : t.hasConsumer = true →
      Transformed t w rest { t with
        writable := rest
        transformed := t.transformed ++ [w]
        activeIngress := ingress
        pushed := t.pushed ++ [w]
        readable := t.readable ++ [w]
        called := t.called ++ [w] }
  | full (ingress : Option ActiveIngress) : t.hasConsumer = true →
      Transformed t w rest { t with
        writable := rest
        transformed := t.transformed ++ [w]
        activeIngress := ingress
        pushed := t.pushed ++ [w]
        readable := t.readable ++ [w]
        pendingTransform := some w }
  | held {source : ℕ} : t.hasConsumer = false → t.activeIngress = some ⟨source, false⟩ →
      Transformed t w rest { t with
        writable := rest
        transformed := t.transformed ++ [w]
        activeIngress := some ⟨source, true⟩
        pendingIngress := some ⟨w, source⟩ }
  | dropped (ingress : Option ActiveIngress) : t.hasConsumer = false →
      (∀ source, t.activeIngress ≠ some ⟨source, false⟩) →
      Transformed t w rest { t with
        writable := rest
        transformed := t.transformed ++ [w]
        activeIngress := ingress
        dropped := t.dropped ++ [(w, false)]
        called := t.called ++ [w] }

theorem transformNext_cases (room : Bool) :
    t.transformNext room = t ∧
        (t.destroyed = false → t.outstanding = none → t.writable = []) ∨
      ∃ w rest, t.writable = w :: rest ∧ t.destroyed = false ∧ t.outstanding = none ∧
        Transformed t w rest (t.transformNext room) := by
  unfold transformNext
  split
  next hnil => exact .inl ⟨rfl, fun _ _ => hnil⟩
  next w rest hwritable =>
    split_ifs with hidle
    · refine .inr ⟨w, rest, hwritable, hidle.1, hidle.2, ?_⟩
      have hconsumer : ({ t with writable := rest } : Topic).hasConsumer = t.hasConsumer := rfl
      unfold transform
      dsimp only
      rw [hconsumer]
      cases hhas : t.hasConsumer with
      | true =>
        rw [if_pos rfl]
        cases room with
        | true => exact .pushed _ hhas
        | false => exact .full _ hhas
      | false =>
        rw [if_neg Bool.false_ne_true]
        split
        next source hingress =>
          rw [hingress]
          exact .held hhas hingress
        next hingress => exact .dropped _ hhas fun source hsource => hingress source hsource
    · exact .inl ⟨rfl, fun hdestroyed houtstanding => absurd ⟨hdestroyed, houtstanding⟩ hidle⟩

def read : Topic :=
  match t.pendingTransform with
  | none => t
  | some w => { t with pendingTransform := none }.callback w

/-! ## Consumers -/

def servesSource (p : ℕ) : Bool := t.activeIngress.any fun ingress => ingress.source == p

def clearPendingIngress : Topic :=
  match t.pendingIngress with
  | none => t
  | some pending =>
    let t := { t with pendingIngress := none }
    if t.servesSource pending.source && (t.sources pending.source).readableEnded then
      { t with activeIngress := none }
    else t

theorem clearPendingIngress_eq : ∃ ingress,
    t.clearPendingIngress = { t with pendingIngress := none, activeIngress := ingress } := by
  unfold clearPendingIngress
  split
  next hingress => exact ⟨t.activeIngress, by rw [← hingress]⟩
  · dsimp only
    split_ifs
    · exact ⟨none, rfl⟩
    · exact ⟨t.activeIngress, rfl⟩

def flushPendingIngress (room : Bool) : Topic :=
  match t.pendingIngress with
  | none => t
  | some pending => if t.hasConsumer then t.clearPendingIngress.deliver pending.chunk room else t

def pipe (destination : ℕ) (room : Bool) : Topic :=
  if destination ∈ t.pipeTargets then t
  else { t with pipeTargets := t.pipeTargets ++ [destination] }.flushPendingIngress room

def unpipe (destination : Option ℕ) : Topic :=
  match destination with
  | none => { t with pipeTargets := [] }
  | some destination => { t with pipeTargets := t.pipeTargets.erase destination }

def on : Listener → Topic
  | .data => { t with dataListeners := t.dataListeners + 1 }
  | .readable => { t with readableListeners := t.readableListeners + 1 }

def removeListener : Listener → Topic
  | .data => { t with dataListeners := t.dataListeners - 1 }
  | .readable => { t with readableListeners := t.readableListeners - 1 }

/-- The next chunk goes to the consumers that there are. -/
def emitData : Topic :=
  match t.readable with
  | [] => t
  | w :: rest =>
    if t.destroyed then t
    else
      { t with
        readable := rest
        delivered := t.delivered ++ [w]
        received := fun d =>
          if d ∈ t.pipeTargets then t.received d ++ [w] else t.received d }

/-! ## Sources -/

def updateSource (p : ℕ) (f : Source → Source) : Topic :=
  { t with sources := fun q => if q = p then f (t.sources q) else t.sources q }

theorem updateSource_self {t : Topic} {p : ℕ} {f : Source → Source} :
    (t.updateSource p f).sources p = f (t.sources p) := if_pos rfl

theorem updateSource_other {t : Topic} {p q : ℕ} (f : Source → Source) (h : q ≠ p) :
    (t.updateSource p f).sources q = t.sources q := if_neg h

/-- The callback gets an error, which destroys the topic; its sources are unpiped. -/
def failPendingIngress : Topic :=
  match t.pendingIngress with
  | none => t
  | some pending =>
    { t.clearPendingIngress.callback pending.chunk with
      destroyed := true
      sources := fun q => (t.sources q).unpipe }

theorem failPendingIngress_of_none {t : Topic} (h : t.pendingIngress = none) :
    t.failPendingIngress = t := by
  unfold failPendingIngress
  rw [h]

theorem failPendingIngress_eq {t : Topic} {pending : PendingIngress}
    (h : t.pendingIngress = some pending) : ∃ ingress,
    t.failPendingIngress =
      { t with
        pendingIngress := none
        activeIngress := ingress
        called := t.called ++ [pending.chunk]
        destroyed := true
        sources := fun q => (t.sources q).unpipe } := by
  obtain ⟨ingress, hclear⟩ := t.clearPendingIngress_eq
  refine ⟨ingress, ?_⟩
  unfold failPendingIngress
  rw [h]
  dsimp only
  rw [hclear]
  rfl

/-- `source.pipe(this, { end: false })`, with the listener of `pipe`. -/
def pipeSource (p : ℕ) : Topic :=
  t.updateSource p fun source => source.pipe (t.contentType == .applicationXNdjson)

/-- The loop of `consumePipe` up to the next `await`. -/
def serve : Topic :=
  match t.pipeQueue with
  | [] => { t with consuming := none }
  | p :: rest =>
    { t with
      pipeQueue := rest
      activeIngress := some ⟨p, false⟩
      consuming := some ⟨p, false⟩
      served := t.served ++ [p] }.pipeSource p

theorem serve_nil {t : Topic} (h : t.pipeQueue = []) : t.serve = { t with consuming := none } := by
  unfold serve
  rw [h]

def consumePipe : Topic := if t.consuming.isSome then t else t.serve

def acceptPipe (p : ℕ) : Topic :=
  { t with pipeQueue := t.pipeQueue ++ [p], accepted := t.accepted ++ [p] }.consumePipe

/-- `consumePipe` goes on after `await`. -/
def resume : Topic :=
  match t.consuming with
  | some ⟨p, true⟩ =>
    let t := t.updateSource p .unpipe
    { t with
      activeIngress :=
        if t.servesSource p && t.pendingIngress.isNone then none else t.activeIngress }.serve
  | _ => t

/-- A promise of `consumePipe` for the source is resolved. -/
def resolve (p : ℕ) : Topic := { t with consuming := t.consuming.map (Consuming.resolve p) }

/-- The handler of `end` in `addXndjsonException`, for each `lastChunk`. -/
def addNewlines (p : ℕ) : Topic :=
  (t.sources p).lastChunks.foldl
    (fun t lastChunk =>
      if lastChunk.getLast? = some newlineByte then t else t.write (some p) true [newlineByte])
    t

def sourceData (p : ℕ) (bytes : List UInt8) : Topic :=
  if (t.sources p).terminated then t
  else
    let t' := if (t.sources p).piped then t.write (some p) false bytes else t
    t'.updateSource p (.emitData · bytes)

def sourceEnd (p : ℕ) : Topic :=
  if (t.sources p).terminated then t
  else
    ((t.updateSource p .emitEnd).addNewlines p).resolve p

/-- The source is that of the chunk which is held back. -/
def holdsFor (p : ℕ) : Bool := t.pendingIngress.any fun pending => pending.source == p

def sourceError (p : ℕ) : Topic :=
  if (t.sources p).errored || (t.sources p).closed then t
  else
    let t := t.updateSource p .emitError
    (if t.holdsFor p then t.failPendingIngress else t).resolve p

def sourceClose (p : ℕ) : Topic :=
  if (t.sources p).closed then t
  else
    let t := t.updateSource p .emitClose
    (if t.holdsFor p && !(t.sources p).readableEnded then t.failPendingIngress else t).resolve p

def sourceAborted (p : ℕ) : Topic :=
  if (t.sources p).closed then t
  else if t.holdsFor p then t.failPendingIngress
  else t

def sourceUnpipe (p : ℕ) : Topic :=
  t.updateSource p .unpipe

end Writable

/-! ## Steps -/

inductive Event where
  | acceptPipe (p : ℕ)
  | resume
  | sourceData (p : ℕ) (bytes : List UInt8)
  | sourceEnd (p : ℕ)
  | sourceError (p : ℕ)
  | sourceClose (p : ℕ)
  | sourceAborted (p : ℕ)
  | sourceUnpipe (p : ℕ)
  | write (bytes : List UInt8)
  | transform (room : Bool)
  | read
  | emitData
  | pipe (destination : ℕ) (room : Bool)
  | unpipe (destination : Option ℕ)
  | on (listener : Listener)
  | removeListener (listener : Listener)
deriving DecidableEq

def next (t : Topic) : Event → Topic
  | .acceptPipe p => t.acceptPipe p
  | .resume => t.resume
  | .sourceData p bytes => t.sourceData p bytes
  | .sourceEnd p => t.sourceEnd p
  | .sourceError p => t.sourceError p
  | .sourceClose p => t.sourceClose p
  | .sourceAborted p => t.sourceAborted p
  | .sourceUnpipe p => t.sourceUnpipe p
  | .write bytes => t.write none false bytes
  | .transform room => t.transformNext room
  | .read => t.read
  | .emitData => t.emitData
  | .pipe destination room => t.pipe destination room
  | .unpipe destination => t.unpipe destination
  | .on listener => t.on listener
  | .removeListener listener => t.removeListener listener

end Topic

end TransformHub.Host
