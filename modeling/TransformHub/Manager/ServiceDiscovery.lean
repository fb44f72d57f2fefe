import TransformHub.Lib.OrderedMap

/-!
# Topic multiplexer of the Manager

`ServiceDiscovery` and `TopicActor` of `service-discovery.ts`.
-/

namespace TransformHub.Manager

inductive ActorRole where
  | provider
  | consumer
deriving DecidableEq

/-- The type of an actor; host actors belong to a hub. -/
inductive ActorType where
  | host (id : String)
  | api
deriving DecidableEq

structure TopicActor where
  topic : String
  role : ActorRole
  type : ActorType
  contentType : String
  stream : Option ℕ
  handled : Bool
  retired : Bool
  discarding : Bool

namespace TopicActor

def isHost (a : TopicActor) : Bool :=
  match a.type with
  | .host _ => true
  | .api => false

/-- Both are actors of one hub. -/
def sameHost (a b : TopicActor) : Bool :=
  match a.type, b.type with
  | .host i, .host j => i = j
  | _, _ => false

end TopicActor

structure Topic where
  contentType : String
  actors : List ℕ

/-- A `connectoTo` that awaits a topic stream, of its provider or of its consumer. -/
structure Task where
  pass : ℕ
  provider : ℕ
  consumer : ℕ
  awaits : ActorRole

/-- The connections of one provider, awaited by the worker. -/
structure Group where
  pass : ℕ
  provider : ℕ
deriving DecidableEq

/-- The listeners of a connection, on the streams that its actors had. -/
structure Link where
  provider : ℕ
  consumer : ℕ
  source : ℕ
  target : ℕ
  disconnected : Bool

structure ServiceDiscovery where
  /-- the actors by number, as many as `actorCount` -/
  actors : ℕ → TopicActor
  actorCount : ℕ
  /-- the actor that each stream was added to -/
  streams : List ℕ
  topics : OrderedMap String Topic
  updatedTopics : List String
  topicUpdateRunning : Bool
  /-- the topics that the running update has not come to -/
  remaining : List String
  /-- the worker that is awaited -/
  pass : Option ℕ
  passes : ℕ
  groups : List Group
  tasks : List Task
  links : List Link
  piped : List (ℕ × ℕ)

namespace ServiceDiscovery

/-- What a number without an actor stands for. -/
def noActor : TopicActor := ⟨"", .provider, .api, "", none, false, false, false⟩

def new : ServiceDiscovery where
  actors := fun _ => noActor
  actorCount := 0
  streams := []
  topics := .empty
  updatedTopics := []
  topicUpdateRunning := false
  remaining := []
  pass := none
  passes := 0
  groups := []
  tasks := []
  links := []
  piped := []

/-! ## Actors -/

section Actors

variable (s : ServiceDiscovery)

def isHandled (i : ℕ) : Bool := (s.actors i).handled

def isRetired (i : ℕ) : Bool := (s.actors i).retired

def hasRole (role : ActorRole) (i : ℕ) : Bool := (s.actors i).role = role

def streamOf (i : ℕ) : Option ℕ := (s.actors i).stream

/-- A host actor whose topic stream has not been opened. -/
def needsStream (i : ℕ) : Bool := (s.actors i).isHost && (s.streamOf i).isNone

def sameHost (i j : ℕ) : Bool := (s.actors i).sameHost (s.actors j)

def update (i : ℕ) (f : TopicActor → TopicActor) : ServiceDiscovery :=
  { s with actors := fun j => if j = i then f (s.actors i) else s.actors j }

def setHandled (handled : Bool) (i : ℕ) : ServiceDiscovery :=
  s.update i fun a => { a with handled }

def retire (i : ℕ) : ServiceDiscovery := s.update i fun a => { a with retired := true }

/-- `addStream`, of a new stream. -/
def addStream (i : ℕ) : ServiceDiscovery :=
  { s.update i fun a => { a with stream := some s.streams.length } with
    streams := s.streams ++ [i] }

end Actors

/-! ## Connections -/

/-- The last part of `connectoTo`: the listeners, and the pipe. -/
def pipe (s : ServiceDiscovery) (provider consumer : ℕ) : ServiceDiscovery :=
  match s.streamOf provider, s.streamOf consumer with
  | some source, some target =>
    { s with
      links := s.links ++ [⟨provider, consumer, source, target, false⟩]
      piped := s.piped ++ [(source, target)] }
  | _, _ => s

/-- `connectoTo`, once the stream of the provider is there. -/
def connectConsumer (s : ServiceDiscovery) (pass provider consumer : ℕ) : ServiceDiscovery :=
  if s.needsStream consumer then
    { s with tasks := s.tasks ++ [⟨pass, provider, consumer, .consumer⟩] }
  else s.pipe provider consumer

/-- `connectoTo`, up to the first topic stream that it awaits. -/
def connectoTo (s : ServiceDiscovery) (pass provider consumer : ℕ) : ServiceDiscovery :=
  if s.sameHost provider consumer then s
  else if s.needsStream provider then
    { s with tasks := s.tasks ++ [⟨pass, provider, consumer, .provider⟩] }
  else s.connectConsumer pass provider consumer

/-- The topic stream that a task awaits has been opened. -/
def requestResolved (s : ServiceDiscovery) (i : ℕ) : ServiceDiscovery :=
  match s.tasks[i]? with
  | none => s
  | some task =>
    let rest := { s with tasks := s.tasks.eraseIdx i }
    match task.awaits with
    | .provider =>
      (rest.addStream task.provider).connectConsumer task.pass task.provider task.consumer
    | .consumer => (rest.addStream task.consumer).pipe task.provider task.consumer

/-- The topic stream that a task awaits could not be opened: the worker fails. -/
def requestFailed (s : ServiceDiscovery) (i : ℕ) : ServiceDiscovery :=
  match s.tasks[i]? with
  | none => s
  | some task =>
    { s with
      tasks := s.tasks.eraseIdx i
      groups := s.groups.filter fun g => g ≠ ⟨task.pass, task.provider⟩
      pass := if s.pass = some task.pass then none else s.pass }

/-! ## Updates -/

def findRole (s : ServiceDiscovery) (role : ActorRole) (topicName : String) : List ℕ :=
  match s.topics.get? topicName with
  | none => []
  | some topic => topic.actors.filter (s.hasRole role)

/-- `runTopicUpdate`, up to the first microtask. -/
def runTopicUpdate (s : ServiceDiscovery) : ServiceDiscovery :=
  if s.topicUpdateRunning ∨ s.updatedTopics = [] then s
  else
    { s with
      topicUpdateRunning := true
      remaining := s.updatedTopics
      updatedTopics := [] }

def onTopicUpdate (s : ServiceDiscovery) (topicName : String) : ServiceDiscovery :=
  { s with
    updatedTopics :=
      if topicName ∈ s.updatedTopics then s.updatedTopics
      else s.updatedTopics ++ [topicName] }.runTopicUpdate

def onUpdate (s : ServiceDiscovery) : ServiceDiscovery := s.topics.keys.foldl onTopicUpdate s

/-! ## The worker -/

/-- All pairs of providers and consumers, in the order of the two loops. -/
def pairs (providers consumers : List ℕ) : List (ℕ × ℕ) :=
  providers.flatMap fun provider => consumers.map fun consumer => (provider, consumer)

def consider (pass : ℕ) (s : ServiceDiscovery) (pair : ℕ × ℕ) : ServiceDiscovery :=
  if s.isHandled pair.1 && s.isHandled pair.2 then s
  else (s.setHandled true pair.2).connectoTo pass pair.1 pair.2

/-- Without a consumer, what providers send is thrown away. -/
def discard (s : ServiceDiscovery) (provider : ℕ) : ServiceDiscovery :=
  s.update provider fun a => if a.stream.isSome then { a with discarding := true } else a

/-- The topic of a worker when it comes to the pairs: retired actors are gone, and when one of them
was a provider, the consumers count as unhandled again. -/
def prepare (s : ServiceDiscovery) (topicName : String) (topic : Topic) : ServiceDiscovery :=
  let kept := topic.actors.filter fun i => !s.isRetired i
  let listed := { s with topics := s.topics.set topicName { topic with actors := kept } }
  let providers := kept.filter (s.hasRole .provider)
  let consumers := kept.filter (s.hasRole .consumer)
  let drained := if consumers = [] then providers.foldl discard listed else listed
  if topic.actors.any fun i => s.hasRole .provider i && s.isRetired i then
    consumers.foldl (setHandled · false ·) drained
  else drained

def connectAll (s : ServiceDiscovery) (topicName : String) : ServiceDiscovery :=
  let providers := s.findRole .provider topicName
  let consumers := s.findRole .consumer topicName
  let connected := (pairs providers consumers).foldl (consider s.passes) s
  { connected with
    groups := s.groups ++ providers.map fun provider => ⟨s.passes, provider⟩
    pass := some s.passes
    passes := s.passes + 1 }

/-- `onTopicUpdateWorker`, up to what it awaits. -/
def onTopicUpdateWorker (s : ServiceDiscovery) (topicName : String) : ServiceDiscovery :=
  match s.topics.get? topicName with
  | none => s
  | some topic =>
    if (topic.actors.filter fun i => !s.isRetired i) = [] then
      { s with topics := s.topics.delete topicName }
    else (s.prepare topicName topic).connectAll topicName

/-- The running update takes the next topic, or ends. -/
def continueUpdate (s : ServiceDiscovery) : ServiceDiscovery :=
  if s.topicUpdateRunning ∧ s.pass = none then
    match s.remaining with
    | topicName :: remaining => { s with remaining }.onTopicUpdateWorker topicName
    | [] => { s with topicUpdateRunning := false }.runTopicUpdate
  else s

/-- All connections of a provider have been made. -/
def groupResolved (s : ServiceDiscovery) (group : Group) : ServiceDiscovery :=
  if group ∈ s.groups ∧
      ∀ task ∈ s.tasks, ¬ (task.pass = group.pass ∧ task.provider = group.provider) then
    { s with groups := s.groups.filter fun g => g ≠ group }.setHandled true group.provider
  else s

/-- The worker has connected all providers. -/
def passResolved (s : ServiceDiscovery) : ServiceDiscovery :=
  match s.pass with
  | some pass => if ∀ group ∈ s.groups, group.pass ≠ pass then { s with pass := none } else s
  | none => s

/-! ## Events of streams -/

def disconnect (s : ServiceDiscovery) (i : ℕ) : ServiceDiscovery :=
  match s.links[i]? with
  | none => s
  | some link =>
    let unhandled := s.setHandled false link.provider
    if link.disconnected then unhandled
    else
      { unhandled with
        links := s.links.modify i fun l => { l with disconnected := true }
        piped :=
          match s.streamOf link.provider, s.streamOf link.consumer with
          | some source, some target => s.piped.erase (source, target)
          | _, _ => s.piped }

/-- The listeners of a connection on a stream that closes. -/
def linkClosed (stream : ℕ) (s : ServiceDiscovery) (i : ℕ) : ServiceDiscovery :=
  match s.links[i]? with
  | none => s
  | some link =>
    let left := if link.source = stream then s.disconnect i else s
    if link.target = stream then ((left.disconnect i).retire link.consumer).onUpdate else left

/-- The listener of a connection on a stream that fails. -/
def linkFailed (stream : ℕ) (s : ServiceDiscovery) (i : ℕ) : ServiceDiscovery :=
  match s.links[i]? with
  | none => s
  | some link =>
    if link.source = stream then ((s.disconnect i).retire link.provider).onUpdate else s

/-- A stream closes: its actor retires, and it is in no pipe any more. -/
def streamClosed (s : ServiceDiscovery) (stream : ℕ) : ServiceDiscovery :=
  match s.streams[stream]? with
  | none => s
  | some owner =>
    let left := (List.range s.links.length).foldl (linkClosed stream) (s.retire owner).onUpdate
    { left with piped := left.piped.filter fun e => e.1 ≠ stream ∧ e.2 ≠ stream }

/-- A stream fails: its actor retires, and no pipe leads to it any more. -/
def streamFailed (s : ServiceDiscovery) (stream : ℕ) : ServiceDiscovery :=
  match s.streams[stream]? with
  | none => s
  | some owner =>
    let left := (List.range s.links.length).foldl (linkFailed stream) (s.retire owner).onUpdate
    { left with piped := left.piped.filter fun e => e.2 ≠ stream }

/-! ## Calls -/

/-- `createTopic`; `none` when the topic exists with another content type. -/
def createTopic (s : ServiceDiscovery) (topicName contentType : String) : Option ServiceDiscovery :=
  match s.topics.get? topicName with
  | some existing => if existing.contentType ≠ contentType then none else some s
  | none => some { s with topics := s.topics.set topicName ⟨contentType, []⟩ }

/-- A new actor; an API actor comes with its stream. -/
def addActor (s : ServiceDiscovery) (topicName : String) (role : ActorRole) (type : ActorType)
    (contentType : String) : ServiceDiscovery :=
  let added := { s.update s.actorCount fun _ =>
      ⟨topicName, role, type, contentType, none, false, false, false⟩ with
    actorCount := s.actorCount + 1 }
  match type with
  | .host _ => added
  | .api => added.addStream s.actorCount

/-- `register` of a new actor. -/
def register (s : ServiceDiscovery) (topicName : String) (role : ActorRole) (type : ActorType)
    (contentType : String) : ServiceDiscovery :=
  match s.createTopic topicName contentType with
  | none => s
  | some created =>
    let added := created.addActor topicName role type contentType
    let hostRegistered := (added.findRole role topicName).any fun i =>
      added.sameHost s.actorCount i
    let listed :=
      if hostRegistered then added
      else
        match added.topics.get? topicName with
        | none => added
        | some topic =>
          { added with
            topics := added.topics.set topicName
              { topic with actors := topic.actors ++ [s.actorCount] } }
    listed.onTopicUpdate topicName

def unregister (s : ServiceDiscovery) (i : ℕ) : ServiceDiscovery :=
  if i < s.actorCount then (s.retire i).onTopicUpdate (s.actors i).topic else s

/-- The request of an API actor ends. -/
def requestClosed (s : ServiceDiscovery) (i : ℕ) : ServiceDiscovery :=
  if i < s.actorCount then (s.retire i).onUpdate else s

/-- `deleteTopic`, apart from the events of the streams that it destroys. -/
def deleteTopic (s : ServiceDiscovery) (topicName : String) : ServiceDiscovery :=
  match s.topics.get? topicName with
  | none => s
  | some topic => (topic.actors.foldl retire s).onTopicUpdate topicName

end ServiceDiscovery

end TransformHub.Manager
