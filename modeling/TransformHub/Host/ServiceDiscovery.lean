import TransformHub.Host.Topic
import TransformHub.Lib.OrderedMap

/-!
# The topics of a Host

`ServiceDiscovery` and `TopicsMap`, the routes of the API for topics, and the handlers of
`CSIDispatcher` through which an instance is routed to topics.
-/

namespace TransformHub.Host

def isContentType (contentType : String) : Bool :=
  ["text/x-ndjson", "application/x-ndjson", "text/plain", "application/octet-stream"].contains
    contentType

namespace TopicId

/-- `/^[A-Za-z0-9_.+-]+$/`. -/
def validate (topicName : String) : Bool :=
  decide (topicName ≠ "") &&
    topicName.toList.all fun c => c.isAlphanum || ['_', '.', '+', '-'].contains c

end TopicId

/-- The content type of the stream, which asks only whether it is `application/x-ndjson`. -/
def streamContentType (contentType : String) : Topic.ContentType :=
  if contentType = "application/x-ndjson" then .applicationXNdjson
  else if contentType = "text/x-ndjson" then .textXNdjson
  else if contentType = "application/octet-stream" then .applicationOctetStream
  else .textPlain

/-- A `Topic`, with the content type that it was constructed with. -/
structure RegisteredTopic where
  contentType : String
  stream : Topic

def truthyText (text : Option String) : Option String := text.filter (· ≠ "")

/-- How far an instance is with its end. -/
inductive Lifecycle where
  | running
  | terminated
  /-- a listener for `terminated` has thrown -/
  | rejected
  | ended
deriving DecidableEq

/-- What the handlers read of a controller; its streams are numbered. -/
structure RoutedInstance where
  inputTopic : Option String
  outputTopic : Option String
  requires : Option String
  provides : Option String
  outputRouted : Bool
  /-- `getInputStream` -/
  input : ℕ
  /-- `getOutputStream` -/
  output : ℕ
  lifecycle : Lifecycle

inductive PangStage where
  /-- before the topic of the input, or waits for `getInput` -/
  | input
  /-- waits for what the Manager is told of the input -/
  | inputRouted
  | output
  /-- waits for what the Manager is told of the output -/
  | outputRouted

structure PangHandler where
  controller : ℕ
  requires : Option String
  provides : Option String
  contentType : Option String
  stage : PangStage

/-- `ServiceDiscovery`, the instances and the handlers that wait. -/
structure ServiceDiscovery where
  topicsMap : OrderedMap String RegisteredTopic
  instances : List RoutedInstance
  handlers : List PangHandler

namespace ServiceDiscovery

def new : ServiceDiscovery := ⟨.empty, [], []⟩

variable (s : ServiceDiscovery)

/-! ## Topics -/

/-- `createTopicIfNotExist`, which throws where the content types differ. -/
def createTopicIfNotExist (topic contentType : String) : Option ServiceDiscovery :=
  match s.topicsMap.get? topic with
  | some existing =>
    let contentType := if contentType = "" then existing.contentType else contentType
    if existing.contentType ≠ contentType then none else some s
  | none =>
    some { s with
      topicsMap := s.topicsMap.set topic
        ⟨contentType, .new (streamContentType contentType)⟩ }

/-- The stream of a topic, if it is registered, goes on. -/
def updateStream (topic : String) (e : Topic.Event) : ServiceDiscovery :=
  match s.topicsMap.get? topic with
  | some existing =>
    { s with
      topicsMap := s.topicsMap.set topic { existing with stream := existing.stream.next e } }
  | none => s

/-- `deleteTopic`; the stream, which is destroyed, is registered no more. -/
def deleteTopic (topic : String) : ServiceDiscovery :=
  if TopicId.validate topic then { s with topicsMap := s.topicsMap.delete topic } else s

/-! ## The API -/

/-- The topic that a request of the API names, if it names one. -/
def requestTopic (topic contentType : String) : Option ServiceDiscovery :=
  if isContentType contentType && TopicId.validate topic then
    s.createTopicIfNotExist topic contentType
  else none

/-- `topicsPost` of the first version. -/
def topicsPost (id contentType : Option String) : ServiceDiscovery :=
  match truthyText id, truthyText contentType with
  | some id, some contentType =>
    if s.topicsMap.has id then s else (s.requestTopic id contentType).getD s
  | _, _ => s

/-- `createTopic` of the second version. -/
def createTopic (name contentType header originType : Option String) : ServiceDiscovery :=
  let contentType :=
    ((truthyText contentType).or (truthyText header)).getD "application/x-ndjson"
  if originType.any (· ≠ "hub") then s else (s.requestTopic (name.getD "") contentType).getD s

/-- `topicDownstream` of the first version. -/
def topicDownstream (id : String) (header : Option String) (request : ℕ) : ServiceDiscovery :=
  match s.requestTopic id (header.getD "") with
  | some s => s.updateStream id (.acceptPipe request)
  | none => s

/-- `topicUpstream` of the first version. -/
def topicUpstream (id : String) (header : Option String) : ServiceDiscovery :=
  (s.requestTopic id (header.getD "application/x-ndjson")).getD s

/-- `topicWrite` of the second version. -/
def topicWrite (name : String) (header : Option String) (request : ℕ) : ServiceDiscovery :=
  s.topicDownstream name header request

/-- `topicRead` of the second version. -/
def topicRead (name : String) (header : Option String) : ServiceDiscovery :=
  (s.requestTopic name ((truthyText header).getD "application/x-ndjson")).getD s

/-! ## Instances -/

def updateInstance (i : ℕ) (f : RoutedInstance → RoutedInstance) : ServiceDiscovery :=
  { s with instances := s.instances.modify i f }

/-- The handlers without one, or with it at another stage. -/
def setStage (k : ℕ) (h : PangHandler) (stage : Option PangStage) : ServiceDiscovery :=
  { s with
    handlers :=
      match stage with
      | some stage => s.handlers.set k { h with stage }
      | none => s.handlers.eraseIdx k }

/-- The part of the handler of `pang` for the input, up to the next `await`. -/
def routeInput (k : ℕ) (h : PangHandler) (x : RoutedInstance) (ok room : Bool) :
    ServiceDiscovery :=
  match truthyText h.requires, truthyText h.contentType with
  | some topic, some contentType =>
    if ok then
      match s.createTopicIfNotExist topic contentType with
      | some s => (s.updateStream topic (.pipe x.input room)).setStage k h (some .inputRouted)
      | none => s.setStage k h none
    else s.setStage k h none
  | _, _ => s.setStage k h (some .output)

def routeOutput (k : ℕ) (h : PangHandler) (x : RoutedInstance) : ServiceDiscovery :=
  match truthyText h.provides, truthyText h.contentType with
  | some topic, some contentType =>
    if x.outputRouted then s.setStage k h none
    else
      match s.createTopicIfNotExist topic contentType with
      | some s => (s.updateStream topic (.acceptPipe x.output)).setStage k h (some .outputRouted)
      | none => s.setStage k h none
  | _, _ => s.setStage k h none

/-- A handler of `pang` goes on, with what it awaits fulfilled or rejected. -/
def resume (k : ℕ) (ok room : Bool) : ServiceDiscovery :=
  match s.handlers[k]? with
  | none => s
  | some h =>
    match s.instances[h.controller]? with
    | none => s
    | some x =>
      match h.stage with
      | .input => s.routeInput k h x ok room
      | .inputRouted => s.setStage k h (if ok then some .output else none)
      | .output => s.routeOutput k h x
      | .outputRouted =>
        let s := s.setStage k h none
        if ok then s.updateInstance h.controller fun x => { x with outputRouted := true }
        else s

/-- The handler of `PANG` of a controller, and that of `pang` of the dispatcher. -/
def pang (i : ℕ) (requires provides contentType : Option String) : ServiceDiscovery :=
  match s.instances[i]? with
  | none => s
  | some x =>
    let requires := (truthyText x.requires).or ((truthyText x.inputTopic).or requires)
    let provides := (truthyText x.provides).or ((truthyText x.outputTopic).or provides)
    let s := s.updateInstance i fun x => { x with requires, provides }
    { s with handlers := s.handlers ++ [⟨i, requires, provides, contentType, .input⟩] }

/-- `getData` for a topic that an instance is unrouted from, with no content type. -/
def getData (topic : Option String) : ServiceDiscovery :=
  ((truthyText topic).bind (s.createTopicIfNotExist · "")).getD s

def unroute (topic : Option String) (e : Topic.Event) : ServiceDiscovery :=
  match truthyText topic with
  | some name => (s.getData topic).updateStream name e
  | none => s

/-- The listener for `terminated`; the topic is looked up before the input stream is found to be
missing. -/
def onTerminated (i : ℕ) (x : RoutedInstance) (streams : Bool) : ServiceDiscovery :=
  if (truthyText x.requires).isSome && !streams then
    (s.getData x.requires).updateInstance i fun x => { x with lifecycle := .rejected }
  else
    (s.unroute x.requires (.unpipe (some x.input))).updateInstance i
      fun x => { x with lifecycle := .terminated }

/-- The listener for `end`. -/
def onEnd (i : ℕ) (x : RoutedInstance) : ServiceDiscovery :=
  (s.unroute x.provides (.sourceUnpipe x.output)).updateInstance i
    fun x => { x with lifecycle := .ended }

/-! ## Steps -/

inductive Action where
  | topicsPost (id contentType : Option String)
  | createTopic (name contentType header originType : Option String)
  | topicDownstream (id : String) (header : Option String) (request : ℕ)
  | topicUpstream (id : String) (header : Option String)
  | topicWrite (name : String) (header : Option String) (request : ℕ)
  | topicRead (name : String) (header : Option String)
  | deleteTopic (topic : String)
  /-- what happens at the stream of a topic, by its producers and consumers -/
  | stream (topic : String) (e : Topic.Event)
  | start (inputTopic outputTopic : Option String) (input output : ℕ)
  | ping (i : ℕ) (inputTopic outputTopic : Option String)
  /-- `handleHandshake` takes over what a `ping` has said -/
  | handshake (i : ℕ) (inputTopic outputTopic : Option String)
  | pang (i : ℕ) (requires provides contentType : Option String)
  | resume (k : ℕ) (ok room : Bool)
  /-- a controller emits `terminated`, with its streams or without -/
  | terminated (i : ℕ) (streams : Bool)
  | ended (i : ℕ)

def next : Action → ServiceDiscovery
  | .topicsPost id contentType => s.topicsPost id contentType
  | .createTopic name contentType header originType =>
    s.createTopic name contentType header originType
  | .topicDownstream id header request => s.topicDownstream id header request
  | .topicUpstream id header => s.topicUpstream id header
  | .topicWrite name header request => s.topicWrite name header request
  | .topicRead name header => s.topicRead name header
  | .deleteTopic topic => s.deleteTopic topic
  | .stream topic e => s.updateStream topic e
  | .start inputTopic outputTopic input output =>
    { s with
      instances := s.instances ++
        [⟨inputTopic, outputTopic, none, none, false, input, output, .running⟩] }
  | .ping i inputTopic outputTopic =>
    s.updateInstance i fun x =>
      { x with
        requires := (truthyText x.requires).or ((truthyText x.inputTopic).or inputTopic)
        provides := (truthyText x.provides).or ((truthyText x.outputTopic).or outputTopic) }
  | .handshake i inputTopic outputTopic =>
    s.updateInstance i fun x => { x with inputTopic, outputTopic }
  | .pang i requires provides contentType => s.pang i requires provides contentType
  | .resume k ok room => s.resume k ok room
  | .terminated i streams =>
    match s.instances[i]? with
    | some x => if x.lifecycle = .running then s.onTerminated i x streams else s
    | none => s
  | .ended i =>
    match s.instances[i]? with
    | some x => if x.lifecycle = .terminated then s.onEnd i x else s
    | none => s

end ServiceDiscovery

end TransformHub.Host
