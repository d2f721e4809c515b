import AgentiumOs.Lib.Json
import AgentiumOs.Lib.Text

/-! Delivery of one event to the agents whose subscriptions match it. What lies
outside the pipeline (the agents, the producers, the provenance recorder) is the
host: a state of its own, which every call to it may change, so that no answer
has to be the same twice. -/

namespace AgentiumOs.Events

open Lib
open Lib.Json (Value)

structure EventSchemaVersion where
  text : String
  deriving DecidableEq

structure EventSourceKind where
  text : String
  deriving DecidableEq

structure EventSourceKey where
  text : String
  deriving DecidableEq

def EventSourceKey.parse (value : String) : Option EventSourceKey :=
  if (Text.trim value).isEmpty then none else some ⟨Text.trim value⟩

structure EventSourceKeyPrefix where
  text : String

structure AgentDispatchRoutingKey where
  text : String
  deriving DecidableEq

structure PublishedEvent where
  schemaVersion : EventSchemaVersion
  sourceKind : EventSourceKind
  sourceKey : EventSourceKey

structure EventSubscription where
  schemaVersions : List EventSchemaVersion
  sourceKinds : List EventSourceKind
  sourceKeys : List EventSourceKey
  sourceKeyPrefixes : List EventSourceKeyPrefix

namespace EventSubscription

def isUnconstrained (sub : EventSubscription) : Bool :=
  sub.schemaVersions.isEmpty && sub.sourceKinds.isEmpty && sub.sourceKeys.isEmpty && sub.sourceKeyPrefixes.isEmpty

/-- An empty list constrains nothing, but an entry without any constraint is ignored. -/
def matchesPublishedEvent (sub : EventSubscription) (event : PublishedEvent) : Bool :=
  if sub.isUnconstrained then false
  else
    let schemaOk := sub.schemaVersions.isEmpty || sub.schemaVersions.any (· == event.schemaVersion)
    let sourceKindOk := sub.sourceKinds.isEmpty || sub.sourceKinds.any (· == event.sourceKind)
    let sourceKeyOk := sub.sourceKeys.isEmpty || sub.sourceKeys.any (· == event.sourceKey)
    let sourceKeyPrefixOk := sub.sourceKeyPrefixes.isEmpty ||
      sub.sourceKeyPrefixes.any fun lead => Text.startsWith event.sourceKey.text lead.text
    schemaOk && sourceKindOk && sourceKeyOk && sourceKeyPrefixOk

end EventSubscription

def subscriptionsMatchPublishedEvent (subs : List EventSubscription) (event : PublishedEvent) : Bool :=
  subs.any (·.matchesPublishedEvent event)

def isValidIdentifier (value : String) : Bool :=
  value.toList.all fun c => c.isAlphanum || c == '-' || c == '_'

structure AgentPackageName where
  text : String
  deriving DecidableEq

structure AgentInstanceId where
  text : String
  deriving DecidableEq

/-- The check that package names and instance ids share. -/
def parseIdentifier (raw : String) : Option String :=
  if (Text.trim raw).isEmpty || raw != Text.trim raw || !isValidIdentifier raw then none else some raw

def AgentPackageName.parse (raw : String) : Option AgentPackageName :=
  (parseIdentifier raw).map AgentPackageName.mk

def AgentInstanceId.parse (raw : String) : Option AgentInstanceId :=
  (parseIdentifier raw).map AgentInstanceId.mk

structure AgentRouteKey where
  agentPackage : AgentPackageName
  agentInstanceId : AgentInstanceId
  deriving DecidableEq

/-- The members of a discovery entry that matching reads. -/
structure AgentDiscoveryEntry where
  agentPackage : String
  agentInstanceId : String
  subscriptions : List EventSubscription

def routeKey (entry : AgentDiscoveryEntry) : Option AgentRouteKey :=
  match AgentPackageName.parse entry.agentPackage, AgentInstanceId.parse entry.agentInstanceId with
  | some p, some i => some ⟨p, i⟩
  | _, _ => none

/-- Routes of the agents whose subscriptions match; an entry without a valid route is skipped. -/
def matchingSubscriberRoutes (entries : List AgentDiscoveryEntry) (event : PublishedEvent) : List AgentRouteKey :=
  (entries.filter fun entry => subscriptionsMatchPublishedEvent entry.subscriptions event).filterMap routeKey

structure AgentDispatchRequest where
  routingKey : AgentDispatchRoutingKey
  messageType : EventSchemaVersion
  messages : List Value
  contextId : Option String
  taskId : Option String
  messageId : Option String
  sourceKind : Option EventSourceKind
  sourceKey : Option EventSourceKey
  producerKey : Option String
  metadata : Option Value

structure ProducedEvent where
  routingKey : AgentDispatchRoutingKey
  schemaVersion : EventSchemaVersion
  sourceKind : EventSourceKind
  sourceKey : EventSourceKey
  messages : List Value
  contextId : Option String
  taskId : Option String
  messageId : Option String
  producerKey : Option String
  metadata : Option Value
  deriving DecidableEq

namespace ProducedEvent

def asPublishedEvent (event : ProducedEvent) : PublishedEvent :=
  ⟨event.schemaVersion, event.sourceKind, event.sourceKey⟩

def intoDispatchRequest (event : ProducedEvent) : AgentDispatchRequest where
  routingKey := event.routingKey
  messageType := event.schemaVersion
  messages := event.messages
  contextId := event.contextId
  taskId := event.taskId
  messageId := event.messageId
  sourceKind := some event.sourceKind
  sourceKey := some event.sourceKey
  producerKey := event.producerKey
  metadata := event.metadata

end ProducedEvent

/-- The answer of an agent, without the scope it reports for the invocation. -/
structure AgentDispatchAck where
  accepted : Bool
  detail : Option String

/-- The error the dispatcher makes itself, and the text of any other. -/
inductive BamlRtError where
  | invalidArgument (message : String)
  | other (display : String)
  deriving DecidableEq

def BamlRtError.toText : BamlRtError → String
  | invalidArgument message => "Invalid argument: " ++ message
  | other display => display

inductive SubscriberDeliveryFailure where
  | rejected (detail : String)
  | dispatch (detail : String)

def SubscriberDeliveryFailure.fromDispatchError (err : BamlRtError) : SubscriberDeliveryFailure :=
  .dispatch err.toText

structure SubscriberAcceptance where
  agentPackage : String
  agentInstanceId : String
  detail : String

structure EventDeliveryOutcome where
  subscribersMatched : ℕ
  subscribersAccepted : ℕ
  acceptances : List SubscriberAcceptance
  failures : List (AgentRouteKey × SubscriberDeliveryFailure)

open EventDeliveryOutcome

/-- The outcome of a delivery to `matched` subscribers before the first of them is called. -/
def EventDeliveryOutcome.start (matched : ℕ) : EventDeliveryOutcome := ⟨matched, 0, [], []⟩

/-- The value a producer resumes from; none before its first poll. -/
abbrev ProducerCheckpoint := Option String

structure ProducerPoll where
  events : List ProducedEvent
  checkpoint : ProducerCheckpoint
  deriving DecidableEq

/-- The provenance recorder of the publish service. -/
structure HostIngressRecorder (W : Type) where
  recordSourcePoll : W → ProducedEvent → W × Except BamlRtError Unit
  recordDispatchRejected : W → AgentDispatchRequest → AgentRouteKey → Option String → String →
    W × Except BamlRtError Unit

/-- What the pipeline calls, over the state `W` of everything outside it. -/
structure Host (W : Type) where
  listAgents : W → List AgentDiscoveryEntry
  handleDispatch : W → AgentRouteKey → AgentDispatchRequest → W × Except BamlRtError AgentDispatchAck
  recorder : Option (HostIngressRecorder W)
  deployedAgentLookup : Option (W → AgentRouteKey → Option String)
  poll : W → String → ProducerCheckpoint → W × Except BamlRtError ProducerPoll
  /-- The digest of a namespace and parts. -/
  stableExternalId : String → List String → String
  /-- A list of texts as an error message quotes it. -/
  debugTexts : List String → String

variable {W : Type} (H : Host W)

/-- An event with a context and a message but no task gets a task of its own per target. -/
def ensureDispatchTaskScope (request : AgentDispatchRequest) (target : AgentRouteKey) : AgentDispatchRequest :=
  match request.taskId, request.contextId, request.messageId with
  | none, some contextId, some messageId =>
      { request with
        taskId := some (H.stableExternalId "host-event-dispatch"
          [contextId, messageId, request.routingKey.text, request.messageType.text,
            (request.sourceKind.map (·.text)).getD "", (request.sourceKey.map (·.text)).getD "",
            target.agentPackage.text, target.agentInstanceId.text]) }
  | _, _, _ => request

def callTarget (w : W) (request : AgentDispatchRequest) (target : AgentRouteKey) :
    W × Except BamlRtError AgentDispatchAck :=
  H.handleDispatch w target (ensureDispatchTaskScope H request target)

def EventDeliveryOutcome.answered (outcome : EventDeliveryOutcome) (target : AgentRouteKey) :
    Except BamlRtError AgentDispatchAck → EventDeliveryOutcome
  | .ok ack =>
      if ack.accepted then
        { outcome with
          subscribersAccepted := outcome.subscribersAccepted + 1
          acceptances := outcome.acceptances ++
            [⟨target.agentPackage.text, target.agentInstanceId.text, ack.detail.getD "accepted"⟩] }
      else
        { outcome with
          failures := outcome.failures ++ [(target, .rejected (ack.detail.getD "rejected"))] }
  | .error err =>
      { outcome with failures := outcome.failures ++ [(target, .fromDispatchError err)] }

def dispatchTargets (request : AgentDispatchRequest) (w : W) (outcome : EventDeliveryOutcome) :
    List AgentRouteKey → W × EventDeliveryOutcome
  | [] => (w, outcome)
  | target :: rest =>
      let called := callTarget H w request target
      dispatchTargets request called.1 (outcome.answered target called.2) rest

def deliverToSubscribers (w : W) (entries : List AgentDiscoveryEntry) (event : ProducedEvent) :
    W × EventDeliveryOutcome :=
  let targets := matchingSubscriberRoutes entries event.asPublishedEvent
  if targets.isEmpty then (w, .start 0)
  else dispatchTargets H event.intoDispatchRequest w (.start targets.length) targets

/-- Transport failures are recorded; an error of the recorder is only logged. -/
def recordFailures (recorder : HostIngressRecorder W) (request : AgentDispatchRequest) (w : W) :
    List (AgentRouteKey × SubscriberDeliveryFailure) → W
  | [] => w
  | (_, .rejected _) :: rest => recordFailures recorder request w rest
  | (route, .dispatch detail) :: rest =>
      let agentId := H.deployedAgentLookup.bind fun lookup => lookup w route
      recordFailures recorder request (recorder.recordDispatchRejected w request route agentId detail).1 rest

/-- Recording of the poll an event came from; its error stops the delivery. -/
def recordPoll (w : W) (event : ProducedEvent) : W × Except BamlRtError Unit :=
  match H.recorder with
  | none => (w, .ok ())
  | some recorder => recorder.recordSourcePoll w event

def publish (w : W) (entries : List AgentDiscoveryEntry) (event : ProducedEvent) :
    W × Except BamlRtError EventDeliveryOutcome :=
  match recordPoll H w event with
  | (w', .error err) => (w', .error err)
  | (w', .ok _) =>
      let delivered := deliverToSubscribers H w' entries event
      match H.recorder with
      | none => (delivered.1, .ok delivered.2)
      | some recorder =>
          (recordFailures H recorder event.intoDispatchRequest delivered.1 delivered.2.failures, .ok delivered.2)

/-- An event that names no producer is attributed to the one polled. -/
def attributed (event : ProducedEvent) (producerKey : Option String) : ProducedEvent :=
  if event.producerKey.isNone then { event with producerKey := producerKey } else event

def deliverEventWithProducerKey (w : W) (event : ProducedEvent) (producerKey : Option String) :
    W × Except BamlRtError EventDeliveryOutcome :=
  publish H w (H.listAgents w) (attributed event producerKey)

def deliverEvent (w : W) (event : ProducedEvent) : W × Except BamlRtError EventDeliveryOutcome :=
  deliverEventWithProducerKey H w event none

/-! ### Deliveries without a failure -/

def AllAccept (request : AgentDispatchRequest) (w : W) : List AgentRouteKey → Prop
  | [] => True
  | target :: rest =>
      (∃ ack, (callTarget H w request target).2 = .ok ack ∧ ack.accepted = true) ∧
        AllAccept request (callTarget H w request target).1 rest

/-- The subscribers of an event at the moment it is delivered. -/
def subscribers (w : W) (event : ProducedEvent) : List AgentRouteKey :=
  matchingSubscriberRoutes (H.listAgents w) event.asPublishedEvent

/-- The event is delivered without a subscriber failure: its poll is recorded and
every subscriber accepts it. -/
def Delivered (w : W) (producerKey : Option String) (event : ProducedEvent) : Prop :=
  (recordPoll H w (attributed event producerKey)).2 = .ok () ∧
    AllAccept H (attributed event producerKey).intoDispatchRequest
      (recordPoll H w (attributed event producerKey)).1 (subscribers H w event)

@[simp] theorem asPublishedEvent_attributed (e : ProducedEvent) (p : Option String) :
    (attributed e p).asPublishedEvent = e.asPublishedEvent := by
  unfold attributed
  split <;> rfl

theorem answered_failures (o : EventDeliveryOutcome) (target : AgentRouteKey)
    (an : Except BamlRtError AgentDispatchAck) :
    (o.answered target an).failures = [] ↔ o.failures = [] ∧ ∃ ack, an = .ok ack ∧ ack.accepted = true := by
  cases an with
  | error err => simp [answered]
  | ok ack => by_cases h : ack.accepted = true <;> simp [answered, h]

@[simp] theorem answered_matched (o : EventDeliveryOutcome) (target : AgentRouteKey)
    (an : Except BamlRtError AgentDispatchAck) :
    (o.answered target an).subscribersMatched = o.subscribersMatched := by
  cases an with
  | error err => rfl
  | ok ack => by_cases h : ack.accepted = true <;> simp [answered, h]

theorem dispatchTargets_failures (request : AgentDispatchRequest) (w : W) (o : EventDeliveryOutcome)
    (targets : List AgentRouteKey) :
    (dispatchTargets H request w o targets).2.failures = [] ↔
      o.failures = [] ∧ AllAccept H request w targets := by
  induction targets generalizing w o with
  | nil => simp [dispatchTargets, AllAccept]
  | cons target rest ih => simp [dispatchTargets, AllAccept, ih, answered_failures, and_assoc]

theorem dispatchTargets_matched (request : AgentDispatchRequest) (w : W) (o : EventDeliveryOutcome)
    (t : List AgentRouteKey) :
    (dispatchTargets H request w o t).2.subscribersMatched = o.subscribersMatched := by
  induction t generalizing w o with
  | nil => rfl
  | cons target rest ih => rw [dispatchTargets, ih, answered_matched]

theorem deliverToSubscribers_failures (w : W) (e : List AgentDiscoveryEntry) (ev : ProducedEvent) :
    (deliverToSubscribers H w e ev).2.failures = [] ↔
      AllAccept H ev.intoDispatchRequest w (matchingSubscriberRoutes e ev.asPublishedEvent) := by
  simp only [deliverToSubscribers]
  split
  case isTrue h => simp [List.isEmpty_iff.mp h, AllAccept, EventDeliveryOutcome.start]
  case isFalse => simp [dispatchTargets_failures, EventDeliveryOutcome.start]

theorem deliverToSubscribers_matched (w : W) (e : List AgentDiscoveryEntry) (ev : ProducedEvent) :
    (deliverToSubscribers H w e ev).2.subscribersMatched =
      (matchingSubscriberRoutes e ev.asPublishedEvent).length := by
  simp only [deliverToSubscribers]
  split
  case isTrue h => simp [List.isEmpty_iff.mp h, EventDeliveryOutcome.start]
  case isFalse => simp [dispatchTargets_matched, EventDeliveryOutcome.start]

theorem publish_answer (w : W) (en : List AgentDiscoveryEntry) (e : ProducedEvent) :
    (publish H w en e).2 = (recordPoll H w e).2.map fun _ =>
      (deliverToSubscribers H (recordPoll H w e).1 en e).2 := by
  unfold publish
  rcases recordPoll H w e with ⟨w', err | _⟩
  · rfl
  · cases H.recorder <;> rfl

theorem deliver_ok_iff (w : W) (event : ProducedEvent) (p : Option String) :
    (∃ outcome, (deliverEventWithProducerKey H w event p).2 = .ok outcome ∧
      outcome.failures = []) ↔ Delivered H w p event := by
  rw [deliverEventWithProducerKey, publish_answer, Delivered, subscribers]
  rcases hr : recordPoll H w (attributed event p) with ⟨w', err | u⟩
  · simp [Except.map]
  · have hf := deliverToSubscribers_failures H w' (H.listAgents w) (attributed event p)
    simpa [Except.map] using hf

theorem deliver_matched (h : (deliverEventWithProducerKey H w e p).2 = .ok o) :
    o.subscribersMatched = (subscribers H w e).length := by
  rw [deliverEventWithProducerKey, publish_answer] at h
  rcases hr : recordPoll H w (attributed e p) with ⟨w', err | u⟩
  · simp [hr, Except.map] at h
  · simp only [hr, Except.map, Except.ok.injEq] at h
    rw [← h, deliverToSubscribers_matched, asPublishedEvent_attributed, subscribers]

/-- What an event is dispatched as to an entry of the table, if the entry matches and has a route. -/
def dispatchTo (event : ProducedEvent) (entry : AgentDiscoveryEntry) : Option (AgentRouteKey × AgentDispatchRequest) :=
  if subscriptionsMatchPublishedEvent entry.subscriptions event.asPublishedEvent then
    (routeKey entry).map fun target => (target, ensureDispatchTaskScope H event.intoDispatchRequest target)
  else none

theorem filterMap_dispatchTo (e : List AgentDiscoveryEntry) (ev : ProducedEvent) :
    e.filterMap (dispatchTo H ev) = (matchingSubscriberRoutes e ev.asPublishedEvent).map fun target =>
      (target, ensureDispatchTaskScope H ev.intoDispatchRequest target) := by
  rw [matchingSubscriberRoutes, List.filterMap_filter, List.map_filterMap]
  congr 1
  funext entry
  rw [dispatchTo]
  split <;> rfl

theorem answered_counts (o : EventDeliveryOutcome) (target : AgentRouteKey)
    (an : Except BamlRtError AgentDispatchAck) :
    (o.answered target an).subscribersAccepted + (o.answered target an).failures.length =
      o.subscribersAccepted + o.failures.length + 1 := by
  cases an with
  | error err => simp [answered, Nat.add_assoc]
  | ok ack =>
    simp only [answered]
    split <;> simp <;> omega

theorem dispatchTargets_counts (request : AgentDispatchRequest) (w : W) (o : EventDeliveryOutcome)
    (t : List AgentRouteKey) :
    (dispatchTargets H request w o t).2.subscribersAccepted +
      (dispatchTargets H request w o t).2.failures.length =
        o.subscribersAccepted + o.failures.length + t.length := by
  induction t generalizing w o with
  | nil => rfl
  | cons target rest ih =>
    have ha := answered_counts o target (callTarget H w request target).2
    rw [dispatchTargets, ih, List.length_cons]
    omega

section Log

variable {H} {log : W → List (AgentRouteKey × AgentDispatchRequest)}
  (hlog : ∀ w target request, log (H.handleDispatch w target request).1 = log w ++ [(target, request)])

include hlog

theorem dispatchTargets_log (request : AgentDispatchRequest) (w : W) (o : EventDeliveryOutcome)
    (t : List AgentRouteKey) :
    log (dispatchTargets H request w o t).1 =
      log w ++ t.map fun target => (target, ensureDispatchTaskScope H request target) := by
  induction t generalizing w o with
  | nil => simp [dispatchTargets]
  | cons target rest ih => simp [dispatchTargets, ih, callTarget, hlog]

/-- On a host that keeps the dispatches in order, an event is dispatched once for each entry that
matches it and has a route, and every dispatch was accepted or failed. -/
theorem matching_entries_dispatched_once (w : W) (entries : List AgentDiscoveryEntry) (event : ProducedEvent) :
    log (deliverToSubscribers H w entries event).1 = log w ++ entries.filterMap (dispatchTo H event) ∧
      (deliverToSubscribers H w entries event).2.subscribersMatched =
        (deliverToSubscribers H w entries event).2.subscribersAccepted +
          (deliverToSubscribers H w entries event).2.failures.length := by
  rw [deliverToSubscribers_matched, filterMap_dispatchTo, deliverToSubscribers]
  split
  · rename_i hn
    simp [List.isEmpty_iff.mp hn, EventDeliveryOutcome.start]
  · rw [dispatchTargets_log hlog, dispatchTargets_counts]
    simp [EventDeliveryOutcome.start]

end Log

/-- A host that takes every dispatch and keeps it. -/
def acceptingHost : Host (List (AgentRouteKey × AgentDispatchRequest)) where
  listAgents _ := []
  handleDispatch log target request := (log ++ [(target, request)], .ok ⟨true, none⟩)
  recorder := none
  deployedAgentLookup := none
  poll log _ _ := (log, .ok ⟨[], none⟩)
  stableExternalId _ _ := "task"
  debugTexts _ := ""

def subscribedEntry : AgentDiscoveryEntry := ⟨"notes", "default", [⟨[⟨"task.v1"⟩], [], [], []⟩]⟩

def taskEvent : ProducedEvent := ⟨⟨"tasks"⟩, ⟨"task.v1"⟩, ⟨"clickup"⟩, ⟨"clickup:L1"⟩, [], none, none, none, none, none⟩

/-- Two entries, and one between them without a valid route. -/
def threeEntries : List AgentDiscoveryEntry :=
  [subscribedEntry, { subscribedEntry with agentInstanceId := "a b" }, subscribedEntry]

theorem event_dispatched_to_both_entries :
    (deliverToSubscribers acceptingHost [] threeEntries taskEvent).1.length = 2 := by
  have hlog := (@matching_entries_dispatched_once _ acceptingHost id (fun _ _ _ => rfl) [] threeEntries taskEvent).1
  exact (congrArg List.length hlog).trans (by decide +kernel)

end AgentiumOs.Events
