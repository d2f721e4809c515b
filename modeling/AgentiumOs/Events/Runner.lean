import AgentiumOs.Events.Dispatcher

/-! The runner around the event dispatcher: it runs poll cycles, saves the
checkpoint of every producer whose turn ended without a hard error, and starts
again from the saved checkpoints. A crash needs no operation of its own: it is a
stretch of calls that all fail, up to the next restart. -/

namespace AgentiumOs.Events

open Lib

structure Deployment (W A : Type) where
  host : Host W
  /-- `save_event_producer_checkpoint`, and whether the write took effect. -/
  saveCheckpoint : W → String → String → W × Bool
  /-- What opening the database does to it. -/
  reopen : W → W
  /-- What happens between two cycles. -/
  act : W → A → W

structure Runner (W : Type) where
  dispatcher : Dispatcher W
  saved : Finmap fun _ : String => String

inductive RunnerOp (A : Type) where
  | outside (activity : A)
  | cycle
  | restart (producers : List EventProducer)

variable {W A : Type} (D : Deployment W A)

/-- One checkpoint is saved; a failed write is only logged. -/
def saveEventProducerCheckpoint (r : Runner W) (key value : String) : Runner W where
  dispatcher := ⟨r.dispatcher.producers, (D.saveCheckpoint r.dispatcher.host key value).1⟩
  saved := if (D.saveCheckpoint r.dispatcher.host key value).2 then r.saved.insert key value else r.saved

def persistResults (r : Runner W) :
    List (String × Except BamlRtError EventDeliveryOutcome) → Runner W
  | [] => r
  | (_, .error _) :: rest => persistResults r rest
  | (key, .ok _) :: rest =>
      match r.dispatcher.checkpoint key with
      | none => persistResults r rest
      | some value => persistResults (saveEventProducerCheckpoint D r key value) rest

def runEventPollCycle (r : Runner W) : Runner W :=
  persistResults D { r with dispatcher := (pollAndDeliver D.host r.dispatcher).1 }
    (pollAndDeliver D.host r.dispatcher).2

/-- Every producer is registered with its saved checkpoint. -/
def registerAll (saved : Finmap fun _ : String => String) (registry : ProducerRegistry) :
    List EventProducer → Except BamlRtError ProducerRegistry
  | [] => .ok registry
  | p :: rest =>
      match registry.registerWithCheckpoint p (saved.lookup p.producerKey) with
      | .error err => .error err
      | .ok registry' => registerAll saved registry' rest

/-- A start that fails to register its producers polls none. -/
def startRegistry (saved : Finmap fun _ : String => String) (producers : List EventProducer) : ProducerRegistry :=
  match registerAll saved .new producers with
  | .ok registry => registry
  | .error _ => .new

def runnerStep (r : Runner W) : RunnerOp A → Runner W × Unit
  | .outside activity =>
      ({ r with dispatcher := { r.dispatcher with host := D.act r.dispatcher.host activity } }, ())
  | .cycle => (runEventPollCycle D r, ())
  | .restart producers =>
      ({ r with dispatcher := ⟨startRegistry r.saved producers, D.reopen r.dispatcher.host⟩ }, ())

/-- Nothing is registered and nothing saved before the first start. -/
def Runner.new (w : W) : Runner W := ⟨.new w, ∅⟩

/-- The turn of a producer in the next cycle of a dispatcher. -/
def IsTurn (H : Host W) (d : Dispatcher W) (p : EventProducer) (turn : Dispatcher W) : Prop :=
  ∃ before after, d.producers.producers = before ++ p :: after ∧ turn = Run.exec (pollProducer H) d before

/-! ### The calls of a delivery -/

/-- Every call a delivery makes moves the host along a relation. -/
structure Host.Follows (H : Host W) (R : W → W → Prop) : Prop where
  refl : ∀ w, R w w
  trans : ∀ w w' w'', R w w' → R w' w'' → R w w''
  dispatch : ∀ w target request, R w (H.handleDispatch w target request).1
  source : ∀ recorder, H.recorder = some recorder → ∀ w event, R w (recorder.recordSourcePoll w event).1
  rejected : ∀ recorder, H.recorder = some recorder → ∀ w request route agentId detail,
    R w (recorder.recordDispatchRejected w request route agentId detail).1

namespace Host.Follows

variable {H : Host W} {R : W → W → Prop} (h : H.Follows R)

include h

theorem dispatchTargets (r : AgentDispatchRequest) (w : W) (o : EventDeliveryOutcome)
    (t : List AgentRouteKey) : R w (dispatchTargets H r w o t).1 := by
  induction t generalizing w o with
  | nil => exact h.refl w
  | cons target rest ih => exact h.trans _ _ _ (h.dispatch _ _ _) (ih _ _)

theorem deliverToSubscribers (w : W) (e : List AgentDiscoveryEntry) (ev : ProducedEvent) :
    R w (deliverToSubscribers H w e ev).1 := by
  simp only [Events.deliverToSubscribers]
  split
  · exact h.refl w
  · exact h.dispatchTargets _ _ _ _

theorem recordFailures {r : HostIngressRecorder W} (hr : H.recorder = some r)
    (re : AgentDispatchRequest) (w : W) (f : List (AgentRouteKey × SubscriberDeliveryFailure)) :
    R w (recordFailures H r re w f) := by
  induction f generalizing w with
  | nil => exact h.refl w
  | cons fa rest ih =>
    rcases fa with ⟨route, detail | detail⟩
    · exact ih w
    · exact h.trans _ _ _ (h.rejected r hr _ _ _ _ _) (ih _)

theorem recordPoll (w : W) (e : ProducedEvent) : R w (recordPoll H w e).1 := by
  unfold Events.recordPoll
  split
  case h_1 => exact h.refl w
  case h_2 recorder hr => exact h.source recorder hr w e

theorem deliverEvent (w : W) (e : ProducedEvent) (pk : Option String) :
    R w (deliverEventWithProducerKey H w e pk).1 := by
  have hr := h.recordPoll w (attributed e pk)
  unfold deliverEventWithProducerKey publish
  rcases hp : Events.recordPoll H w (attributed e pk) with ⟨w', err | u⟩
  · rw [hp] at hr
    exact hr
  · rw [hp] at hr
    have hd := h.trans _ _ _ hr (h.deliverToSubscribers w' (H.listAgents w) (attributed e pk))
    cases hre : H.recorder with
    | none => exact hd
    | some recorder => exact h.trans _ _ _ hd (h.recordFailures hre _ _ _)

theorem deliverBatch (pr : EventProducer) (w : W) (b : Batch) (e : List ProducedEvent) :
    R w (deliverBatch H pr w b e).1 := by
  induction e generalizing w b with
  | nil => exact h.refl w
  | cons ev rest ih =>
    have he := h.deliverEvent w ev (some pr.producerKey)
    unfold Events.deliverBatch
    split
    · exact h.refl w
    · rcases hr : deliverEventWithProducerKey H w ev (some pr.producerKey) with ⟨w', err | outcome⟩
      · rw [hr] at he
        exact he
      · rw [hr] at he
        exact h.trans _ _ _ he (ih _ _)

theorem pollProducer (d : Dispatcher W) (pr : EventProducer) :
    R (H.poll d.host pr.producerKey (d.checkpoint pr.producerKey)).1 (pollProducer H d pr).1.host := by
  simp only [Events.pollProducer]
  rcases H.poll d.host pr.producerKey (d.checkpoint pr.producerKey) with ⟨w, err | poll⟩
  · exact h.refl w
  · have hb := h.deliverBatch pr w .start poll.events
    dsimp only
    split
    · exact h.refl w
    · rcases hr : Events.deliverBatch H pr w .start poll.events with ⟨w', err | batch⟩
      all_goals
        rw [hr] at hb
        exact hb

end Host.Follows

@[simp] theorem persistResults_producers (r : Runner W)
    (re : List (String × Except BamlRtError EventDeliveryOutcome)) :
    (persistResults D r re).dispatcher.producers = r.dispatcher.producers := by
  induction re generalizing r with
  | nil => rfl
  | cons result rest ih =>
    rcases result with ⟨key, err | outcome⟩
    · exact ih r
    · unfold persistResults
      split
      · exact ih r
      · exact ih _

variable {key : String} {p : EventProducer} {d : Dispatcher W} {value : String}
  {registry registry' : ProducerRegistry} {pr : List EventProducer}
  {s : Finmap fun _ : String => String} {H : Host W}

theorem lookup_persistResults (r : Runner W) (re : List (String × Except BamlRtError EventDeliveryOutcome))
    (h : (persistResults D r re).saved.lookup key = some value) :
    r.saved.lookup key = some value ∨ r.dispatcher.checkpoint key = some value := by
  induction re generalizing r with
  | nil => exact .inl h
  | cons result rest ih =>
    rcases result with ⟨key', err | outcome⟩
    · exact ih r h
    · unfold persistResults at h
      split at h
      case h_1 => exact ih r h
      case h_2 value' hv =>
        rcases ih _ h with hs | hm
        · unfold saveEventProducerCheckpoint at hs
          split at hs
          · by_cases hk : key = key'
            · subst hk
              rw [Finmap.lookup_insert] at hs
              exact .inr (hv.trans hs)
            · rw [Finmap.lookup_insert_of_ne _ hk] at hs
              exact .inl hs
          · exact .inl hs
        · exact .inr hm

theorem persistResults_follows {R : W → W → Prop} (hr : ∀ w, R w w) (ht : ∀ w w' w'', R w w' → R w' w'' → R w w'')
    (hs : ∀ w key value, R w (D.saveCheckpoint w key value).1) (r : Runner W)
    (re : List (String × Except BamlRtError EventDeliveryOutcome)) :
    R r.dispatcher.host (persistResults D r re).dispatcher.host := by
  induction re generalizing r with
  | nil => exact hr _
  | cons result rest ih =>
    rcases result with ⟨key, err | outcome⟩
    · exact ih r
    · unfold persistResults
      split
      case h_1 => exact ih r
      case h_2 value hv =>
        exact ht _ _ _ (hs _ key value) (ih (saveEventProducerCheckpoint D r key value))

theorem checkpoint_register (h : registry.registerWithCheckpoint p c = .ok registry') (key : String) :
    registry'.checkpoint key = if key = p.producerKey then c else registry.checkpoint key := by
  unfold ProducerRegistry.registerWithCheckpoint at h
  split_ifs at h with hki hke
  cases h
  by_cases hk : key = p.producerKey
  · subst hk
    simp [ProducerRegistry.checkpoint]
  · rw [if_neg hk]
    simp [ProducerRegistry.checkpoint, Finmap.lookup_insert_of_ne _ hk]

theorem checkpoint_registerAll (h : registerAll s registry pr = .ok registry')
    (hv : registry'.checkpoint key = some value) :
    registry.checkpoint key = some value ∨ s.lookup key = some value := by
  induction pr generalizing registry with
  | nil =>
    cases h
    exact .inl hv
  | cons p rest ih =>
    unfold registerAll at h
    split at h
    case h_1 => cases h
    case h_2 next hn =>
      rcases ih h with hm | hs
      · rw [checkpoint_register hn] at hm
        split at hm
        case isTrue hk => exact .inr (hk ▸ hm)
        case isFalse => exact .inl hm
      · exact .inr hs

theorem checkpoint_startRegistry (h : (startRegistry s pr).checkpoint key = some value) :
    s.lookup key = some value := by
  have hn : ∀ value, (ProducerRegistry.new).checkpoint key ≠ some value := by
    simp [ProducerRegistry.checkpoint, ProducerRegistry.new]
  unfold startRegistry at h
  split at h
  case h_1 registry hr =>
    rcases checkpoint_registerAll hr h with hm | hs
    · exact absurd hm (hn value)
    · exact hs
  case h_2 => exact absurd h (hn value)

/-- The next cycle moves the checkpoint of the producer to the value. -/
def CycleMoves (r : Runner W) (key value : String) : Prop :=
  ∃ p turn, p.producerKey = key ∧ IsTurn D.host r.dispatcher p turn ∧ Moves D.host turn p value

/-- An earlier cycle moved the checkpoint to the value. -/
def Moved (start : Runner W) (ops : List (RunnerOp A)) (key value : String) : Prop :=
  Run.Occurs (runnerStep D) start ops fun r op => op = .cycle ∧ CycleMoves D r key value

theorem checkpoint_after_turn (ht : IsTurn H d p t) : ∃ checkpoint : ProducerCheckpoint,
      (pollAndDeliver H d).1.checkpoint p.producerKey = checkpoint.or (d.checkpoint p.producerKey) ∧
      ∀ value, checkpoint = some value ↔ Moves H t p value := by
  obtain ⟨b, after, hs, rfl⟩ := ht
  obtain ⟨checkpoint, ha, hm⟩ := pollProducer_advances H (Run.exec (pollProducer H) d b) p
  have hme : p ∈ (Run.exec (pollProducer H) d b).producers.producers := by
    rw [exec_producers, hs]
    simp
  refine ⟨checkpoint, ?_, hm⟩
  rw [cycle_checkpoint H d hs, Dispatcher.checkpoint, ha, ProducerRegistry.checkpoint_advance _ hme]
  exact congrArg _ (turn_checkpoint H d hs)

theorem checkpoint_unregistered (h : ∀ p ∈ d.producers.producers, p.producerKey ≠ key) :
    (pollAndDeliver H d).1.checkpoint key = d.checkpoint key := by
  rw [pollAndDeliver, exec_frame]
  exact fun p hp heq => h p hp heq.symm

theorem exists_isTurn (H : Host W) (hp : p ∈ d.producers.producers) : ∃ turn, IsTurn H d p turn := by
  obtain ⟨b, after, hs⟩ := List.append_of_mem hp
  exact ⟨_, b, after, hs, rfl⟩

theorem IsTurn.checkpoint (h : IsTurn H d p t) : t.checkpoint p.producerKey = d.checkpoint p.producerKey := by
  obtain ⟨before, after, hs, rfl⟩ := h
  exact turn_checkpoint H d hs

theorem checkpoint_cycle (h : (pollAndDeliver D.host d).1.checkpoint key = some value) :
    d.checkpoint key = some value ∨ ∃ p turn, p.producerKey = key ∧ IsTurn D.host d p turn ∧
      Moves D.host turn p value := by
  by_cases hr : ∃ p ∈ d.producers.producers, p.producerKey = key
  · obtain ⟨p, hp, rfl⟩ := hr
    obtain ⟨turn, ht⟩ := exists_isTurn D.host hp
    obtain ⟨checkpoint, ha, hm⟩ := checkpoint_after_turn ht
    rw [ha] at h
    cases checkpoint with
    | none => exact .inl h
    | some moved =>
      obtain rfl : moved = value := by simpa using h
      exact .inr ⟨p, turn, rfl, ht, (hm moved).mp rfl⟩
  · rw [checkpoint_unregistered fun p hp heq => hr ⟨p, hp, heq⟩] at h
    exact .inl h

/-- Every checkpoint a run has in memory or saved is one that an earlier cycle of
the run moved to. -/
theorem checkpoint_origin (w : W) (ops : List (RunnerOp A)) (key value : String) :
    let r := Run.exec (runnerStep D) (.new w) ops
    (r.dispatcher.checkpoint key = some value → Moved D (.new w) ops key value) ∧
      (r.saved.lookup key = some value → Moved D (.new w) ops key value) := by
  induction ops using List.reverseRecOn with
  | nil => simp [Runner.new, Dispatcher.new, Dispatcher.checkpoint, ProducerRegistry.checkpoint,
      ProducerRegistry.new]
  | append_singleton ops op ih =>
    obtain ⟨hm, hs⟩ := ih
    rw [Run.exec_concat]
    cases op with
    | outside ac => exact ⟨fun h => (hm h).concat _, fun h => (hs h).concat _⟩
    | restart pr =>
      exact ⟨fun h => (hs (checkpoint_startRegistry h)).concat _, fun h => (hs h).concat _⟩
    | cycle =>
      have hn : (pollAndDeliver D.host (Run.exec (runnerStep D) (.new w) ops).dispatcher).1.checkpoint
          key = some value → Moved D (.new w) (ops ++ [.cycle]) key value := by
        intro h
        rcases checkpoint_cycle D h with ho | hmo
        · exact (hm ho).concat _
        · exact Run.occurs_last _ ⟨rfl, hmo⟩
      refine ⟨fun h => hn ?_, fun h => ?_⟩
      · simpa only [runnerStep, runEventPollCycle, Dispatcher.checkpoint, persistResults_producers] using h
      · rcases lookup_persistResults D _ _ h with ho | hm'
        · exact (hs ho).concat _
        · exact hn hm'

end AgentiumOs.Events
