import AgentiumOs.Bus.Effects

/-! Emitting effects. An event is first counted and told to the effect subscribers and
then sent as an envelope to the subscribers of the bus, the first of which that fails
ends the call with its error. A caller whose start failed has no token to complete, and
the counter stays as the failed call left it. -/

namespace AgentiumOs.Bus

open Lib InFlightCounts

variable {κ μ ω : Type}

namespace BusWithEffects

/-- The envelope goes to the subscribers in order, up to the first that fails. -/
def deliver (event : EffectEvent κ μ) : List (Subscriber κ μ ω) → ω → ω × Except String Unit
  | [], world => (world, .ok ())
  | sub :: subs, world =>
      match sub.onEnvelope event world with
      | (world, .ok _) => deliver event subs world
      | (world, .error err) => (world, .error err)

/-- The envelope reaches the streams that are open; the others are forgotten. -/
def sendStreams (event : EffectEvent κ μ) (streams : List (EnvelopeStream κ μ)) : List (EnvelopeStream κ μ) :=
  (streams.filter fun s => !s.closed).map fun s => { s with received := s.received ++ [event] }

def emitEnvelope (bus : BusWithEffects κ μ ω) (event : EffectEvent κ μ) :
    BusWithEffects κ μ ω × Except String Unit :=
  match deliver event bus.subscribers bus.world with
  | (world, .ok _) => ({ bus with world, streams := sendStreams event bus.streams }, .ok ())
  | (world, .error err) => ({ bus with world }, .error err)

variable [DecidableEq κ]

def emit (bus : BusWithEffects κ μ ω) (event : EffectEvent κ μ) : BusWithEffects κ μ ω × Except String Unit :=
  match bus.processEffect event with
  | (bus, .ok _) => bus.emitEnvelope event
  | (bus, .error err) => (bus, .error err)

end BusWithEffects

inductive EffectKind where
  | tool
  | llm
  | a2a

inductive EffectStartToken (κ μ : Type) : EffectKind → Type where
  | tool (contextId : κ) (metadata : μ) : EffectStartToken κ μ .tool
  | llm (contextId : κ) (metadata : μ) : EffectStartToken κ μ .llm
  | a2a (contextId : κ) (livenessRole : A2aLivenessRole) (metadata : μ) : EffectStartToken κ μ .a2a

namespace EffectStartToken

def contextId {kind : EffectKind} : EffectStartToken κ μ kind → κ
  | .tool contextId _ => contextId
  | .llm contextId _ => contextId
  | .a2a contextId _ _ => contextId

/-- The event that announces the effect of a token. -/
def startEvent {kind : EffectKind} : EffectStartToken κ μ kind → EffectEvent κ μ
  | .tool contextId metadata => .toolStarted contextId metadata
  | .llm contextId metadata => .llmStarted contextId metadata
  | .a2a contextId livenessRole metadata => .a2aStarted contextId livenessRole metadata

def counter {kind : EffectKind} : EffectStartToken κ μ kind → Counter
  | .tool _ _ => .tool
  | .llm _ _ => .llm
  | .a2a _ livenessRole _ => livenessRole.counter

end EffectStartToken

namespace BusWithEffects

variable [DecidableEq κ]

/-- A start: the token is made, and handed out when the event was emitted. -/
def start {kind : EffectKind} (bus : BusWithEffects κ μ ω) (token : EffectStartToken κ μ kind) :
    BusWithEffects κ μ ω × Except String (EffectStartToken κ μ kind) :=
  match bus.emit token.startEvent with
  | (bus, .ok _) => (bus, .ok token)
  | (bus, .error err) => (bus, .error err)

def startTool (bus : BusWithEffects κ μ ω) (contextId : κ) (metadata : μ) :
    BusWithEffects κ μ ω × Except String (EffectStartToken κ μ .tool) :=
  bus.start (.tool contextId metadata)

/-- No subscriber fails, each in the world the earlier ones leave. -/
def Accepts (event : EffectEvent κ μ) : List (Subscriber κ μ ω) → ω → Prop
  | [], _ => True
  | sub :: subs, world =>
      (sub.onEnvelope event world).2 = .ok () ∧ Accepts event subs (sub.onEnvelope event world).1

omit [DecidableEq κ] in
theorem deliver_ok_iff (e : EffectEvent κ μ) (s : List (Subscriber κ μ ω)) (world : ω) :
    (deliver e s world).2 = .ok () ↔ Accepts e s world := by
  induction s generalizing world with
  | nil => simp [deliver, Accepts]
  | cons sub s ih =>
    simp only [deliver, Accepts]
    rcases sub.onEnvelope e world with ⟨n, res⟩
    cases res with
    | ok _ => simpa using ih n
    | error err => simp

omit [DecidableEq κ] in
theorem emitEnvelope_ok_iff (bus : BusWithEffects κ μ ω) (e : EffectEvent κ μ) :
    (bus.emitEnvelope e).2 = .ok () ↔ Accepts e bus.subscribers bus.world := by
  rw [← deliver_ok_iff, emitEnvelope]
  rcases deliver e bus.subscribers bus.world with ⟨world, res⟩
  cases res with
  | ok _ => simp
  | error err => simp

omit [DecidableEq κ] in
@[simp] theorem counts_emitEnvelope (bus : BusWithEffects κ μ ω) (event : EffectEvent κ μ) :
    (bus.emitEnvelope event).1.counts = bus.counts := by
  unfold emitEnvelope
  split <;> rfl

theorem emit_eq (bus : BusWithEffects κ μ ω) (event : EffectEvent κ μ) :
    bus.emit event = (bus.processEffect event).1.emitEnvelope event := rfl

/-- Whether the envelope is delivered or not, the event has been counted. -/
theorem inFlight_emit (bus : BusWithEffects κ μ ω) (e : EffectEvent κ μ) (contextId : κ) :
    (bus.emit e).1.inFlight contextId = if contextId = e.contextId then e.count (bus.inFlight contextId)
      else bus.inFlight contextId := by
  rw [← inFlight_processEffect, inFlight, inFlight, emit_eq, counts_emitEnvelope]

variable {kind : EffectKind} (bus : BusWithEffects κ μ ω) (token : EffectStartToken κ μ kind)

omit [DecidableEq κ] in
theorem contextId_startEvent : token.startEvent.contextId = token.contextId := by
  cases token <;> rfl

omit [DecidableEq κ] in
theorem count_startEvent (n : InFlightCounts) : token.startEvent.count n = n.started token.counter := by
  cases token <;> rfl

theorem start_fst : (bus.start token).1 = (bus.emit token.startEvent).1 := by
  unfold start
  split
  · rename_i h
    rw [h]
  · rename_i h
    rw [h]

theorem start_error_iff : (∃ err, (bus.start token).2 = .error err) ↔ (bus.emit token.startEvent).2 ≠ .ok () := by
  unfold start
  rcases bus.emit token.startEvent with ⟨next, res⟩
  cases res with
  | ok _ => simp
  | error err => simp

theorem inFlight_start : (bus.start token).1.inFlight token.contextId =
      (bus.inFlight token.contextId).started token.counter := by
  rw [start_fst, inFlight_emit, contextId_startEvent, if_pos rfl, count_startEvent]

/-- A start that fails leaves the counters of its context as they were exactly when there
is no failure to speak of or the counter is full. -/
theorem failed_start_keeps_counts_iff : ((∃ err, (bus.start token).2 = .error err) →
      (bus.start token).1.inFlight token.contextId = bus.inFlight token.contextId) ↔
    Accepts token.startEvent bus.subscribers (bus.processEffect token.startEvent).1.world ∨
      (bus.inFlight token.contextId).get token.counter = Word.maxValue 32 := by
  have hs : (bus.start token).1.inFlight token.contextId = bus.inFlight token.contextId ↔
      (bus.inFlight token.contextId).get token.counter = Word.maxValue 32 := by
    rw [inFlight_start, ← Word.saturatingAdd_one_eq_iff]
    constructor
    · intro h
      have hco := congrArg (fun n => n.get token.counter) h
      simpa [started, get_modify] using hco
    · intro h
      refine ext_get fun c => ?_
      rw [started, get_modify]
      split_ifs with hc
      · rw [hc, h]
      · rfl
  rw [start_error_iff, hs, emit_eq, Ne, emitEnvelope_ok_iff, processEffect, (fanOut_frame _ _).2, or_iff_not_imp_left]

/-- A bus with one subscriber, whose store is gone. -/
def unreachableStore : BusWithEffects ℕ Unit Unit :=
  { newBus with subscribers := [⟨fun _ world => (world, .error "store unreachable")⟩] }

/-- The tool call does not start and is in flight from then on. -/
theorem failed_start_leaves_count : (unreachableStore.startTool 7 ()).2 = .error "store unreachable" ∧
      unreachableStore.inFlight 7 = {} ∧
      (unreachableStore.startTool 7 ()).1.inFlight 7 = { tool := 1 } :=
  ⟨rfl, rfl, rfl⟩

end BusWithEffects

end AgentiumOs.Bus
