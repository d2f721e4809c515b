import AgentiumOs.Lib.Run
import AgentiumOs.Lib.Word

/-! The effect bus: every effect of a context is announced when it starts and when it is
over, and the bus counts what is in flight. Contexts without anything in flight have no
entry in its map. After the counting, the event goes to the effect subscribers, whose
failures are only logged. -/

namespace AgentiumOs.Bus

open Lib

inductive A2aLivenessRole where
  | command
  | effect

/-- Events of the bus. What the bus passes on without looking at it is in `metadata`. -/
inductive EffectEvent (κ μ : Type) where
  | toolStarted (contextId : κ) (metadata : μ)
  | toolCompleted (contextId : κ) (metadata : μ)
  | llmStarted (contextId : κ) (metadata : μ)
  | llmCompleted (contextId : κ) (metadata : μ)
  | a2aStarted (contextId : κ) (livenessRole : A2aLivenessRole) (metadata : μ)
  | a2aCompleted (contextId : κ) (livenessRole : A2aLivenessRole) (metadata : μ)
  | intentResolved (contextId : κ) (metadata : μ)
  | planGenerated (contextId : κ) (metadata : μ)
  | planStepStatusChanged (contextId : κ) (metadata : μ)
  | toolStreamChunk (contextId : κ) (metadata : μ)
  | toolSessionStep (contextId : κ) (metadata : μ)
  | contextHistorySettled (contextId : κ) (metadata : μ)

inductive Counter where
  | tool
  | llm
  | a2a
  | a2aCommand
  deriving DecidableEq

structure InFlightCounts where
  tool : ℕ := 0
  llm : ℕ := 0
  a2a : ℕ := 0
  a2aCommand : ℕ := 0

open InFlightCounts

namespace InFlightCounts

def any (n : InFlightCounts) : Bool :=
  n.tool > 0 || n.llm > 0 || n.a2a > 0 || n.a2aCommand > 0

def get (n : InFlightCounts) : Counter → ℕ
  | .tool => n.tool
  | .llm => n.llm
  | .a2a => n.a2a
  | .a2aCommand => n.a2aCommand

def modify (n : InFlightCounts) (f : ℕ → ℕ) : Counter → InFlightCounts
  | .tool => { n with tool := f n.tool }
  | .llm => { n with llm := f n.llm }
  | .a2a => { n with a2a := f n.a2a }
  | .a2aCommand => { n with a2aCommand := f n.a2aCommand }

def started (n : InFlightCounts) (c : Counter) : InFlightCounts :=
  n.modify (Word.saturatingAdd 32 · 1) c

def completed (n : InFlightCounts) (c : Counter) : InFlightCounts :=
  n.modify (· - 1) c

theorem get_modify (n : InFlightCounts) (f : ℕ → ℕ) (c d : Counter) :
    (n.modify f c).get d = if d = c then f (n.get d) else n.get d := by
  cases c <;> cases d <;> rfl

theorem any_iff (n : InFlightCounts) : n.any = true ↔ ∃ c, n.get c ≠ 0 := by
  simp only [any, Bool.or_eq_true, decide_eq_true_eq, Nat.pos_iff_ne_zero]
  constructor
  · rintro (((h | h) | h) | h)
    · exact ⟨.tool, h⟩
    · exact ⟨.llm, h⟩
    · exact ⟨.a2a, h⟩
    · exact ⟨.a2aCommand, h⟩
  · rintro ⟨c, h⟩
    cases c with
    | tool => exact .inl (.inl (.inl h))
    | llm => exact .inl (.inl (.inr h))
    | a2a => exact .inl (.inr h)
    | a2aCommand => exact .inr h

@[ext] theorem ext_get {n m : InFlightCounts} (h : ∀ c, n.get c = m.get c) : n = m := by
  obtain ⟨tool, llm, a2a, a2aCommand⟩ := n
  obtain ⟨tool', llm', a2a', a2aCommand'⟩ := m
  obtain rfl : tool = tool' := h .tool
  obtain rfl : llm = llm' := h .llm
  obtain rfl : a2a = a2a' := h .a2a
  obtain rfl : a2aCommand = a2aCommand' := h .a2aCommand
  rfl

end InFlightCounts

def A2aLivenessRole.counter : A2aLivenessRole → Counter
  | .command => .a2aCommand
  | .effect => .a2a

variable {κ μ ω : Type}

namespace EffectEvent

def contextId : EffectEvent κ μ → κ
  | .toolStarted contextId _ | .toolCompleted contextId _ | .llmStarted contextId _
  | .llmCompleted contextId _ | .a2aStarted contextId _ _ | .a2aCompleted contextId _ _
  | .intentResolved contextId _ | .planGenerated contextId _ | .planStepStatusChanged contextId _
  | .toolStreamChunk contextId _ | .toolSessionStep contextId _ | .contextHistorySettled contextId _ =>
      contextId

/-- What the bus does to the counters of the context of an event. -/
def count : EffectEvent κ μ → InFlightCounts → InFlightCounts
  | .toolStarted _ _, n => n.started .tool
  | .llmStarted _ _, n => n.started .llm
  | .a2aStarted _ livenessRole _, n => n.started livenessRole.counter
  | .toolCompleted _ _, n => n.completed .tool
  | .llmCompleted _ _, n => n.completed .llm
  | .a2aCompleted _ livenessRole _, n => n.completed livenessRole.counter
  | .intentResolved _ _, n | .planGenerated _ _, n | .planStepStatusChanged _ _, n => n
  | .contextHistorySettled _ _, n => n
  | .toolStreamChunk _ _, n => n
  | .toolSessionStep _ _, n => n

/-- Events after which the subscribers are not told one after the other. -/
def isTiered : EffectEvent κ μ → Bool
  | .llmCompleted _ _ | .contextHistorySettled _ _ => true
  | _ => false

def starts : EffectEvent κ μ → Option Counter
  | .toolStarted _ _ => some .tool
  | .llmStarted _ _ => some .llm
  | .a2aStarted _ livenessRole _ => some livenessRole.counter
  | _ => none

/-- The counter of the effect that an event says is over. -/
def completes : EffectEvent κ μ → Option Counter
  | .toolCompleted _ _ => some .tool
  | .llmCompleted _ _ => some .llm
  | .a2aCompleted _ livenessRole _ => some livenessRole.counter
  | _ => none

theorem count_cases (e : EffectEvent κ μ) (n : InFlightCounts) :
    (∃ c, e.starts = some c ∧ e.completes = none ∧ e.count n = n.started c) ∨
    (∃ c, e.starts = none ∧ e.completes = some c ∧ e.count n = n.completed c) ∨
    (e.starts = none ∧ e.completes = none ∧ e.count n = n) := by
  cases e with
  | toolStarted | llmStarted | a2aStarted => exact .inl ⟨_, rfl, rfl, rfl⟩
  | toolCompleted | llmCompleted | a2aCompleted => exact .inr (.inl ⟨_, rfl, rfl, rfl⟩)
  | _ => exact .inr (.inr ⟨rfl, rfl, rfl⟩)

end EffectEvent

inductive EffectSubscriberTier where
  | awaitable
  | background
  deriving DecidableEq

/-- A subscriber acts on the world around the bus. -/
structure EffectSubscriber (κ μ ω : Type) where
  name : String
  tier : EffectSubscriberTier := .background
  onEffect : EffectEvent κ μ → ω → ω × Except String Unit

structure Subscriber (κ μ ω : Type) where
  onEnvelope : EffectEvent κ μ → ω → ω × Except String Unit

/-- A stream of the envelopes, until its receiver is dropped. -/
structure EnvelopeStream (κ μ : Type) where
  received : List (EffectEvent κ μ)
  closed : Bool

/-- The bus, with the world its subscribers act on, the subscribers that have been left
to run detached, and the names in the log of failed ones. -/
structure BusWithEffects (κ μ ω : Type) where
  counts : κ → Option InFlightCounts
  effectSubscribers : List (EffectSubscriber κ μ ω)
  subscribers : List (Subscriber κ μ ω)
  streams : List (EnvelopeStream κ μ)
  world : ω
  detached : List (EffectSubscriber κ μ ω × EffectEvent κ μ)
  failed : List String

namespace BusWithEffects

def inFlight (bus : BusWithEffects κ μ ω) (contextId : κ) : InFlightCounts :=
  (bus.counts contextId).getD {}

def countEffect [DecidableEq κ] (counts : κ → Option InFlightCounts) (event : EffectEvent κ μ) :
    κ → Option InFlightCounts :=
  let entry := event.count ((counts event.contextId).getD {})
  Function.update counts event.contextId (if entry.any then some entry else none)

/-- A subscriber is told of an event; its failure is logged. -/
def notify (event : EffectEvent κ μ) (bus : BusWithEffects κ μ ω) (sub : EffectSubscriber κ μ ω) :
    BusWithEffects κ μ ω :=
  let (world, res) := sub.onEffect event bus.world
  match res with
  | .ok _ => { bus with world }
  | .error _ => { bus with world, failed := bus.failed ++ [sub.name] }

def fanOut (event : EffectEvent κ μ) (bus : BusWithEffects κ μ ω) : BusWithEffects κ μ ω :=
  if event.isTiered then
    let (awaitable, background) := bus.effectSubscribers.partition (·.tier = .awaitable)
    awaitable.foldl (notify event) { bus with detached := bus.detached ++ background.map (·, event) }
  else bus.effectSubscribers.foldl (notify event) bus

def processEffect [DecidableEq κ] (bus : BusWithEffects κ μ ω) (event : EffectEvent κ μ) :
    BusWithEffects κ μ ω × Except String Unit :=
  (fanOut event { bus with counts := countEffect bus.counts event }, .ok ())

variable (event : EffectEvent κ μ) (bus : BusWithEffects κ μ ω)

theorem notify_frame (bus : BusWithEffects κ μ ω) (sub : EffectSubscriber κ μ ω) :
    (notify event bus sub).counts = bus.counts ∧ (notify event bus sub).subscribers = bus.subscribers := by
  simp only [notify]
  split <;> exact ⟨rfl, rfl⟩

theorem foldl_notify_frame (s : List (EffectSubscriber κ μ ω)) (bus : BusWithEffects κ μ ω) :
    (s.foldl (notify event) bus).counts = bus.counts ∧
      (s.foldl (notify event) bus).subscribers = bus.subscribers := by
  induction s generalizing bus with
  | nil => exact ⟨rfl, rfl⟩
  | cons sub s ih =>
    obtain ⟨hc, hs⟩ := notify_frame event bus sub
    rw [List.foldl_cons, (ih _).1, (ih _).2]
    exact ⟨hc, hs⟩

theorem fanOut_frame (bus : BusWithEffects κ μ ω) :
    (fanOut event bus).counts = bus.counts ∧ (fanOut event bus).subscribers = bus.subscribers := by
  unfold fanOut
  split
  all_goals exact foldl_notify_frame event _ _

variable [DecidableEq κ]

theorem counts_processEffect (event : EffectEvent κ μ) :
    (bus.processEffect event).1.counts = countEffect bus.counts event := by
  rw [processEffect, (fanOut_frame event _).1]

theorem inFlight_processEffect (event : EffectEvent κ μ) (contextId : κ) :
    (bus.processEffect event).1.inFlight contextId =
      if contextId = event.contextId then event.count (bus.inFlight contextId)
      else bus.inFlight contextId := by
  simp only [inFlight, counts_processEffect, countEffect]
  by_cases hc : contextId = event.contextId
  · subst hc
    simp only [Function.update_self]
    split_ifs with ha
    · rfl
    · rw [any_iff, not_exists] at ha
      refine ext_get fun c => ?_
      rw [not_not.mp (ha c)]
      cases c <;> rfl
  · rw [Function.update_of_ne hc, if_neg hc]

theorem inFlight_of_informational (event : EffectEvent κ μ) (hs : event.starts = none)
    (hco : event.completes = none) (contextId : κ) :
    (bus.processEffect event).1.inFlight contextId = bus.inFlight contextId := by
  rw [inFlight_processEffect]
  split_ifs
  · rcases event.count_cases (bus.inFlight contextId) with ⟨c, hc, -⟩ | ⟨c, -, hc, -⟩ | ⟨-, -, h⟩
    · rw [hs] at hc
      cases hc
    · rw [hco] at hc
      cases hc
    · exact h
  · rfl

/-- Every entry of the map has something in flight. -/
def NoIdleEntry (bus : BusWithEffects κ μ ω) : Prop :=
  ∀ contextId, (bus.counts contextId).isSome ↔ ∃ c, (bus.inFlight contextId).get c ≠ 0

theorem NoIdleEntry.processEffect {bus : BusWithEffects κ μ ω} (h : NoIdleEntry bus)
    (event : EffectEvent κ μ) : NoIdleEntry (bus.processEffect event).1 := by
  intro contextId
  by_cases hct : contextId = event.contextId
  · subst hct
    simp only [inFlight, counts_processEffect, countEffect, Function.update_self]
    split_ifs with ha
    · simpa using (any_iff _).mp ha
    · refine ⟨nofun, ?_⟩
      rintro ⟨c, hc⟩
      cases c <;> exact absurd rfl hc
  · rw [inFlight_processEffect, if_neg hct, counts_processEffect, countEffect, Function.update_of_ne hct]
    exact h contextId

end BusWithEffects

open BusWithEffects

variable [DecidableEq κ]

/-- How many effects of a counter the events start in a context. -/
def starts (events : List (EffectEvent κ μ)) (contextId : κ) (c : Counter) : ℕ :=
  events.countP fun e => e.contextId = contextId ∧ e.starts = some c

def completions (events : List (EffectEvent κ μ)) (contextId : κ) (c : Counter) : ℕ :=
  events.countP fun e => e.contextId = contextId ∧ e.completes = some c

/-- At no time have more effects been completed than started, or are there more of them
outstanding than a counter can tell. -/
def WellPaired (events : List (EffectEvent κ μ)) : Prop :=
  ∀ sofar, sofar <+: events → ∀ contextId c, completions sofar contextId c ≤ starts sofar contextId c ∧
    starts sofar contextId c - completions sofar contextId c < 2 ^ 32

theorem starts_concat (ev : List (EffectEvent κ μ)) (e : EffectEvent κ μ) (ci : κ) (c : Counter) :
    starts (ev ++ [e]) ci c = starts ev ci c + if e.contextId = ci ∧ e.starts = some c then 1 else 0 := by
  simp [starts]

theorem completions_concat (ev : List (EffectEvent κ μ)) (e : EffectEvent κ μ) (ci : κ)
    (c : Counter) : completions (ev ++ [e]) ci c =
      completions ev ci c + if e.contextId = ci ∧ e.completes = some c then 1 else 0 := by
  simp [completions]

def Counted (bus : BusWithEffects κ μ ω) (events : List (EffectEvent κ μ)) : Prop :=
  ∀ contextId c, (bus.inFlight contextId).get c = starts events contextId c - completions events contextId c

/-- One event, when the counter it moves neither overflows nor runs below zero. -/
theorem Counted.processEffect {bus : BusWithEffects κ μ ω} {ev : List (EffectEvent κ μ)}
    (h : Counted bus ev) (e : EffectEvent κ μ)
    (hp : ∀ contextId c, completions ev contextId c ≤ starts ev contextId c)
    (hp' : ∀ contextId c, completions (ev ++ [e]) contextId c ≤ starts (ev ++ [e]) contextId c ∧
      starts (ev ++ [e]) contextId c - completions (ev ++ [e]) contextId c < 2 ^ 32) :
    Counted (bus.processEffect e).1 (ev ++ [e]) := by
  intro contextId c
  have ho := h contextId c
  have hle := hp contextId c
  have hn := hp' contextId c
  rw [starts_concat, completions_concat] at hn ⊢
  rw [inFlight_processEffect]
  by_cases hct : contextId = e.contextId
  · subst hct
    rw [if_pos rfl]
    rcases e.count_cases (bus.inFlight e.contextId) with
      ⟨d, hs, hc, hco⟩ | ⟨d, hs, hc, hco⟩ | ⟨hs, hc, hco⟩
    · rw [hs, hc] at hn ⊢
      rw [hco, started, get_modify]
      by_cases hcd : c = d
      · subst hcd
        simp [Word.saturatingAdd, Word.maxValue] at ho hn ⊢
        omega
      · simpa [hcd, Ne.symm hcd] using ho
    · rw [hs, hc] at hn ⊢
      rw [hco, completed, get_modify]
      by_cases hcd : c = d
      · subst hcd
        simp at ho hn ⊢
        omega
      · simpa [hcd, Ne.symm hcd] using ho
    · simpa [hs, hc, hco] using ho
  · rw [if_neg hct]
    simp only [Ne.symm hct]
    exact ho

/-- The bus after the events, one after the other. -/
def processAll (bus : BusWithEffects κ μ ω) (events : List (EffectEvent κ μ)) : BusWithEffects κ μ ω :=
  Run.exec BusWithEffects.processEffect bus events

theorem processAll_counted (bus : BusWithEffects κ μ ω) (hbu : ∀ contextId, bus.counts contextId = none)
    (events : List (EffectEvent κ μ)) (hp : WellPaired events) :
    Counted (processAll bus events) events := by
  induction events using List.reverseRecOn with
  | nil =>
    intro contextId c
    simp only [processAll, Run.exec_nil, inFlight, hbu]
    cases c <;> rfl
  | append_singleton events e ih =>
    have hb : WellPaired events := fun s hs =>
      hp s (hs.trans (List.prefix_append _ _))
    rw [processAll, Run.exec_concat]
    exact (ih hb).processEffect e (fun contextId c => (hb events List.prefix_rfl contextId c).1)
      (hp _ List.prefix_rfl)

theorem processAll_noIdleEntry (bus : BusWithEffects κ μ ω)
    (hb : ∀ contextId, bus.counts contextId = none) (e : List (EffectEvent κ μ)) :
    NoIdleEntry (processAll bus e) := by
  refine Run.exec_invariant BusWithEffects.processEffect NoIdleEntry
    (fun _ event h => h.processEffect event) bus (fun contextId => ?_) e
  simp only [inFlight, hb]
  refine ⟨nofun, ?_⟩
  rintro ⟨c, hc⟩
  cases c <;> exact absurd rfl hc

/-- Over every sequence of events in which completions follow their starts, the bus counts
for every context what was started and is not completed, events that are neither leave
the counters alone, and a context has an entry exactly while something is in flight. -/
theorem in_flight_counts_exact (bus : BusWithEffects κ μ ω)
    (hbus : ∀ contextId, bus.counts contextId = none) (events : List (EffectEvent κ μ))
    (hpaired : WellPaired events) :
    (∀ contextId c, ((processAll bus events).inFlight contextId).get c =
      starts events contextId c - completions events contextId c) ∧
    (∀ sofar e rest, events = sofar ++ e :: rest → e.starts = none → e.completes = none →
      (processAll bus (sofar ++ [e])).inFlight = (processAll bus sofar).inFlight) ∧
    (∀ contextId, ((processAll bus events).counts contextId).isSome ↔
      ∃ c, ((processAll bus events).inFlight contextId).get c ≠ 0) := by
  refine ⟨processAll_counted bus hbus events hpaired, fun sofar e _ _ hs hc => ?_,
    processAll_noIdleEntry bus hbus events⟩
  funext contextId
  rw [processAll, Run.exec_concat]
  exact inFlight_of_informational _ e hs hc contextId

/-- A bus without subscribers, where nothing has happened. -/
def newBus : BusWithEffects κ μ Unit := ⟨fun _ => none, [], [], [], (), [], []⟩

/-- A tool call of one context around a planning event of another. -/
def toolCall : List (EffectEvent ℕ Unit) :=
  [.toolStarted 1 (), .planGenerated 2 (), .toolStarted 1 (), .toolCompleted 1 ()]

theorem toolCall_counts_exact : ((processAll newBus toolCall).counts 2).isSome = false ∧
    ((processAll newBus toolCall).inFlight 1).get .tool =
      starts toolCall 1 .tool - completions toolCall 1 .tool := by
  refine ⟨by decide, (in_flight_counts_exact newBus (fun _ => rfl) toolCall ?_).1 1 .tool⟩
  intro sofar hs contextId c
  simp only [toolCall, List.prefix_cons_iff, List.prefix_nil] at hs
  rcases hs with rfl | ⟨_, rfl, rfl | ⟨_, rfl, rfl | ⟨_, rfl, rfl | ⟨_, rfl, rfl⟩⟩⟩⟩ <;>
    simp [starts, completions, List.countP_cons, EffectEvent.contextId, EffectEvent.starts,
      EffectEvent.completes] <;> split_ifs <;> omega

end AgentiumOs.Bus
