import AgentiumOs.Lib.Run
import AgentiumOs.Events.Delivery

/-! The poll cycle of the event dispatcher: every registered producer is polled
from its checkpoint, its events are delivered in order, and the checkpoint moves
when the batch was delivered cleanly. A checkpoint is what the producer resumes
from, so a checkpoint that moved too early loses events. -/

namespace AgentiumOs.Events

open Lib List

structure EventProducer where
  producerKey : String
  sourceKinds : List EventSourceKind
  deriving DecidableEq

/-- The producers in the order they registered, each with a key and a checkpoint
of its own. -/
structure ProducerRegistry where
  producers : List EventProducer
  checkpoints : Finmap fun _ : String => ProducerCheckpoint
  keys_nodup : (producers.map (·.producerKey)).Nodup
  has_checkpoint : ∀ p ∈ producers, p.producerKey ∈ checkpoints
  registered : ∀ key ∈ checkpoints, key ∈ producers.map (·.producerKey)
  declares : ∀ p ∈ producers, p.sourceKinds ≠ []

open ProducerRegistry

namespace ProducerRegistry

def new : ProducerRegistry where
  producers := []
  checkpoints := ∅
  keys_nodup := by simp
  has_checkpoint := by simp
  registered := fun _ hmem => absurd hmem Finmap.notMem_empty
  declares := by simp

def checkpoint (r : ProducerRegistry) (producerKey : String) : ProducerCheckpoint :=
  (r.checkpoints.lookup producerKey).getD none

def registerWithCheckpoint (r : ProducerRegistry) (producer : EventProducer)
    (checkpoint : ProducerCheckpoint) : Except BamlRtError ProducerRegistry :=
  if hkinds : producer.sourceKinds = [] then
    .error (.invalidArgument ("producer " ++ producer.producerKey ++ " declares no source_kinds"))
  else if hkey : producer.producerKey ∈ r.checkpoints then
    .error (.invalidArgument ("producer " ++ producer.producerKey ++ " is already registered"))
  else
    .ok {
      producers := r.producers ++ [producer]
      checkpoints := r.checkpoints.insert producer.producerKey checkpoint
      keys_nodup := by
        have hfresh : ∀ p ∈ r.producers, p.producerKey ≠ producer.producerKey :=
          fun p hp heq => hkey (heq ▸ r.has_checkpoint p hp)
        simpa [List.nodup_append, r.keys_nodup] using hfresh
      has_checkpoint := by
        intro p hp
        rcases List.mem_append.mp hp with hp | hp
        · exact Finmap.mem_insert.mpr (.inr (r.has_checkpoint p hp))
        · exact Finmap.mem_insert.mpr (.inl (by rw [List.mem_singleton.mp hp]))
      registered := by
        intro key hmem
        rcases Finmap.mem_insert.mp hmem with rfl | hmem
        · simp
        · simpa using .inl (by simpa using r.registered key hmem)
      declares := by
        intro p hp
        rcases List.mem_append.mp hp with hp | hp
        · exact r.declares p hp
        · rwa [List.mem_singleton.mp hp] }

def register (r : ProducerRegistry) (producer : EventProducer) : Except BamlRtError ProducerRegistry :=
  r.registerWithCheckpoint producer none

/-- Only a registered producer advances, and only to a checkpoint with a value. -/
def advanceCheckpoint (r : ProducerRegistry) (producerKey : String) (checkpoint : ProducerCheckpoint) :
    ProducerRegistry :=
  if hkey : producerKey ∈ r.checkpoints then
    if checkpoint.isSome then
      { r with
        checkpoints := r.checkpoints.insert producerKey checkpoint
        has_checkpoint := fun p hp => Finmap.mem_insert.mpr (.inr (r.has_checkpoint p hp))
        registered := by
          intro key hmem
          rcases Finmap.mem_insert.mp hmem with rfl | hmem
          · exact r.registered key hkey
          · exact r.registered key hmem }
    else r
  else r

variable (r : ProducerRegistry) {p q : EventProducer}

theorem key_ne {b af : List EventProducer} (hp : r.producers = b ++ p :: af)
    (hq : q ∈ b ∨ q ∈ af) : p.producerKey ≠ q.producerKey := by
  have hn := r.keys_nodup
  rw [hp, map_append, map_cons, nodup_append, nodup_cons] at hn
  obtain ⟨-, ⟨ha, -⟩, hb⟩ := hn
  intro heq
  rcases hq with hq | hq
  · exact hb _ (mem_map_of_mem hq) _ mem_cons_self heq.symm
  · exact ha (heq ▸ mem_map_of_mem hq)

@[simp] theorem advanceCheckpoint_producers (key : String) (c : ProducerCheckpoint) :
    (r.advanceCheckpoint key c).producers = r.producers := by
  unfold advanceCheckpoint
  split_ifs <;> rfl

@[simp] theorem advanceCheckpoint_none (key : String) : r.advanceCheckpoint key none = r := by
  simp [advanceCheckpoint]

theorem checkpoint_advance_of_ne (c : ProducerCheckpoint) (hne : other ≠ key) :
    (r.advanceCheckpoint key c).checkpoint other = r.checkpoint other := by
  unfold advanceCheckpoint
  split_ifs
  · simp [ProducerRegistry.checkpoint, Finmap.lookup_insert_of_ne _ hne]
  · rfl
  · rfl

theorem checkpoint_advance (hp : p ∈ r.producers) (checkpoint : ProducerCheckpoint) :
    (r.advanceCheckpoint p.producerKey checkpoint).checkpoint p.producerKey =
      checkpoint.or (r.checkpoint p.producerKey) := by
  unfold advanceCheckpoint
  rw [dif_pos (r.has_checkpoint p hp)]
  cases checkpoint with
  | none => rfl
  | some value => simp [checkpoint]

end ProducerRegistry

def callbackSourceKind : String := "system/callback"

structure Dispatcher (W : Type) where
  producers : ProducerRegistry
  host : W

def Dispatcher.new {W : Type} (w : W) : Dispatcher W := ⟨.new, w⟩

def Dispatcher.checkpoint {W : Type} (d : Dispatcher W) (producerKey : String) : ProducerCheckpoint :=
  d.producers.checkpoint producerKey

/-- What the loop over the events of a batch has gathered. -/
structure Batch where
  aggregate : EventDeliveryOutcome
  blockedOnZeroSubscribers : Bool

def Batch.start : Batch := ⟨.start 0, false⟩

def Batch.add (batch : Batch) (producer : EventProducer) (outcome : EventDeliveryOutcome) : Batch where
  aggregate :=
    { subscribersMatched := batch.aggregate.subscribersMatched + outcome.subscribersMatched
      subscribersAccepted := batch.aggregate.subscribersAccepted + outcome.subscribersAccepted
      acceptances := batch.aggregate.acceptances ++ outcome.acceptances
      failures := batch.aggregate.failures ++ outcome.failures }
  blockedOnZeroSubscribers := batch.blockedOnZeroSubscribers ||
    (producer.producerKey == callbackSourceKind && outcome.subscribersMatched == 0)

/-- Only a batch delivered without failures moves the checkpoint. -/
def Batch.clean (batch : Batch) : Bool :=
  batch.aggregate.failures.isEmpty && !batch.blockedOnZeroSubscribers

variable {W : Type} (H : Host W)

def sourceKindMismatch (producer : EventProducer) (event : ProducedEvent) : BamlRtError :=
  .invalidArgument ("producer " ++ producer.producerKey ++ " declared source_kinds " ++
    H.debugTexts (producer.sourceKinds.map (·.text)) ++ " but emitted event with source_kind=" ++
    event.sourceKind.text)

/-- The loop over the events of a batch: an undeclared source kind or a hard
delivery error ends it. -/
def deliverBatch (producer : EventProducer) (w : W) (batch : Batch) :
    List ProducedEvent → W × Except BamlRtError Batch
  | [] => (w, .ok batch)
  | event :: rest =>
      if event.sourceKind ∉ producer.sourceKinds then (w, .error (sourceKindMismatch H producer event))
      else match deliverEventWithProducerKey H w event (some producer.producerKey) with
        | (w', .error err) => (w', .error err)
        | (w', .ok outcome) => deliverBatch producer w' (batch.add producer outcome) rest

def pollProducer (d : Dispatcher W) (producer : EventProducer) :
    Dispatcher W × String × Except BamlRtError EventDeliveryOutcome :=
  let key := producer.producerKey
  match H.poll d.host key (d.checkpoint key) with
  | (w, .error err) => ({ d with host := w }, key, .error err)
  | (w, .ok poll) =>
      if poll.events.isEmpty then
        (⟨d.producers.advanceCheckpoint key poll.checkpoint, w⟩, key, .ok (.start 0))
      else match deliverBatch H producer w .start poll.events with
        | (w', .error err) => ({ d with host := w' }, key, .error err)
        | (w', .ok batch) =>
            let advanced := if batch.clean then d.producers.advanceCheckpoint key poll.checkpoint
              else d.producers
            (⟨advanced, w'⟩, key, .ok batch.aggregate)

/-- One cycle over the producers registered when it starts. -/
def pollAndDeliver (d : Dispatcher W) : Dispatcher W × List (String × Except BamlRtError EventDeliveryOutcome) :=
  (Run.exec (pollProducer H) d d.producers.producers, Run.outputs (pollProducer H) d d.producers.producers)

inductive DispatcherOp where
  | registerProducer (producer : EventProducer) (checkpoint : ProducerCheckpoint)
  | pollAndDeliver

def dispatcherStep (d : Dispatcher W) :
    DispatcherOp → Dispatcher W × List (String × Except BamlRtError EventDeliveryOutcome)
  | .registerProducer producer checkpoint =>
      match d.producers.registerWithCheckpoint producer checkpoint with
      | .ok producers => ({ d with producers := producers }, [])
      | .error err => (d, [(producer.producerKey, .error err)])
  | .pollAndDeliver => pollAndDeliver H d

/-! ### What moves a checkpoint -/

/-- Each event of the batch in turn has a declared source kind, is delivered
without a subscriber failure, and has a subscriber if the producer is the
callback producer. -/
def BatchDelivered (producer : EventProducer) (w : W) : List ProducedEvent → Prop
  | [] => True
  | event :: rest =>
      (event.sourceKind ∈ producer.sourceKinds ∧ Delivered H w (some producer.producerKey) event ∧
        (producer.producerKey = callbackSourceKind → 1 ≤ (subscribers H w event).length)) ∧
      BatchDelivered producer (deliverEventWithProducerKey H w event (some producer.producerKey)).1 rest

/-- The poll of a turn succeeds with this checkpoint, and its events, if there
are any, are all delivered. -/
def Moves (d : Dispatcher W) (producer : EventProducer) (value : String) : Prop :=
  let polled := H.poll d.host producer.producerKey (d.checkpoint producer.producerKey)
  ∃ poll, polled.2 = .ok poll ∧ poll.checkpoint = some value ∧
    (poll.events = [] ∨ BatchDelivered H producer polled.1 poll.events)

theorem clean_add (b : Batch) (pr : EventProducer) (o : EventDeliveryOutcome) :
    (b.add pr o).clean = true ↔ b.clean = true ∧ o.failures = [] ∧
      (pr.producerKey = callbackSourceKind → 1 ≤ o.subscribersMatched) := by
  simp only [Batch.clean, Batch.add, Bool.and_eq_true, List.isEmpty_iff, List.append_eq_nil_iff,
    Bool.not_eq_true', Bool.or_eq_false_iff, Bool.and_eq_false_iff, beq_eq_false_iff_ne,
    Nat.one_le_iff_ne_zero]
  tauto

theorem deliverBatch_clean (pr : EventProducer) (w : W) (b : Batch) (events : List ProducedEvent) :
    (∃ done, (deliverBatch H pr w b events).2 = .ok done ∧ done.clean = true) ↔
      b.clean = true ∧ BatchDelivered H pr w events := by
  induction events generalizing w b with
  | nil => simp [deliverBatch, BatchDelivered]
  | cons event rest ih =>
    by_cases hk : event.sourceKind ∈ pr.sourceKinds
    · have hd := deliver_ok_iff H w event (some pr.producerKey)
      rw [deliverBatch, if_neg (not_not_intro hk)]
      rcases hr : deliverEventWithProducerKey H w event (some pr.producerKey) with
        ⟨w', err | outcome⟩
      · have hn : ¬ Delivered H w (some pr.producerKey) event := by
          rw [← hd, hr]
          simp
        simp [BatchDelivered, hn]
      · have hm := deliver_matched H (congrArg Prod.snd hr)
        simp only [hr, Except.ok.injEq, exists_eq_left'] at hd
        simp only [BatchDelivered, ih, clean_add, hr, hm]
        tauto
    · simp [deliverBatch, BatchDelivered, hk]

variable (d : Dispatcher W)

/-- A turn advances its own producer, to a checkpoint with a value exactly when
the turn moves it. -/
theorem pollProducer_advances (pr : EventProducer) : ∃ checkpoint : ProducerCheckpoint,
      (pollProducer H d pr).1.producers = d.producers.advanceCheckpoint pr.producerKey checkpoint ∧
      ∀ value, checkpoint = some value ↔ Moves H d pr value := by
  simp only [pollProducer, Moves]
  rcases H.poll d.host pr.producerKey (d.checkpoint pr.producerKey) with ⟨w, err | poll⟩
  · exact ⟨none, by simp, by simp⟩
  · by_cases he : poll.events = []
    · exact ⟨poll.checkpoint, by simp [he], by simp [he]⟩
    · have hc := deliverBatch_clean H pr w .start poll.events
      rw [show Batch.start.clean = true from rfl, eq_self_iff_true, true_and] at hc
      simp only [List.isEmpty_iff, he, Except.ok.injEq, exists_eq_left', ← hc]
      rcases deliverBatch H pr w .start poll.events with ⟨w', err | batch⟩
      · exact ⟨none, by simp, by simp⟩
      · by_cases hb : batch.clean = true
        · exact ⟨poll.checkpoint, by simp [hb], by simp [hb]⟩
        · exact ⟨none, by simp [hb], by simp [hb]⟩

theorem pollProducer_frame (pr : EventProducer) (hne : other ≠ pr.producerKey) :
    (pollProducer H d pr).1.checkpoint other = d.checkpoint other := by
  obtain ⟨checkpoint, ha, -⟩ := pollProducer_advances H d pr
  rw [Dispatcher.checkpoint, ha, checkpoint_advance_of_ne _ _ hne]
  rfl

theorem exec_producers (t : List EventProducer) :
    (Run.exec (pollProducer H) d t).producers.producers = d.producers.producers := by
  refine Run.exec_invariant (pollProducer H) (·.producers.producers = d.producers.producers) (fun s p hs => ?_) d rfl t
  obtain ⟨checkpoint, ha, -⟩ := pollProducer_advances H s p
  rw [ha, advanceCheckpoint_producers, hs]

theorem exec_frame (hne : ∀ p ∈ t, key ≠ p.producerKey) :
    (Run.exec (pollProducer H) d t).checkpoint key = d.checkpoint key := by
  induction t generalizing d with
  | nil => rfl
  | cons p t ih =>
    rw [Run.exec_cons, ih _ fun q hq => hne q (mem_cons_of_mem p hq),
      pollProducer_frame H d p (hne p mem_cons_self)]

variable {p : EventProducer}

theorem cycle_checkpoint {b af : List EventProducer} (hp : d.producers.producers = b ++ p :: af) :
    (pollAndDeliver H d).1.checkpoint p.producerKey =
      (pollProducer H (Run.exec (pollProducer H) d b) p).1.checkpoint p.producerKey := by
  rw [pollAndDeliver, hp, Run.exec_append]
  exact exec_frame H _ fun _ hq => d.producers.key_ne hp (.inr hq)

theorem turn_checkpoint {b af : List EventProducer} (hp : d.producers.producers = b ++ p :: af) :
    (Run.exec (pollProducer H) d b).checkpoint p.producerKey = d.checkpoint p.producerKey :=
  exec_frame H d fun _ hq => d.producers.key_ne hp (.inl hq)

/-- After any run of registrations and cycles, the next cycle moves the checkpoint
of each producer to the value its poll returned exactly when the poll succeeded
and every event of it was delivered, and otherwise leaves it; a turn leaves the
checkpoint of every other producer. -/
theorem checkpoint_moves_exactly (w : W) (ops : List DispatcherOp) (before after : List EventProducer)
    (p : EventProducer)
    (hp : (Run.exec (dispatcherStep H) (.new w) ops).producers.producers = before ++ p :: after) :
    let d := Run.exec (dispatcherStep H) (.new w) ops
    let turn := Run.exec (pollProducer H) d before
    let next := Run.exec (dispatcherStep H) (.new w) (ops ++ [.pollAndDeliver])
    turn.checkpoint p.producerKey = d.checkpoint p.producerKey ∧
    (∀ value, Moves H turn p value → next.checkpoint p.producerKey = some value) ∧
    ((∀ value, ¬ Moves H turn p value) → next.checkpoint p.producerKey = d.checkpoint p.producerKey) ∧
    ∀ other ≠ p.producerKey, (pollProducer H turn p).1.checkpoint other = turn.checkpoint other := by
  intro d turn next
  have hnx : next.checkpoint p.producerKey = (pollProducer H turn p).1.checkpoint p.producerKey := by
    have hl : next = (pollAndDeliver H d).1 := Run.exec_concat _ _ _ _
    rw [hl, cycle_checkpoint H d hp]
  have hmem : p ∈ turn.producers.producers := by
    rw [exec_producers, hp]
    simp
  obtain ⟨checkpoint, ha, hm⟩ := pollProducer_advances H turn p
  have h : next.checkpoint p.producerKey = checkpoint.or (d.checkpoint p.producerKey) := by
    rw [hnx, Dispatcher.checkpoint, ha, checkpoint_advance _ hmem]
    exact congrArg _ (turn_checkpoint H d hp)
  refine ⟨turn_checkpoint H d hp, ?_, ?_, fun other hne => pollProducer_frame H turn p hne⟩
  · intro value hv
    rw [h, (hm value).mpr hv]
    rfl
  · intro hn
    cases checkpoint with
    | none => exact h
    | some value => exact absurd ((hm value).mp rfl) (hn value)

/-! ### A producer with one subscriber -/

def slackProducer : EventProducer := ⟨"slack", [⟨"slack"⟩]⟩

def slackEvent : ProducedEvent where
  routingKey := ⟨"slack:intake"⟩
  schemaVersion := ⟨"host.source-records.v1"⟩
  sourceKind := ⟨"slack"⟩
  sourceKey := ⟨"slack:C123"⟩
  messages := []
  contextId := none
  taskId := none
  messageId := some "m1"
  producerKey := none
  metadata := none

/-- One agent, which takes every event of its source; every poll finds one event. -/
def slackHost : Host Unit where
  listAgents _ := [⟨"triage", "default", [⟨[], [⟨"slack"⟩], [], []⟩]⟩]
  handleDispatch _ _ _ := ((), .ok ⟨true, none⟩)
  recorder := none
  deployedAgentLookup := none
  poll _ _ _ := ((), .ok ⟨[slackEvent], some "C123:1"⟩)
  stableExternalId _ parts := ":".intercalate parts
  debugTexts texts := ", ".intercalate texts

theorem slack_checkpoint_moves : (Run.exec (dispatcherStep slackHost) (.new ())
      [.registerProducer slackProducer none, .pollAndDeliver]).checkpoint "slack" = some "C123:1" := by
  have hr : subscribers slackHost () slackEvent = [⟨⟨"triage"⟩, ⟨"default"⟩⟩] := by decide +kernel
  refine (checkpoint_moves_exactly slackHost () [.registerProducer slackProducer none] [] []
    slackProducer rfl).2.1 "C123:1" ⟨⟨[slackEvent], some "C123:1"⟩, rfl, rfl, .inr ?_⟩
  refine ⟨⟨mem_singleton.mpr rfl, ⟨rfl, ?_⟩, by simp [hr]⟩, trivial⟩
  rw [hr]
  exact ⟨⟨⟨true, none⟩, rfl, rfl⟩, trivial⟩

end AgentiumOs.Events
