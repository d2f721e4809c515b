import AgentiumOs.Lib.Cooperative
import AgentiumOs.Events.Runner

/-! A producer that reads its events from a store of the runner. Every call of a
delivery, every other producer and every other task may call the store too. The
checkpoint of the producer lists the identifiers of a batch, and the poll after
the batch was delivered acknowledges them in the store. -/

namespace AgentiumOs.Events

open Lib Lib.Fallible Lib.Cooperative

variable {σ E C : Type}

/-- What surrounds the store: each call answers, and meanwhile the store is called. -/
structure Neighbours (E C : Type) where
  listAgents : E → List AgentDiscoveryEntry
  handleDispatch : E → AgentRouteKey → AgentDispatchRequest → Meanwhile E C (Except BamlRtError AgentDispatchAck)
  hasRecorder : Bool
  recordSourcePoll : E → ProducedEvent → Meanwhile E C (Except BamlRtError Unit)
  recordDispatchRejected : E → AgentDispatchRequest → AgentRouteKey → Option String → String →
    Meanwhile E C (Except BamlRtError Unit)
  deployedAgentLookup : Option (E → AgentRouteKey → Option String)
  poll : E → String → ProducerCheckpoint → Meanwhile E C (Except BamlRtError ProducerPoll)
  saveCheckpoint : E → String → String → Meanwhile E C Bool
  reboot : E → E
  stableExternalId : String → List String → String
  debugTexts : List String → String

/-- Neighbours that accept every dispatch and log the ids of its messages, and do nothing else. -/
def Neighbours.logging {C : Type} (agents : List AgentDiscoveryEntry) : Neighbours (List (Option String)) C where
  listAgents _ := agents
  handleDispatch log _ request := (log ++ [request.messageId], [], .ok ⟨true, none⟩)
  hasRecorder := false
  recordSourcePoll log _ := (log, [], .ok ())
  recordDispatchRejected log _ _ _ _ := (log, [], .ok ())
  deployedAgentLookup := none
  poll log _ _ := (log, [], .ok ⟨[], none⟩)
  saveCheckpoint log _ _ := (log, [], true)
  reboot log := log
  stableExternalId _ parts := ":".intercalate parts
  debugTexts texts := ", ".intercalate texts

inductive Activity (E C : Type) where
  | call (call : C)
  | env (env : E)

structure StorePoller (σ E C : Type) where
  call : σ → C → σ
  key : String
  poll : ProducerCheckpoint → Program BamlRtError (World σ E) ProducerPoll
  /-- What opening the database does to the store. -/
  reopen : σ → σ

namespace StorePoller

variable (P : StorePoller σ E C) (N : Neighbours E C)

def away {α : Type} (w : World σ E) (m : Meanwhile E C α) : World σ E × α :=
  (interrupted P.call w m, m.2.2)

def pollByKey (w : World σ E) (key : String) (checkpoint : ProducerCheckpoint) :
    World σ E × Except BamlRtError ProducerPoll :=
  if key = P.key then ((runOn (P.poll checkpoint) w).2, (runOn (P.poll checkpoint) w).1)
  else P.away w (N.poll w.env key checkpoint)

def recorder : HostIngressRecorder (World σ E) where
  recordSourcePoll w event := P.away w (N.recordSourcePoll w.env event)
  recordDispatchRejected w request route agentId detail :=
    P.away w (N.recordDispatchRejected w.env request route agentId detail)

def deployment : Deployment (World σ E) (Activity E C) where
  host :=
    { listAgents := fun w => N.listAgents w.env
      handleDispatch := fun w target request => P.away w (N.handleDispatch w.env target request)
      recorder := if N.hasRecorder then some (P.recorder N) else none
      deployedAgentLookup := N.deployedAgentLookup.map fun lookup w => lookup w.env
      poll := P.pollByKey N
      stableExternalId := N.stableExternalId
      debugTexts := N.debugTexts }
  saveCheckpoint w key value := P.away w (N.saveCheckpoint w.env key value)
  reopen w := ⟨P.reopen w.store, N.reboot w.env⟩
  act w
    | .call call => ⟨P.call w.store call, w.env⟩
    | .env env => ⟨w.store, env⟩

def storeOf (r : Runner (World σ E)) : σ := r.dispatcher.host.store

/-- The next cycle of the runner polls this batch, in this turn of the producer. -/
def Polls (r : Runner (World σ E)) (p : EventProducer) (turn : Dispatcher (World σ E))
    (polled : ProducerPoll) (w' : World σ E) : Prop :=
  p.producerKey = P.key ∧ IsTurn (P.deployment N).host r.dispatcher p turn ∧
    runOn (P.poll (r.dispatcher.checkpoint P.key)) turn.host = (.ok polled, w')

/-- Every call of the store moves it along a relation. -/
structure Along (R : σ → σ → Prop) : Prop where
  refl : ∀ s, R s s
  trans : ∀ s t u, R s t → R t u → R s u
  call : ∀ s c, R s (P.call s c)

variable {P N} {R : σ → σ → Prop}

namespace Along

variable (h : P.Along R)

include h

theorem away (w : World σ E) (m : Meanwhile E C α) : R w.store (P.away w m).1.store :=
  rel_interrupted h.refl h.trans h.call w m

theorem host : (P.deployment N).host.Follows fun w w' => R w.store w'.store where
  refl w := h.refl w.store
  trans w w' w'' := h.trans w.store w'.store w''.store
  dispatch w _ _ := h.away w _
  source recorder hr w event := by
    simp only [deployment, Option.ite_none_right_eq_some, Option.some.injEq] at hr
    obtain ⟨-, rfl⟩ := hr
    exact h.away w _
  rejected recorder hr w request route agentId detail := by
    simp only [deployment, Option.ite_none_right_eq_some, Option.some.injEq] at hr
    obtain ⟨-, rfl⟩ := hr
    exact h.away w _

variable {p : EventProducer} {r : Runner (World σ E)} {turn d : Dispatcher (World σ E)}

theorem other_turn (d : Dispatcher (World σ E)) (hp : p.producerKey ≠ P.key) :
    R d.host.store (pollProducer (P.deployment N).host d p).1.host.store := by
  have hpo : R d.host.store
      ((P.deployment N).host.poll d.host p.producerKey (d.checkpoint p.producerKey)).1.store := by
    simp only [deployment, pollByKey, if_neg hp]
    exact h.away d.host _
  exact h.trans _ _ _ hpo (h.host.pollProducer d p)

theorem other_turns (d : Dispatcher (World σ E)) (ht : ∀ p ∈ t, p.producerKey ≠ P.key) :
    R d.host.store (Run.exec (pollProducer (P.deployment N).host) d t).host.store := by
  induction t generalizing d with
  | nil => exact h.refl _
  | cons p t ih =>
    exact h.trans _ _ _ (h.other_turn d (ht p List.mem_cons_self))
      (ih _ fun q hq => ht q (List.mem_cons_of_mem p hq))

theorem saving (r : Runner (World σ E)) :
    R (pollAndDeliver (P.deployment N).host r.dispatcher).1.host.store
      (storeOf (runEventPollCycle (P.deployment N) r)) := by
  have hs := persistResults_follows (R := fun w w' => R w.store w'.store) (P.deployment N)
    (fun w => h.refl w.store) (fun w w' w'' => h.trans w.store w'.store w''.store) (fun w _ _ => h.away w _)
    { r with dispatcher := (pollAndDeliver (P.deployment N).host r.dispatcher).1 }
    (pollAndDeliver (P.deployment N).host r.dispatcher).2
  exact hs

theorem cycle_unregistered (hr : ∀ p ∈ r.dispatcher.producers.producers, p.producerKey ≠ P.key) :
    R (storeOf r) (storeOf (runEventPollCycle (P.deployment N) r)) :=
  h.trans _ _ _ (h.other_turns r.dispatcher hr) (h.saving r)

theorem before_turn (hp : p.producerKey = P.key)
    (ht : IsTurn (P.deployment N).host d p turn) : R d.host.store turn.host.store := by
  obtain ⟨before, after, hs, rfl⟩ := ht
  refine h.other_turns d fun q hq => ?_
  rw [← hp]
  exact (d.producers.key_ne hs (.inl hq)).symm

theorem after_turn (hp : p.producerKey = P.key) (ht : IsTurn (P.deployment N).host r.dispatcher p turn) :
    R (runOn (P.poll (r.dispatcher.checkpoint P.key)) turn.host).2.store
      (storeOf (runEventPollCycle (P.deployment N) r)) := by
  have hc := ht.checkpoint
  obtain ⟨b, after, hs, rfl⟩ := ht
  have ho := (h.host (N := N)).pollProducer (Run.exec (pollProducer (P.deployment N).host) r.dispatcher b) p
  rw [hc, hp] at ho
  simp only [deployment, pollByKey] at ho
  refine h.trans _ _ _ ho (h.trans _ _ _ ?_ (h.saving r))
  unfold pollAndDeliver
  rw [hs, Run.exec_append]
  refine h.other_turns _ fun q hq => ?_
  rw [← hp]
  exact (r.dispatcher.producers.key_ne hs (.inr hq)).symm

end Along

/-! ### What stays true of the store -/

/-- A property of the store that calls, polls and reopening keep. -/
structure Keeps (P : StorePoller σ E C) (valid : σ → Prop) (R : σ → σ → Prop) (Q : σ → Prop) : Prop where
  follows : ∀ s s', valid s → R s s' → Q s → Q s'
  poll : ∀ checkpoint (w : World σ E), valid w.store → Q w.store → Q (runOn (P.poll checkpoint) w).2.store
  reopen : ∀ s, valid s → Q s → Q (P.reopen s)

variable {r : Runner (World σ E)} {valid : σ → Prop} {Q : σ → Prop}

theorem Keeps.cycle (ha : P.Along R) (hv : P.Keeps (fun _ => True) R valid)
    (hf : ∀ s s', valid s → R s s' → Q s → Q s')
    (hpo : ∀ checkpoint (w : World σ E), valid w.store → Q w.store → Q (runOn (P.poll checkpoint) w).2.store)
    (hr : valid (storeOf r)) (hQ : Q (storeOf r)) : Q (storeOf (runEventPollCycle (P.deployment N) r)) := by
  by_cases hre : ∃ p ∈ r.dispatcher.producers.producers, p.producerKey = P.key
  · obtain ⟨p, hp, hk⟩ := hre
    obtain ⟨turn, ht⟩ := exists_isTurn (P.deployment N).host hp
    have hb := ha.before_turn hk ht
    have hvt := hv.follows _ _ trivial hb hr
    exact hf _ _ (hv.poll _ _ trivial hvt) (ha.after_turn hk ht) (hpo _ _ hvt (hf _ _ hr hb hQ))
  · exact hf _ _ hr (ha.cycle_unregistered fun p hp hk => hre ⟨p, hp, hk⟩) hQ

theorem Keeps.step (ha : P.Along R) (hv : P.Keeps (fun _ => True) R valid) (hk : P.Keeps valid R Q)
    (r : Runner (World σ E)) (op : RunnerOp (Activity E C)) (hr : valid (storeOf r)) (hQ : Q (storeOf r)) :
    Q (storeOf (runnerStep (P.deployment N) r op).1) := by
  cases op with
  | outside ac =>
    cases ac with
    | call call => exact hk.follows _ _ hr (ha.call _ call) hQ
    | env env => exact hQ
  | cycle => exact Keeps.cycle ha hv hk.follows hk.poll hr hQ
  | restart pr => exact hk.reopen _ hr hQ

theorem Keeps.run_valid (ha : P.Along R) (hv : P.Keeps (fun _ => True) R valid) (hr : valid (storeOf r))
    (ops : List (RunnerOp (Activity E C))) : valid (storeOf (Run.exec (runnerStep (P.deployment N)) r ops)) := by
  have ht : P.Keeps (fun _ => True) R fun _ => True :=
    ⟨fun _ _ _ _ _ => trivial, fun _ _ _ _ => trivial, fun _ _ _ => trivial⟩
  exact Run.exec_invariant _ (fun r => valid (storeOf r))
    (fun r op hr => Keeps.step ha ht hv r op trivial hr) r hr ops

theorem Keeps.run {valid Q : σ → Prop} (ha : P.Along R) (hv : P.Keeps (fun _ => True) R valid)
    (hk : P.Keeps valid R Q) (hr : valid (storeOf r)) (hQ : Q (storeOf r))
    (ops : List (RunnerOp (Activity E C))) : Q (storeOf (Run.exec (runnerStep (P.deployment N)) r ops)) := by
  induction ops generalizing r with
  | nil => exact hQ
  | cons op ops ih =>
    exact ih (Keeps.run_valid ha hv hr [op]) (Keeps.step ha hv hk r op hr hQ)

/-- What a store records about the identifiers of its producer. An identifier is
known when the store has it, done when it was acknowledged, and closed when no
poll can put it into a batch any more. -/
structure Ledger (σ : Type) where
  valid : σ → Prop
  follows : σ → σ → Prop
  known : σ → String → Prop
  closed : σ → String → Prop
  done : σ → String → Prop
  ids : ProducerCheckpoint → List String
  inBatch : String → ProducerPoll → Prop

structure Acknowledges (P : StorePoller σ E C) (L : Ledger σ) : Prop where
  along : P.Along L.follows
  keeps_valid : P.Keeps (fun _ => True) L.follows L.valid
  known_follows : ∀ id s s', L.valid s → L.follows s s' → L.known s id → L.known s' id
  known_poll : ∀ id checkpoint (w : World σ E), L.valid w.store → L.known w.store id →
    L.known (runOn (P.poll checkpoint) w).2.store id
  keeps_closed : ∀ id, P.Keeps L.valid L.follows (L.closed · id)
  done_follows : ∀ id s s', L.valid s → L.follows s s' → L.done s' id → L.done s id
  done_poll : ∀ id checkpoint (w : World σ E), L.valid w.store →
    L.done (runOn (P.poll checkpoint) w).2.store id → L.done w.store id ∨ id ∈ L.ids checkpoint
  done_reopen : ∀ id s, L.done (P.reopen s) id → L.done s id
  ids_none : L.ids none = []
  lists : ∀ checkpoint (w w' : World σ E) polled, L.valid w.store →
    runOn (P.poll checkpoint) w = (.ok polled, w') → ∀ id, id ∈ L.ids polled.checkpoint ↔ L.inBatch id polled
  batch : ∀ checkpoint (w w' : World σ E) polled, L.valid w.store →
    runOn (P.poll checkpoint) w = (.ok polled, w') → ∀ id, L.inBatch id polled →
      L.known w'.store id ∧ ¬ L.closed w.store id ∧ (L.known w.store id → id ∉ L.ids checkpoint)
  settles : ∀ checkpoint (w w' : World σ E) polled, L.valid w.store →
    runOn (P.poll checkpoint) w = (.ok polled, w') → ∀ id ∈ L.ids checkpoint, L.known w.store id →
      L.closed w'.store id

variable {L : Ledger σ}

variable (P N) in
/-- The next cycle polls a batch with the identifier, and every event of it is delivered. -/
def CleanCycle (inBatch : String → ProducerPoll → Prop) (r : Runner (World σ E)) (id : String) : Prop :=
  ∃ p turn polled w', P.Polls N r p turn polled w' ∧ inBatch id polled ∧
    BatchDelivered (P.deployment N).host p w' polled.events

theorem poll_deployment (turn : Dispatcher (World σ E)) (c : ProducerCheckpoint) :
    (P.deployment N).host.poll turn.host P.key c =
      ((runOn (P.poll c) turn.host).2, (runOn (P.poll c) turn.host).1) :=
  if_pos rfl

namespace Acknowledges

variable (h : P.Acknowledges L)

include h

theorem valid_run {r : Runner (World σ E)} (hr : L.valid (storeOf r)) (ops : List (RunnerOp (Activity E C))) :
    L.valid (storeOf (Run.exec (runnerStep (P.deployment N)) r ops)) :=
  Keeps.run_valid h.along h.keeps_valid hr ops

variable {id value : String} {r : Runner (World σ E)}

/-- A cycle that moved the checkpoint to a list with the identifier was clean and
had it in its batch. -/
theorem cleanCycle_of_moves (hr : L.valid (storeOf r)) (hid : id ∈ L.ids (some value))
    (hm : CycleMoves (P.deployment N) r P.key value) : P.CleanCycle N L.inBatch r id := by
  obtain ⟨p, turn, hk, ht, polled, hp, hv, hd⟩ := hm
  rw [ht.checkpoint, hk, poll_deployment] at hp
  rw [ht.checkpoint, hk, poll_deployment] at hd
  have hru : runOn (P.poll (r.dispatcher.checkpoint P.key)) turn.host =
      (.ok polled, (runOn (P.poll (r.dispatcher.checkpoint P.key)) turn.host).2) :=
    Prod.ext hp rfl
  have hb : L.inBatch id polled := by
    have hva := h.keeps_valid.follows _ _ trivial (h.along.before_turn hk ht) hr
    rw [← h.lists _ _ _ _ hva hru, hv]
    exact hid
  refine ⟨p, turn, polled, _, ⟨hk, ht, hru⟩, hb, ?_⟩
  rcases hd with he | hd
  · -- a batch without events counts as delivered
    rw [he]
    exact trivial
  · exact hd

variable (w : World σ E)

/-- What a step acknowledges was in the batch of an earlier clean cycle. -/
theorem done_step (hw : L.valid w.store) (ops : List (RunnerOp (Activity E C))) (op : RunnerOp (Activity E C))
    (hd : L.done (storeOf (Run.exec (runnerStep (P.deployment N)) (.new w) (ops ++ [op]))) id) :
    L.done (storeOf (Run.exec (runnerStep (P.deployment N)) (.new w) ops)) id ∨
      Run.Occurs (runnerStep (P.deployment N)) (.new w) ops fun r op =>
        op = .cycle ∧ P.CleanCycle N L.inBatch r id := by
  have hv : ∀ ops, L.valid (storeOf (Run.exec (runnerStep (P.deployment N)) (.new w) ops)) :=
    h.valid_run (r := .new w) hw
  rw [Run.exec_concat] at hd
  set r := Run.exec (runnerStep (P.deployment N)) (.new w) ops with hr
  cases op with
  | outside ac =>
    cases ac with
    | call call => exact .inl (h.done_follows _ _ _ (hv ops) (h.along.call _ call) hd)
    | env env => exact .inl hd
  | restart pr => exact .inl (h.done_reopen _ _ hd)
  | cycle =>
    by_cases hre : ∃ p ∈ r.dispatcher.producers.producers, p.producerKey = P.key
    · obtain ⟨p, hp, hk⟩ := hre
      obtain ⟨turn, ht⟩ := exists_isTurn (P.deployment N).host hp
      have hb := h.along.before_turn hk ht
      have hvt := h.keeps_valid.follows _ _ trivial hb (hv ops)
      have hpo := h.done_follows _ _ _ (h.keeps_valid.poll _ _ trivial hvt) (h.along.after_turn hk ht) hd
      rcases h.done_poll _ _ _ hvt hpo with ho | hid
      · exact .inl (h.done_follows _ _ _ (hv ops) hb ho)
      · -- the checkpoint that lists the identifier was moved to by an earlier cycle
        cases hva : r.dispatcher.checkpoint P.key with
        | none =>
          rw [hva, h.ids_none] at hid
          cases hid
        | some value =>
          rw [hva] at hid
          obtain ⟨pre, op, post, rfl, hop, hm⟩ :=
            (checkpoint_origin (P.deployment N) w ops P.key value).1 hva
          exact .inr ⟨pre, op, post, rfl, hop, h.cleanCycle_of_moves (hv pre) hid hm⟩
    · exact .inl (h.done_follows _ _ _ (hv ops) (h.along.cycle_unregistered fun p hp hk => hre ⟨p, hp, hk⟩) hd)

theorem done_run (hw : L.valid w.store) (hs : ¬ L.done w.store id) (ops : List (RunnerOp (Activity E C)))
    (hd : L.done (storeOf (Run.exec (runnerStep (P.deployment N)) (.new w) ops)) id) :
    Run.Occurs (runnerStep (P.deployment N)) (.new w) ops fun r op =>
      op = .cycle ∧ P.CleanCycle N L.inBatch r id := by
  induction ops using List.reverseRecOn with
  | nil => exact absurd hd hs
  | append_singleton ops op ih =>
    rcases h.done_step w hw ops op hd with ho | hc
    · exact (ih ho).concat _
    · exact hc.concat _

theorem done_after_clean (hw : L.valid w.store) (hs : ¬ L.done w.store id)
    (ops : List (RunnerOp (Activity E C))) (op : RunnerOp (Activity E C))
    (hd : L.done (storeOf (Run.exec (runnerStep (P.deployment N)) (.new w) (ops ++ [op]))) id) :
    Run.Occurs (runnerStep (P.deployment N)) (.new w) ops fun r op =>
      op = .cycle ∧ P.CleanCycle N L.inBatch r id := by
  rcases h.done_step w hw ops op hd with ho | hc
  · exact h.done_run w hw hs ops ho
  · exact hc

/-! ### No second delivery without a restart -/

variable (P L) in
omit h in
/-- The store has closed the identifier, or the checkpoint lists it. -/
def Settled (id : String) (r : Runner (World σ E)) : Prop :=
  L.closed (storeOf r) id ∨ L.known (storeOf r) id ∧ id ∈ L.ids (r.dispatcher.checkpoint P.key)

omit h in
theorem checkpoint_runEventPollCycle (r : Runner (World σ E)) (key : String) :
    (runEventPollCycle (P.deployment N) r).dispatcher.checkpoint key =
      (pollAndDeliver (P.deployment N).host r.dispatcher).1.checkpoint key := by
  simp only [runEventPollCycle, Dispatcher.checkpoint, persistResults_producers]

theorem known_cycle {r : Runner (World σ E)} (hr : L.valid (storeOf r))
    (hk : L.known (storeOf r) id) : L.known (storeOf (runEventPollCycle (P.deployment N) r)) id :=
  Keeps.cycle h.along h.keeps_valid (h.known_follows id) (h.known_poll id) hr hk

theorem known_of_clean (hr : L.valid (storeOf r)) (hc : P.CleanCycle N L.inBatch r id) :
    L.known (storeOf (runEventPollCycle (P.deployment N) r)) id := by
  obtain ⟨p, turn, polled, w', ⟨hk, ht, hru⟩, hb, -⟩ := hc
  have hv := h.keeps_valid.follows _ _ trivial (h.along.before_turn hk ht) hr
  have ha := h.along.after_turn hk ht
  have hv' := h.keeps_valid.poll (r.dispatcher.checkpoint P.key) _ trivial hv
  rw [hru] at ha hv'
  exact h.known_follows _ _ _ hv' ha (h.batch _ _ _ _ hv hru id hb).1

theorem settled_of_clean (hr : L.valid (storeOf r)) (hc : P.CleanCycle N L.inBatch r id) :
    Settled P L id (runEventPollCycle (P.deployment N) r) := by
  have hk := h.known_of_clean hr hc
  obtain ⟨p, turn, polled, w', ⟨hke, ht, hru⟩, hb, hd⟩ := hc
  have hva := h.keeps_valid.follows _ _ trivial (h.along.before_turn hke ht) hr
  have hid := (h.lists _ _ _ _ hva hru id).mpr hb
  cases hv : polled.checkpoint with
  | none =>
    rw [hv, h.ids_none] at hid
    cases hid
  | some value =>
    have hm : Moves (P.deployment N).host turn p value := by
      unfold Moves
      rw [ht.checkpoint, hke, poll_deployment, hru]
      exact ⟨polled, rfl, hv, .inr hd⟩
    obtain ⟨checkpoint, hch, hi⟩ := checkpoint_after_turn ht
    rw [(hi value).mpr hm, hke] at hch
    refine .inr ⟨hk, ?_⟩
    rw [checkpoint_runEventPollCycle, hch]
    rwa [hv] at hid

theorem known_of_listed (hk : ∀ id, P.Keeps L.valid L.follows (L.known · id)) (w : World σ E)
    (hw : L.valid w.store) (ops : List (RunnerOp (Activity E C)))
    (hid : id ∈ L.ids ((Run.exec (runnerStep (P.deployment N)) (.new w) ops).dispatcher.checkpoint P.key)) :
    L.known (storeOf (Run.exec (runnerStep (P.deployment N)) (.new w) ops)) id := by
  cases hv : (Run.exec (runnerStep (P.deployment N)) (.new w) ops).dispatcher.checkpoint P.key with
  | none =>
    rw [hv, h.ids_none] at hid
    cases hid
  | some value =>
    rw [hv] at hid
    obtain ⟨pre, op, post, rfl, rfl, hm⟩ := (checkpoint_origin (P.deployment N) w ops P.key value).1 hv
    have hva := h.valid_run (N := N) (r := .new w) hw pre
    have hkn := h.known_of_clean hva (h.cleanCycle_of_moves hva hid hm)
    rw [Run.exec_append]
    exact Keeps.run h.along h.keeps_valid (hk id) (h.valid_run hva [.cycle]) hkn post

/-- A cycle keeps what is settled: its poll reconciles the checkpoint, or fails and
leaves the checkpoint as it is. -/
theorem settled_cycle (hr : L.valid (storeOf r)) (hs : Settled P L id r) :
    Settled P L id (runEventPollCycle (P.deployment N) r) := by
  rcases hs with hc | ⟨hk, hid⟩
  · exact .inl (Keeps.cycle h.along h.keeps_valid (h.keeps_closed id).follows (h.keeps_closed id).poll hr hc)
  · have hk' := h.known_cycle (N := N) hr hk
    by_cases hre : ∃ p ∈ r.dispatcher.producers.producers, p.producerKey = P.key
    · obtain ⟨p, hp, hke⟩ := hre
      obtain ⟨turn, ht⟩ := exists_isTurn (P.deployment N).host hp
      have hb := h.along.before_turn hke ht
      have hv := h.keeps_valid.follows _ _ trivial hb hr
      have ha := h.along.after_turn hke ht
      have hv' := h.keeps_valid.poll (r.dispatcher.checkpoint P.key) _ trivial hv
      rcases hru : runOn (P.poll (r.dispatcher.checkpoint P.key)) turn.host with ⟨err | polled, w'⟩
      · -- the poll failed
        obtain ⟨checkpoint, hch, hi⟩ := checkpoint_after_turn ht
        have hn : checkpoint = none := by
          refine Option.eq_none_iff_forall_ne_some.mpr fun value hva => ?_
          obtain ⟨polled, hpo, -⟩ := (hi value).mp hva
          rw [ht.checkpoint, hke, poll_deployment, hru] at hpo
          cases hpo
        refine .inr ⟨hk', ?_⟩
        rw [checkpoint_runEventPollCycle, ← hke, hch, hn, hke]
        exact hid
      · rw [hru] at ha hv'
        refine .inl ((h.keeps_closed id).follows _ _ hv' ha ?_)
        exact h.settles _ _ _ _ hv hru id hid (h.known_follows _ _ _ hr hb hk)
    · refine .inr ⟨hk', ?_⟩
      rw [checkpoint_runEventPollCycle, checkpoint_unregistered fun p hp hke => hre ⟨p, hp, hke⟩]
      exact hid

variable {later : List (RunnerOp (Activity E C))} {turn : Dispatcher (World σ E)}

theorem known_run (hr : L.valid (storeOf r)) (hk : L.known (storeOf r) id) (hl : ∀ pr, .restart pr ∉ later) :
    L.known (storeOf (Run.exec (runnerStep (P.deployment N)) r later)) id := by
  induction later generalizing r with
  | nil => exact hk
  | cons op later ih =>
    refine ih (h.valid_run hr [op]) ?_ fun pr hm => hl pr (List.mem_cons_of_mem op hm)
    cases op with
    | outside ac =>
      cases ac with
      | call call => exact h.known_follows _ _ _ hr (h.along.call _ call) hk
      | env env => exact hk
    | cycle => exact h.known_cycle hr hk
    | restart pr => exact absurd List.mem_cons_self (hl pr)

theorem settled_run (hr : L.valid (storeOf r)) (hs : Settled P L id r) (hl : ∀ pr, .restart pr ∉ later) :
    Settled P L id (Run.exec (runnerStep (P.deployment N)) r later) := by
  induction later generalizing r with
  | nil => exact hs
  | cons op later ih =>
    have hre : ∀ pr, .restart pr ∉ later :=
      fun pr hm => hl pr (List.mem_cons_of_mem op hm)
    refine ih (h.valid_run hr [op]) ?_ hre
    cases op with
    | outside ac =>
      cases ac with
      | call call =>
        have hc := h.along.call (storeOf r) call
        exact hs.imp ((h.keeps_closed id).follows _ _ hr hc) (And.imp_left (h.known_follows _ _ _ hr hc))
      | env env => exact hs
    | cycle => exact h.settled_cycle hr hs
    | restart pr => exact absurd List.mem_cons_self (hl pr)

variable {p : EventProducer} {polled : ProducerPoll} {w' : World σ E}

theorem not_polled_of_settled (hr : L.valid (storeOf r)) (hs : Settled P L id r)
    (hp : P.Polls N r p turn polled w') : ¬ L.inBatch id polled := by
  obtain ⟨hke, ht, hru⟩ := hp
  have hb := h.along.before_turn hke ht
  intro hba
  obtain ⟨-, ho, hu⟩ :=
    h.batch _ _ _ _ (h.keeps_valid.follows _ _ trivial hb hr) hru id hba
  rcases hs with hc | ⟨hk, hid⟩
  · exact ho ((h.keeps_closed id).follows _ _ hr hb hc)
  · exact hu (h.known_follows _ _ _ hr hb hk) hid

theorem closed_not_polled (hr : L.valid (storeOf r)) (hc : L.closed (storeOf r) id)
    (later : List (RunnerOp (Activity E C)))
    (hp : P.Polls N (Run.exec (runnerStep (P.deployment N)) r later) p turn polled w') : ¬ L.inBatch id polled :=
  h.not_polled_of_settled (h.valid_run hr later)
    (.inl (Keeps.run h.along h.keeps_valid (h.keeps_closed id) hr hc later)) hp

end Acknowledges

end StorePoller

end AgentiumOs.Events
