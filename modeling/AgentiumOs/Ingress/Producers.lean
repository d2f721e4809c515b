import AgentiumOs.Lib.Cooperative
import AgentiumOs.Events.Checkpoint
import AgentiumOs.Ingress.Store

/-! The two producers that turn items of the inbox into events. Both acknowledge
the batch of their checkpoint, requeue what was not confirmed in time, list what is
pending and claim it. They differ in a claimed item whose payload cannot be read:
the Slack producer fails, the raw datasource producer drops the item. -/

namespace AgentiumOs.Ingress

open List Lib Lib.Fallible Lib.Cooperative
open Lib.Json (Value)
open Events (AgentDispatchRoutingKey BamlRtError CheckpointCodec EventSchemaVersion EventSourceKey
  EventSourceKind ProducedEvent ProducerCheckpoint ProducerPoll pollCheckpoint)

/-- The calls of other tasks: receivers enqueue, and a producer of another source
requeues what is stale. -/
inductive InboxCall where
  | enqueue (item : IngressItem)
  | requeueStale (emittedBeforeUnixMs : ℕ)

def IngressStore.inbox (store : IngressStore) : InboxCall → IngressStore
  | .enqueue item => (store.enqueueIngressItem item).1
  | .requeueStale before => (store.requeueStaleIngress before).1

structure Surroundings (E : Type) where
  wait : E → Meanwhile E InboxCall (Except BamlRtError Unit)
  now : E → ℕ

/-- Surroundings in which nothing happens but what the poll does. -/
def quiet (now : ℕ) : Surroundings Unit where
  wait _ := ((), [], .ok ())
  now _ := now

variable {E : Type} (S : Surroundings E)

abbrev PollProgram (E α : Type) := Program BamlRtError (World IngressStore E) α

def inboxStatement {α : Type} (f : IngressStore → IngressStore × Except BamlRtError α) : PollProgram E α := do
  let answer ← statement IngressStore.inbox S.wait fun w => ({ w with store := (f w.store).1 }, (f w.store).2)
  liftM answer

variable {α : Type} {row : IngressRow} {polled : ProducerPoll} {event : ProducedEvent} {readJson : JsonReader}

theorem runOn_inboxStatement_quiet (now : ℕ) (f : IngressStore → IngressStore × Except BamlRtError α)
    (s : IngressStore) :
    runOn (inboxStatement (quiet now) f) ⟨s, ()⟩ = ((f s).2, ⟨(f s).1, ()⟩) := rfl

def reconcile (delivered : List String) (now : ℕ) : PollProgram E Unit :=
  if delivered.isEmpty then pure () else inboxStatement S (·.markIngressDelivered delivered now)

/-- The items a poll claims: those that were listed and that the claim answered. -/
def claimPending (sourceKinds : List EventSourceKind) (limit retryAfterMs now : ℕ) (delivered : List String) :
    PollProgram E (List IngressItem) := do
  reconcile S delivered now
  let _ ← inboxStatement S (·.requeueStaleIngress (now - retryAfterMs))
  let pending ← inboxStatement S fun store => (store, .ok (store.listPendingIngressItems sourceKinds limit))
  let emitted ← inboxStatement S (·.markIngressEmitted (pending.map (·.ingressId)) now)
  pure (pending.filter fun item => decide (item.ingressId ∈ emitted))

def maxSlackInboxItemsPerPoll : ℕ := 100

def slackInboxProducerKey : String := "support/slack:inbox"

def slackIngressRetryAfterMs : ℕ := 60000

def slackSourceKind : EventSourceKind := ⟨"slack"⟩

def hostSourceRecords (sourceKind : EventSourceKind) (sourceKey : EventSourceKey) (payload : Value)
    (messageId : Option String) (metadata : Option Value) : ProducedEvent where
  routingKey := ⟨"event:intake"⟩
  schemaVersion := ⟨"host.source-records.v1"⟩
  sourceKind := sourceKind
  sourceKey := sourceKey
  messages := [payload]
  contextId := none
  taskId := none
  messageId := messageId
  producerKey := none
  metadata := metadata

abbrev JsonReader := String → Except String Value

def ingressItemToEvent (readJson : JsonReader) (item : IngressItem) : Except BamlRtError ProducedEvent :=
  match readJson item.payloadJson with
  | .error err => .error (.invalidArgument ("failed to deserialize stored ingress payload: " ++ err))
  | .ok payload => .ok (hostSourceRecords slackSourceKind item.sourceKey payload (some item.ingressId) none)

def convertSlackItem (readJson : JsonReader) (item : IngressItem) : Except BamlRtError ProducedEvent :=
  match ingressItemToEvent readJson item with
  | .error err => .error (.invalidArgument ("support/slack inbox failed to convert ingress item '" ++
      item.ingressId ++ "' from '" ++ item.sourceKey.text ++ "': " ++ err.toText))
  | .ok event => .ok event

def slackPollAt (readJson : JsonReader) (C : CheckpointCodec) (now : ℕ) (checkpoint : ProducerCheckpoint) :
    PollProgram E ProducerPoll := do
  let delivered := C.fromCheckpoint checkpoint
  let items ← claimPending S [slackSourceKind] maxSlackInboxItemsPerPoll slackIngressRetryAfterMs now delivered
  let events ← liftM (items.mapM (convertSlackItem readJson))
  pure ⟨events, pollCheckpoint C (!delivered.isEmpty) events (items.map (·.ingressId))⟩

def slackPoll (readJson : JsonReader) (C : CheckpointCodec) (checkpoint : ProducerCheckpoint) :
    PollProgram E ProducerPoll := do
  let w ← get
  slackPollAt S readJson C (S.now w.env) checkpoint

structure RawDatasourceSpec where
  toolName : String
  key : String
  sourceKind : EventSourceKind
  sourceKey : EventSourceKey
  schemaVersion : EventSchemaVersion
  responseStatus : ℕ
  dedupeHeader : Option String
  maxBodyBytes : ℕ
  deriving DecidableEq

def RawDatasourceSpec.producerKey (spec : RawDatasourceSpec) : String :=
  "external-datasource:" ++ spec.toolName ++ ":" ++ spec.key

def RawDatasourceSpec.routingKey (spec : RawDatasourceSpec) : AgentDispatchRoutingKey := ⟨spec.sourceKind.text⟩

structure RawIngressEnvelope where
  payload : Value
  contextId : String

abbrev EnvelopeReader := String → Except String RawIngressEnvelope

def rawEvent (spec : RawDatasourceSpec) (item : IngressItem) (envelope : RawIngressEnvelope) : ProducedEvent where
  routingKey := spec.routingKey
  schemaVersion := spec.schemaVersion
  sourceKind := item.sourceKind
  sourceKey := item.sourceKey
  messages := [envelope.payload]
  contextId := some envelope.contextId
  taskId := none
  messageId := some item.ingressId
  producerKey := none
  metadata := none

/-- The loop over the claimed items; a malformed one is dropped by marking it delivered. -/
def rawConvert (readEnvelope : EnvelopeReader) (spec : RawDatasourceSpec) (now : ℕ) :
    List IngressItem → PollProgram E (List String × List ProducedEvent)
  | [] => pure ([], [])
  | item :: rest =>
      match readEnvelope item.payloadJson with
      | .ok envelope => do
          let (delivered, events) ← rawConvert readEnvelope spec now rest
          pure (item.ingressId :: delivered, rawEvent spec item envelope :: events)
      | .error _ => do
          inboxStatement S (·.markIngressDelivered [item.ingressId] now)
          rawConvert readEnvelope spec now rest

def rawCheckpoint (C : CheckpointCodec) (reconciled : Bool) (delivered : List String) : ProducerCheckpoint :=
  if delivered.isEmpty then
    if reconciled then C.toCheckpoint [] else none
  else C.toCheckpoint delivered

def rawPollAt (readEnvelope : EnvelopeReader) (C : CheckpointCodec) (spec : RawDatasourceSpec) (now : ℕ)
    (checkpoint : ProducerCheckpoint) : PollProgram E ProducerPoll := do
  let checkpointDelivered := C.fromCheckpoint checkpoint
  let items ← claimPending S [spec.sourceKind] 100 60000 now checkpointDelivered
  let (delivered, events) ← rawConvert S readEnvelope spec now items
  pure ⟨events, rawCheckpoint C (!checkpointDelivered.isEmpty) delivered⟩

def rawPoll (readEnvelope : EnvelopeReader) (C : CheckpointCodec) (spec : RawDatasourceSpec)
    (checkpoint : ProducerCheckpoint) : PollProgram E ProducerPoll := do
  let w ← get
  rawPollAt S readEnvelope C spec (S.now w.env) checkpoint

/-! ### Where a store can be after a poll -/

abbrev NoneMarked : String → String → Prop := fun _ _ => False

variable {marked : String → String → Prop}

theorem follows_inbox (s : IngressStore) (c : InboxCall) : s.Follows marked (s.inbox c) := by
  cases c with
  | enqueue item => exact follows_enqueue s item
  | requeueStale b => exact follows_requeue s b

def WorldFollows (marked : String → String → Prop) (w w' : World IngressStore E) : Prop :=
  w.store.Follows marked w'.store

theorem worldFollows_refl (w : World IngressStore E) : WorldFollows marked w w := follows_refl _

theorem worldFollows_trans (w w' w'' : World IngressStore E) (h : WorldFollows marked w w')
    (h' : WorldFollows marked w' w'') : WorldFollows marked w w'' := follows_trans _ _ _ h h'

variable {w w' : World IngressStore E} {item : IngressItem} {delivered ids : List String}
  {i : List IngressItem} {f : IngressStore → IngressStore × Except BamlRtError α}

theorem inboxStatement_ok (h : runOn (inboxStatement S f) w = (.ok a, w')) :
    ∃ mid, w.store.Follows NoneMarked mid ∧ (f mid).2 = .ok a ∧ (f mid).1.Follows NoneMarked w'.store := by
  obtain ⟨answer, w₁, hs, ha⟩ := runOn_bind_eq_ok.mp h
  obtain ⟨mid, hb, rfl, haf⟩ :=
    statement_ok (R := IngressStore.Follows NoneMarked) follows_refl follows_trans follows_inbox hs
  rw [Prod.mk.injEq] at ha
  obtain ⟨ha, rfl⟩ := ha
  exact ⟨mid.store, hb, ha, haf⟩

theorem preserves_inboxStatement (hf : ∀ s : IngressStore, s.Follows marked (f s).1) :
    Preserves (WorldFollows (E := E) marked) (inboxStatement S f) :=
  preserves_bind worldFollows_trans
    (preserves_statement follows_refl follows_trans follows_inbox S.wait fun w => hf w.store)
    fun _ => preserves_lift worldFollows_refl _

theorem preserves_reconcile (delivered : List String) (now : ℕ)
    (hm : ∀ id ∈ delivered, ∀ payload, marked id payload) :
    Preserves (WorldFollows (E := E) marked) (reconcile S delivered now) := by
  unfold reconcile
  split
  · exact preserves_pure worldFollows_refl ()
  · exact preserves_inboxStatement S fun s => follows_markDelivered s now fun id hid _ _ => hm id hid _

theorem preserves_claimPending (sourceKinds : List EventSourceKind) (li retryAfterMs now : ℕ)
    (delivered : List String) (hm : ∀ id ∈ delivered, ∀ payload, marked id payload) :
    Preserves (WorldFollows (E := E) marked) (claimPending S sourceKinds li retryAfterMs now delivered) := by
  refine preserves_bind worldFollows_trans (preserves_reconcile S delivered now hm) fun _ => ?_
  refine preserves_bind worldFollows_trans (preserves_inboxStatement S fun s => follows_requeue s _) fun _ => ?_
  refine preserves_bind worldFollows_trans (preserves_inboxStatement S fun s => follows_refl s) fun _ => ?_
  refine preserves_bind worldFollows_trans (preserves_inboxStatement S fun s => follows_markEmitted s _ _)
    fun _ => preserves_pure worldFollows_refl _

def HasItem (store : IngressStore) (item : IngressItem) : Prop :=
  ∃ row, store.table.row item.ingressId = some row ∧ row.payloadJson = item.payloadJson ∧
    row.sourceKind = item.sourceKind

theorem HasItem.follows (h : s.Follows marked s') (hi : HasItem s item) : HasItem s' item := by
  obtain ⟨row, hr, hp, hk⟩ := hi
  obtain ⟨row', hr', hev⟩ := h.rows _ row hr
  exact ⟨row', hr', hev.payloadJson.trans hp, hev.sourceKind.trans hk⟩

variable {now l retryAfterMs : ℕ} {sourceKinds : List EventSourceKind} {events : List ProducedEvent}

theorem reconcile_delivers (h : runOn (reconcile S delivered now) w = (.ok (), w')) {id : String}
    (hid : id ∈ delivered) (hrw : w.store.table.row id = some row) :
    ∃ row', w'.store.table.row id = some row' ∧ row'.status = .delivered := by
  have hne : ¬ delivered.isEmpty = true := by simp [ne_nil_of_mem hid]
  unfold reconcile at h
  rw [if_neg hne] at h
  obtain ⟨mid, hb, ha, haf⟩ := inboxStatement_ok S h
  obtain ⟨ro, hr, -⟩ := hb.rows id row hrw
  have hm : ∃ r, (mid.markIngressDelivered delivered now).1.table.row id = some r ∧
      r.status = .delivered := by
    unfold IngressStore.markIngressDelivered at ha ⊢
    rw [if_neg hne] at ha ⊢
    split at ha
    case h_1 => cases ha
    case h_2 =>
      simp only [Table.row_update, hr]
      have hk : ro.ingressId ∈ delivered := by rwa [Table.key_of_row hr]
      cases hs : ro.status <;> simp [IngressStore.confirmable, hk, hs]
  obtain ⟨r, hro, hs⟩ := hm
  obtain ⟨row', hrw', hev⟩ := haf.rows id r hro
  exact ⟨row', hrw', hev.delivered hs⟩

theorem mem_listPending {s : IngressStore} (h : item ∈ s.listPendingIngressItems sourceKinds l) :
    ∃ row, s.table.row item.ingressId = some row ∧ parseIngressRow row = item ∧ row.isOpen = true ∧
      row.sourceKind ∈ sourceKinds := by
  obtain ⟨row, hr, rfl⟩ := mem_map.mp h
  have hm := (perm_insertionSort _ _).mem_iff.mp (mem_of_mem_take hr)
  obtain ⟨hm, ho⟩ := mem_filter.mp hm
  obtain ⟨ho, hk⟩ := Bool.and_eq_true_iff.mp ho
  exact ⟨row, Table.row_of_mem hm, rfl, ho, of_decide_eq_true hk⟩

theorem status_of_isOpen (h : row.isOpen = true) : row.status = .pending := by
  simpa [IngressRow.isOpen] using (Bool.and_eq_true_iff.mp h).1

/-- What a poll claims is in the inbox, of one of the kinds, was not delivered before,
and is not in the checkpoint the poll started from. The items of that checkpoint are
delivered. -/
theorem claimPending_ok (h : runOn (claimPending S sourceKinds l retryAfterMs now delivered) w = (.ok i, w')) :
    (∀ item ∈ i, HasItem w'.store item ∧ item.sourceKind ∈ sourceKinds ∧
      ∀ row, w.store.table.row item.ingressId = some row → row.status ≠ .delivered ∧ item.ingressId ∉ delivered) ∧
    ∀ id ∈ delivered, ∀ row, w.store.table.row id = some row →
      ∃ row', w'.store.table.row id = some row' ∧ row'.status = .delivered := by
  obtain ⟨_, w₁, hre, h⟩ := runOn_bind_eq_ok.mp h
  obtain ⟨_, w₂, hrq, h⟩ := runOn_bind_eq_ok.mp h
  obtain ⟨pending, w₃, hli, h⟩ := runOn_bind_eq_ok.mp h
  obtain ⟨e, w₄, hc, h⟩ := runOn_bind_eq_ok.mp h
  cases h
  have h₁ : WorldFollows (fun _ _ => True) w w₁ :=
    (preserves_reconcile S delivered now fun _ _ _ => trivial).of_run hre
  have h₂ : WorldFollows NoneMarked w₁ w₂ :=
    (preserves_inboxStatement S fun s => follows_requeue s _).of_run hrq
  obtain ⟨mid, hm, hpe, h₃⟩ := inboxStatement_ok S hli
  have h₄ : WorldFollows NoneMarked w₃ w' :=
    (preserves_inboxStatement S fun s => follows_markEmitted s _ _).of_run hc
  -- from the listing to the end, and from the reconciliation to the listing
  have hl : mid.Follows NoneMarked w'.store := follows_trans _ _ _ h₃ h₄
  have he : w₁.store.Follows NoneMarked mid := follows_trans _ _ _ h₂ hm
  constructor
  · intro item hi
    obtain rfl : mid.listPendingIngressItems sourceKinds l = pending := Except.ok.inj hpe
    obtain ⟨row, hro, rfl, ho, hk⟩ := mem_listPending (mem_filter.mp hi).1
    have hp := status_of_isOpen ho
    refine ⟨HasItem.follows hl ⟨row, hro, rfl, rfl⟩, hk, fun row₀ hro₀ => ⟨fun hd => ?_, fun hid => ?_⟩⟩
    · obtain ⟨row₁, hro₁, hev₁⟩ := h₁.rows _ row₀ hro₀
      obtain ⟨rowm, hr, hev₂⟩ := he.rows _ row₁ hro₁
      obtain rfl : row = rowm := Option.some.inj (hro.symm.trans hr)
      simp [hev₂.delivered (hev₁.delivered hd)] at hp
    · obtain ⟨row₁, hro₁, hd⟩ := reconcile_delivers S hre hid hro₀
      obtain ⟨rowm, hr, hev₂⟩ := he.rows _ row₁ hro₁
      obtain rfl : row = rowm := Option.some.inj (hro.symm.trans hr)
      simp [hev₂.delivered hd] at hp
  · intro id hid row hro
    obtain ⟨row₁, hro₁, hd⟩ := reconcile_delivers S hre hid hro
    obtain ⟨rowm, hr, hev⟩ := he.rows id row₁ hro₁
    obtain ⟨row', hro', hev'⟩ := hl.rows id rowm hr
    exact ⟨row', hro', hev'.delivered (hev.delivered hd)⟩

def InBatch (ingressId : String) (polled : ProducerPoll) : Prop :=
  ∃ event ∈ polled.events, event.messageId = some ingressId

theorem inBatch_iff (h : polled.events.map (·.messageId) = ids.map some) (id : String) :
    InBatch id polled ↔ id ∈ ids := by
  have hm : InBatch id polled ↔ some id ∈ polled.events.map (·.messageId) := by
    simp [InBatch]
  rw [hm, h]
  simp

theorem messageId_convertSlackItem (h : convertSlackItem readJson item = .ok event) :
    event.messageId = some item.ingressId := by
  unfold convertSlackItem ingressItemToEvent at h
  cases hr : readJson item.payloadJson with
  | error err => simp [hr] at h
  | ok payload =>
    simp only [hr, Except.ok.injEq] at h
    subst h
    rfl

theorem messageIds_convert (h : i.mapM (convertSlackItem readJson) = .ok events) :
    events.map (·.messageId) = (i.map (·.ingressId)).map some := by
  rw [map_map]
  exact map_of_mapM_eq_ok (fun _ _ => messageId_convertSlackItem) h

/-- The payload of the item cannot be read by the producer that drops such items. -/
def Malformed (readEnvelope : EnvelopeReader) (payload : String) : Prop :=
  ∀ envelope, readEnvelope payload ≠ .ok envelope

theorem follows_drop (hm : marked item.ingressId item.payloadJson) (now : ℕ) (hit : HasItem w.store item) :
    WorldFollows marked w (runOn (inboxStatement S (·.markIngressDelivered [item.ingressId] now)) w).2 := by
  -- along calls the item stays, which is what the statement needs
  have hp : Preserves (fun w w' : World IngressStore E => HasItem w.store item → WorldFollows marked w w')
      (inboxStatement S (·.markIngressDelivered [item.ingressId] now)) := by
    refine preserves_bind (fun w w' w'' h h' hi => ?_)
      (preserves_statement (R := fun s s' => HasItem s item → IngressStore.Follows marked s s')
        (fun s _ => follows_refl s) (fun s t u h h' hi => ?_) (fun s call _ => follows_inbox s call) S.wait
        fun w hi => ?_) fun _ => preserves_lift (fun w _ => worldFollows_refl w) _
    · exact worldFollows_trans w w' w'' (h hi) (h' (hi.follows (h hi)))
    · exact follows_trans s t u (h hi) (h' (hi.follows (h hi)))
    · refine follows_markDelivered w.store now fun id hid row hr => ?_
      obtain rfl : id = item.ingressId := mem_singleton.mp hid
      obtain ⟨row', hr', hpa, -⟩ := hi
      obtain rfl : row = row' := Option.some.inj (hr.symm.trans hr')
      exact hpa ▸ hm
  exact hp w hit

theorem rawConvert_spec (r : EnvelopeReader) (s : RawDatasourceSpec) (now : ℕ)
    (i : List IngressItem) (w : World IngressStore E) (hi : ∀ item ∈ i, HasItem w.store item) :
    WorldFollows (fun _ payload => Malformed r payload) w (runOn (rawConvert S r s now i) w).2 ∧
      ∀ delivered events w', runOn (rawConvert S r s now i) w = (.ok (delivered, events), w') →
        events.map (·.messageId) = delivered.map some ∧ delivered.Sublist (i.map (·.ingressId)) := by
  induction i generalizing w with
  | nil =>
    refine ⟨worldFollows_refl w, fun delivered events w' h => ?_⟩
    cases h
    exact ⟨rfl, .slnil⟩
  | cons item re ih =>
    have hre : ∀ other ∈ re, HasItem w.store other := fun other h => hi other (mem_cons_of_mem _ h)
    cases hr : r item.payloadJson with
    | ok e =>
      obtain ⟨hf, he⟩ := ih w hre
      simp only [rawConvert, hr]
      rw [runOn_bind]
      rcases hru : runOn (rawConvert S r s now re) w with ⟨err | ⟨delivered, events⟩, w₁⟩
      · rw [hru] at hf
        exact ⟨hf, fun _ _ _ h => by cases h⟩
      · rw [hru] at hf
        obtain ⟨hid, hs⟩ := he delivered events w₁ hru
        refine ⟨hf, fun _ _ _ h => ?_⟩
        cases h
        exact ⟨by simp [hid, rawEvent], hs.cons_cons _⟩
    | error err =>
      have hm : Malformed r item.payloadJson := by simp [Malformed, hr]
      have hd : WorldFollows (fun _ payload => Malformed r payload) w
          (runOn (inboxStatement S (·.markIngressDelivered [item.ingressId] now)) w).2 :=
        follows_drop S hm now (hi item mem_cons_self)
      simp only [rawConvert, hr]
      rw [runOn_bind]
      rcases hru : runOn (inboxStatement S (·.markIngressDelivered [item.ingressId] now)) w with ⟨err | u, w₁⟩
      · rw [hru] at hd
        exact ⟨hd, fun _ _ _ h => by cases h⟩
      · rw [hru] at hd
        obtain ⟨hf, he⟩ := ih w₁ fun other ho => (hre other ho).follows hd
        refine ⟨worldFollows_trans _ _ _ hd hf, fun delivered events w' h => ?_⟩
        obtain ⟨hid, hs⟩ := he delivered events w' h
        exact ⟨hid, hs.cons _⟩

theorem rawConvert_events (h : runOn (rawConvert S r s now i) w = (.ok (delivered, events), w'))
    (he : event ∈ events) : ∃ item ∈ i, ∃ envelope, event = rawEvent s item envelope := by
  induction i generalizing w delivered events with
  | nil =>
    cases h
    cases he
  | cons item rest ih =>
    cases hr : r item.payloadJson with
    | ok envelope =>
      simp only [rawConvert, hr] at h
      obtain ⟨⟨delivered', events'⟩, w₁, hre, h⟩ := runOn_bind_eq_ok.mp h
      cases h
      rcases mem_cons.mp he with rfl | hme
      · exact ⟨item, mem_cons_self, envelope, rfl⟩
      · obtain ⟨o, ho, hm⟩ := ih hre hme
        exact ⟨o, mem_cons_of_mem _ ho, hm⟩
    | error err =>
      simp only [rawConvert, hr] at h
      obtain ⟨_, w₁, -, h⟩ := runOn_bind_eq_ok.mp h
      obtain ⟨o, ho, hm⟩ := ih h he
      exact ⟨o, mem_cons_of_mem _ ho, hm⟩

inductive InboxProducer where
  | slack
  | raw (spec : RawDatasourceSpec)

/-- How the payloads and checkpoints of a producer are read. -/
structure Formats where
  readJson : JsonReader
  readEnvelope : EnvelopeReader
  codec : CheckpointCodec

def InboxProducer.producerKey : InboxProducer → String
  | .slack => slackInboxProducerKey
  | .raw spec => spec.producerKey

def InboxProducer.poll (F : Formats) : InboxProducer → ProducerCheckpoint → PollProgram E ProducerPoll
  | .slack, checkpoint => slackPoll S F.readJson F.codec checkpoint
  | .raw spec, checkpoint => rawPoll S F.readEnvelope F.codec spec checkpoint

def InboxProducer.Drops (F : Formats) : InboxProducer → String → Prop
  | .slack, _ => False
  | .raw _, payload => Malformed F.readEnvelope payload

/-- A poll delivers the items of its checkpoint, and what it drops. -/
def PollMarks (F : Formats) (producer : InboxProducer) (checkpoint : ProducerCheckpoint) (id payload : String) :
    Prop :=
  id ∈ F.codec.fromCheckpoint checkpoint ∨ producer.Drops F payload

theorem poll_follows (F : Formats) (p : InboxProducer) (c : ProducerCheckpoint) (w : World IngressStore E) :
    WorldFollows (PollMarks F p c) w (runOn (p.poll S F c) w).2 := by
  have hc : ∀ k l r now, Preserves (WorldFollows (E := E) (PollMarks F p c))
      (claimPending S k l r now (F.codec.fromCheckpoint c)) :=
    fun k l r now => preserves_claimPending S k l r now _ fun _ hid _ => .inl hid
  cases p with
  | slack =>
    rw [InboxProducer.poll, slackPoll, runOn_get_bind]
    refine preserves_bind worldFollows_trans (hc _ _ _ _) (fun i => ?_) w
    exact preserves_bind worldFollows_trans (preserves_lift worldFollows_refl _) fun _ =>
      preserves_pure worldFollows_refl _
  | raw s =>
    rw [InboxProducer.poll, rawPoll, runOn_get_bind]
    refine rel_bind worldFollows_trans (hc _ _ _ _ w) fun i w₁ hr => ?_
    obtain ⟨hco, -⟩ := rawConvert_spec S F.readEnvelope s (S.now w.env) i w₁
      fun item hi => ((claimPending_ok S hr).1 item hi).1
    exact rel_bind worldFollows_trans (hco.mono fun _ _ h => .inr h) fun _ _ _ => worldFollows_refl _

theorem fromCheckpoint_rawCheckpoint (C : CheckpointCodec) (r : Bool) (ids : List String) :
    C.fromCheckpoint (rawCheckpoint C r ids) = ids := by
  unfold rawCheckpoint
  split
  case isTrue he =>
    obtain rfl : ids = [] := by simpa using he
    cases r with
    | true => exact C.fromCheckpoint_toCheckpoint []
    | false => rfl
  case isFalse => simp

/-- What a poll that succeeds emits was claimed by it, and its checkpoint lists the batch. -/
theorem poll_ok {F : Formats} {p : InboxProducer} {c : ProducerCheckpoint}
    (h : runOn (p.poll S F c) w = (.ok polled, w')) :
    (∀ id, id ∈ F.codec.fromCheckpoint polled.checkpoint ↔ InBatch id polled) ∧
    (∀ id, InBatch id polled → (∃ row', w'.store.table.row id = some row') ∧
      ∀ row, w.store.table.row id = some row → row.status ≠ .delivered ∧ id ∉ F.codec.fromCheckpoint c) ∧
    ∀ id ∈ F.codec.fromCheckpoint c, ∀ row, w.store.table.row id = some row →
      ∃ row', w'.store.table.row id = some row' ∧ row'.status = .delivered := by
  cases p with
  | slack =>
    rw [InboxProducer.poll, slackPoll, runOn_get_bind] at h
    obtain ⟨i, w₁, hc, h⟩ := runOn_bind_eq_ok.mp h
    obtain ⟨events, w₂, he, h⟩ := runOn_bind_eq_ok.mp h
    cases h
    rw [Prod.mk.injEq] at he
    obtain ⟨he, rfl⟩ := he
    obtain ⟨hit, hs⟩ := claimPending_ok S hc
    have hids := messageIds_convert he
    refine ⟨fun id => ?_, fun id hb => ?_, hs⟩
    · rw [inBatch_iff hids, Events.fromCheckpoint_pollCheckpoint]
    · obtain ⟨item, hi, rfl⟩ := mem_map.mp ((inBatch_iff hids id).mp hb)
      obtain ⟨⟨row', hr', -⟩, -, hbe⟩ := hit item hi
      exact ⟨⟨row', hr'⟩, hbe⟩
  | raw s =>
    rw [InboxProducer.poll, rawPoll, runOn_get_bind] at h
    obtain ⟨i, w₁, hc, h⟩ := runOn_bind_eq_ok.mp h
    obtain ⟨⟨delivered, events⟩, w₂, hco, h⟩ := runOn_bind_eq_ok.mp h
    cases h
    obtain ⟨hit, hs⟩ := claimPending_ok S hc
    obtain ⟨hf, hsp⟩ := rawConvert_spec S F.readEnvelope s (S.now w.env) i w₁ fun item hi => (hit item hi).1
    obtain ⟨hids, hsu⟩ := hsp delivered events w' hco
    rw [hco] at hf
    refine ⟨fun id => ?_, fun id hb => ?_, fun id hid row hr => ?_⟩
    · rw [inBatch_iff hids, fromCheckpoint_rawCheckpoint]
    · obtain ⟨item, hi, rfl⟩ := mem_map.mp (hsu.subset ((inBatch_iff hids id).mp hb))
      obtain ⟨hi, -, hbe⟩ := hit item hi
      obtain ⟨row', hr', -⟩ := hi.follows hf
      exact ⟨⟨row', hr'⟩, hbe⟩
    · obtain ⟨row₁, hr₁, hst⟩ := hs id hid row hr
      obtain ⟨row', hr', hev⟩ := hf.rows id row₁ hr₁
      exact ⟨row', hr', hev.delivered hst⟩

end AgentiumOs.Ingress
