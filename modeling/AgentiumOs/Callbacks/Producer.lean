import AgentiumOs.Lib.Cooperative
import AgentiumOs.Lib.StableSort
import AgentiumOs.Events.Checkpoint
import AgentiumOs.Events.Dispatcher
import AgentiumOs.Callbacks.Store

/-! The producer that turns due callbacks into events. Its checkpoint lists the
callbacks of the last batch that was delivered; the next poll marks them
delivered before it lists what is due. While a poll waits for the store, other
tasks schedule and cancel callbacks. -/

namespace AgentiumOs.Callbacks

open CallbackStore Lib Lib.Fallible Lib.Cooperative
open Lib.Json (Value)
open Events (BamlRtError CheckpointCodec EventSourceKey ProducedEvent ProducerCheckpoint
  ProducerPoll callbackSourceKind pollCheckpoint)

def maxCallbacksPerPoll : ℕ := 100

def callbackEventSchemaVersion : String := "system.callback.v1"

def callbackEventRoutingKey : String := "system:callback"

inductive ToolCall where
  | schedule (request : ScheduleCallbackRequest)
  | cancel (selector : CancelCallbackSelector) (now : ℕ)

def CallbackStore.tool (U : UuidSupply) (store : CallbackStore) : ToolCall → CallbackStore
  | .schedule request => (store.scheduleCallback U request).1
  | .cancel selector now => (store.cancelCallback selector now).1

/-- What the poll runs in: the other tasks, the clock, and the runner's tasks in flight. -/
structure Surroundings (E : Type) where
  wait : E → Meanwhile E ToolCall (Except BamlRtError Unit)
  now : E → ℕ
  deliveryGate : Bool
  requestingTaskStillInFlight : E → String → String → String → Meanwhile E ToolCall Bool

/-- Surroundings in which nothing happens but what the poll does. -/
def quiet (deliveryGate : Bool) (now : ℕ) (inFlight : String → String → String → Bool) : Surroundings Unit where
  wait _ := ((), [], .ok ())
  now _ := now
  deliveryGate := deliveryGate
  requestingTaskStillInFlight _ agentId contextId taskId := ((), [], inFlight agentId contextId taskId)

def callbackMessageId (callbackId : String) : String := "system/callback:" ++ callbackId

theorem callbackMessageId_injective : Function.Injective callbackMessageId := by
  intro a b h
  exact String.append_right_inj _ |>.mp h

def optionalText : Option String → Value
  | none => .null
  | some text => .string text

def callbackToEvent (now : ℕ) (callback : StoredCallback) : Except BamlRtError ProducedEvent :=
  match EventSourceKey.parse callback.sourceKey with
  | none => .error (.invalidArgument
      ("system/callback stored invalid source key '" ++ callback.sourceKey ++ "'"))
  | some sourceKey => .ok
      { routingKey := ⟨callbackEventRoutingKey⟩
        schemaVersion := ⟨callbackEventSchemaVersion⟩
        sourceKind := ⟨callbackSourceKind⟩
        sourceKey := sourceKey
        messages := [.object
          [("schema_version", .string callbackEventSchemaVersion),
            ("callback_id", .string callback.callbackId),
            ("source", .object [("source_kind", .string callbackSourceKind),
              ("source_key", .string callback.sourceKey)]),
            ("scheduled_for_unix_ms", .number (.integer callback.scheduledForUnixMs)),
            ("requested_at_unix_ms", .number (.integer callback.requestedAtUnixMs)),
            ("emitted_at_unix_ms", .number (.integer now)),
            ("dedupe_key", optionalText callback.dedupeKey),
            ("payload", callback.payload),
            ("request", .object [("context_id", optionalText callback.contextId),
              ("task_id", optionalText callback.taskId),
              ("scheduling_context_id", optionalText callback.schedulingContextId),
              ("scheduling_task_id", optionalText callback.schedulingTaskId),
              ("requesting_agent_id", optionalText callback.requestingAgentId),
              ("requesting_message_id", optionalText callback.requestingMessageId)])]]
        contextId := callback.contextId
        taskId := callback.taskId
        messageId := some (callbackMessageId callback.callbackId)
        producerKey := none
        metadata := match callback.schedulingContextId, callback.schedulingTaskId with
          | some contextId, some taskId => some (.object
              [("schedulingContextId", .string contextId), ("schedulingTaskId", .string taskId)])
          | _, _ => none }

def hasSchedulingScope (callback : StoredCallback) : Bool :=
  callback.schedulingContextId.isSome && callback.schedulingTaskId.isSome

variable {E : Type} (S : Surroundings E) (U : UuidSupply) (C : CheckpointCodec)

abbrev PollProgram (E α : Type) := Program BamlRtError (World CallbackStore E) α

def canEmitCallback (callback : StoredCallback) : PollProgram E Bool :=
  match callback.requestingAgentId with
  | none => pure true
  | some agentId =>
      match callback.schedulingContextId, callback.schedulingTaskId with
      | some contextId, some taskId => ask (CallbackStore.tool U) fun env =>
          let answer := S.requestingTaskStillInFlight env agentId contextId taskId
          (answer.1, answer.2.1, .ok (!answer.2.2))
      | _, _ => pure false

def askGate : List StoredCallback → PollProgram E (List StoredCallback)
  | [] => pure []
  | callback :: rest => do
      let allowed ← canEmitCallback S U callback
      let others ← askGate rest
      pure (if allowed then callback :: others else others)

/-- Without a gate every callback may be emitted. -/
def deliverableCallbacks (due : List StoredCallback) : PollProgram E (List StoredCallback) :=
  if S.deliveryGate then askGate S U due else pure due

def reconcile (delivered : List String) : PollProgram E Unit :=
  if delivered.isEmpty then pure ()
  else statement (CallbackStore.tool U) S.wait fun w =>
    ({ w with store := w.store.markCallbacksDelivered delivered (S.now w.env) }, ())

def listDue : PollProgram E (List StoredCallback) :=
  statement (CallbackStore.tool U) S.wait fun w =>
    (w, listDueCallbacks w.store.table (S.now w.env) maxCallbacksPerPoll)

def claim (callbackIds : List String) : PollProgram E (List String) :=
  statement (CallbackStore.tool U) S.wait fun w =>
    ({ w with store := (w.store.markCallbacksEmitted callbackIds (S.now w.env)).1 },
      (w.store.markCallbacksEmitted callbackIds (S.now w.env)).2)

/-- What a poll does after the deliveries of its checkpoint are reconciled. -/
def pollDue (reconciled : Bool) : PollProgram E ProducerPoll := do
  let due ← listDue S U
  let due ← deliverableCallbacks S U (due.filter hasSchedulingScope)
  let emitted ← claim S U (due.map (·.callbackId))
  let claimed := due.filter fun callback => decide (callback.callbackId ∈ emitted)
  let w ← get
  let events ← liftM (claimed.mapM (callbackToEvent (S.now w.env)))
  pure ⟨events, pollCheckpoint C reconciled events (claimed.map (·.callbackId))⟩

def poll (checkpoint : ProducerCheckpoint) : PollProgram E ProducerPoll := do
  let delivered := C.fromCheckpoint checkpoint
  reconcile S U delivered
  pollDue S U C (!delivered.isEmpty)

/-! ### Where a store can be after a poll -/

/-- The store moves on, and the callbacks it delivers on the way are among the marked ones. -/
def CallbackStore.Follows (marked : List String) (s s' : CallbackStore) : Prop :=
  s.Minted U → s'.Minted U ∧ Evolves s.table s'.table ∧
    ∀ id row', s'.table.row id = some row' → row'.status = .delivered →
      (∃ row, s.table.row id = some row ∧ row.status = .delivered) ∨ id ∈ marked

variable {U} {marked delivered : List String}

variable (s : CallbackStore)

theorem follows_refl : s.Follows U marked s :=
  fun hs => ⟨hs, .refl _, fun _ row h hd => .inl ⟨row, h, hd⟩⟩

theorem follows_trans (t u : CallbackStore) (hst : s.Follows U marked t) (htu : t.Follows U marked u) :
    s.Follows U marked u := by
  intro hs
  obtain ⟨ht, he, hm⟩ := hst hs
  obtain ⟨hu, he', hm'⟩ := htu ht
  refine ⟨hu, he.trans he', fun id row hr hd => ?_⟩
  rcases hm' id row hr hd with ⟨row', hr', hd'⟩ | hid
  · exact hm id row' hr' hd'
  · exact .inr hid

/-- A row written over an unemitted one, which is not delivered, is followed. -/
theorem follows_cancel (se : CancelCallbackSelector) (now : ℕ) :
    s.Follows U marked (s.cancelCallback se now).1 := by
  intro hs
  unfold cancelCallback
  cases hf : findSelected s.table se with
  | none => exact follows_refl s hs
  | some cal =>
    obtain ⟨row, hro, hun, hp⟩ := findSelected_some hf
    have hr : ∀ id row', (overwriteCancelled s.table cal now).row id = some row' →
        id = cal.callbackId ∧ row'.status = .cancelled ∨ s.table.row id = some row' := by
      intro id row' hro'
      rw [overwriteCancelled, Table.row_upsert] at hro'
      split at hro'
      case isTrue hid =>
        cases hro'
        exact .inl ⟨hid, rfl⟩
      case isFalse => exact .inr hro'
    refine ⟨fun id row' hro' => ?_, evolves_overwriteCancelled hro hun hp now, fun id row' hro' hd => ?_⟩
    · rcases hr id row' hro' with ⟨rfl, -⟩ | ho
      · exact hs _ row hro
      · exact hs id row' ho
    · rcases hr id row' hro' with ⟨-, hc⟩ | ho
      · rw [hc] at hd
        cases hd
      · exact .inl ⟨row', ho, hd⟩

theorem follows_schedule (r : ScheduleCallbackRequest) : s.Follows U marked (s.scheduleCallback U r).1 := by
  intro hs
  unfold scheduleCallback
  split
  case h_1 => exact follows_refl s hs
  case h_2 =>
    refine ⟨hs.insertNew r, evolves_insertNew hs r, fun id row hr hd => ?_⟩
    rw [row_insertNew] at hr
    split at hr
    case isTrue =>
      cases hr
      cases hd
    case isFalse => exact .inl ⟨row, hr, hd⟩

theorem follows_tool (call : ToolCall) : s.Follows U marked (s.tool U call) := by
  cases call with
  | schedule request => exact follows_schedule s request
  | cancel se now => exact follows_cancel s se now

theorem follows_markDelivered (now : ℕ) : s.Follows U marked (s.markCallbacksDelivered marked now) := by
  intro hs
  unfold markCallbacksDelivered
  split
  case isTrue => exact follows_refl s hs
  case isFalse =>
    refine ⟨fun id row hr => ?_, evolves_updateDelivered _ _ _, fun id row hr hd => ?_⟩
    · obtain ⟨old, ho, -⟩ := row_updateDelivered_cases hr
      exact hs id old ho
    · obtain ⟨old, ho, rfl | ⟨hid, -⟩⟩ := row_updateDelivered_cases hr
      · exact .inl ⟨row, ho, hd⟩
      · exact .inr hid

theorem follows_markEmitted (c : List String) (now : ℕ) :
    s.Follows U marked (s.markCallbacksEmitted c now).1 := by
  intro hs
  simp only [markCallbacksEmitted]
  split_ifs
  case pos => exact follows_refl s hs
  case pos => exact follows_refl s hs
  case neg =>
    refine ⟨fun id row hr => ?_, evolves_updateEmitted _ _ _, fun id row hr hd => ?_⟩
    · obtain ⟨old, ho, -⟩ := row_updateEmitted_cases hr
      exact hs id old ho
    · obtain ⟨old, ho, rfl | ⟨-, hun, rfl⟩⟩ := row_updateEmitted_cases hr
      · exact .inl ⟨row, ho, hd⟩
      · rw [(CallbackRow.isUnemitted_iff.mp hun).1] at hd
        cases hd

abbrev WorldFollows (U : UuidSupply) (marked : List String) (w w' : World CallbackStore E) : Prop :=
  w.store.Follows U marked w'.store

theorem worldFollows_refl (w : World CallbackStore E) : WorldFollows U marked w w := follows_refl _

theorem worldFollows_trans (w w' w'' : World CallbackStore E) (h : WorldFollows U marked w w')
    (h' : WorldFollows U marked w' w'') : WorldFollows U marked w w'' :=
  follows_trans _ _ _ h h'

theorem preserves_canEmitCallback (cal : StoredCallback) :
    Preserves (WorldFollows U marked) (canEmitCallback S U cal) := by
  unfold canEmitCallback
  split
  · exact preserves_pure worldFollows_refl _
  · split
    · exact fun w => rel_interrupted follows_refl follows_trans follows_tool w _
    · exact preserves_pure worldFollows_refl _

theorem preserves_deliverableCallbacks (due : List StoredCallback) :
    Preserves (WorldFollows U marked) (deliverableCallbacks S U due) := by
  have hg : ∀ due, Preserves (WorldFollows U marked) (askGate S U due) := by
    intro due
    induction due with
    | nil => exact preserves_pure worldFollows_refl _
    | cons cal rest ih =>
      refine preserves_bind worldFollows_trans (preserves_canEmitCallback S cal) fun _ => ?_
      exact preserves_bind worldFollows_trans ih fun _ => preserves_pure worldFollows_refl _
  unfold deliverableCallbacks
  split
  · exact hg due
  · exact preserves_pure worldFollows_refl _

theorem preserves_reconcile (marked : List String) : Preserves (WorldFollows U marked) (reconcile S U marked) := by
  unfold reconcile
  split
  · exact preserves_pure worldFollows_refl _
  · exact preserves_statement follows_refl follows_trans follows_tool _ fun w => follows_markDelivered _ _

theorem preserves_claim (c : List String) : Preserves (WorldFollows U marked) (claim S U c) :=
  preserves_statement follows_refl follows_trans follows_tool _ fun _ => follows_markEmitted _ _ _

theorem preserves_pollDue (r : Bool) : Preserves (WorldFollows U marked) (pollDue S U C r) := by
  refine preserves_bind worldFollows_trans
    (preserves_statement follows_refl follows_trans follows_tool _ fun _ => follows_refl _) fun due => ?_
  refine preserves_bind worldFollows_trans (preserves_deliverableCallbacks S _) fun due => ?_
  refine preserves_bind worldFollows_trans (preserves_claim S _) fun e => ?_
  refine preserves_bind worldFollows_trans (fun w => worldFollows_refl w) fun w => ?_
  exact preserves_bind worldFollows_trans (preserves_lift worldFollows_refl _) fun _ =>
    preserves_pure worldFollows_refl _

theorem preserves_poll (checkpoint : ProducerCheckpoint) :
    Preserves (WorldFollows U (C.fromCheckpoint checkpoint)) (poll S U C checkpoint) :=
  preserves_bind worldFollows_trans (preserves_reconcile S _) fun _ => preserves_pollDue S C _

def InBatch (callbackId : String) (polled : ProducerPoll) : Prop :=
  ∃ event ∈ polled.events, event.messageId = some (callbackMessageId callbackId)

variable {ca : StoredCallback} {now : ℕ} {c due due' : List StoredCallback} {p : ProducerPoll} {id : String}
  {checkpoint : ProducerCheckpoint}

theorem messageId_callbackToEvent (h : callbackToEvent now ca = .ok e) :
    e.messageId = some (callbackMessageId ca.callbackId) := by
  unfold callbackToEvent at h
  split at h
  case h_1 => cases h
  case h_2 =>
    cases h
    rfl

theorem messageIds_mapM (h : c.mapM (callbackToEvent now) = .ok e) :
    e.map (·.messageId) = c.map fun ca => some (callbackMessageId ca.callbackId) :=
  map_of_mapM_eq_ok (fun _ _ => messageId_callbackToEvent) h

theorem inBatch_iff (h : p.events.map (·.messageId) = c.map fun ca => some (callbackMessageId ca.callbackId))
    (id : String) : InBatch id p ↔ id ∈ c.map (·.callbackId) := by
  have hm : InBatch id p ↔ some (callbackMessageId id) ∈ p.events.map (·.messageId) := by
    simp [InBatch]
  rw [hm, h, List.mem_map, List.mem_map]
  constructor
  · rintro ⟨ca, hc, hid⟩
    exact ⟨ca, hc, callbackMessageId_injective (Option.some.inj hid)⟩
  · rintro ⟨ca, hc, rfl⟩
    exact ⟨ca, hc, rfl⟩

variable {w w' : World CallbackStore E} {row row' : CallbackRow}

theorem deliverableCallbacks_sublist
    (h : runOn (deliverableCallbacks S U due) w = (.ok due', w')) : due'.Sublist due := by
  have hg : ∀ due due' (w w' : World CallbackStore E),
      runOn (askGate S U due) w = (.ok due', w') → due'.Sublist due := by
    intro due
    induction due with
    | nil =>
      rintro due' w w' h
      cases h
      exact .slnil
    | cons ca rest ih =>
      intro due' w w' h
      obtain ⟨allowed, w₁, -, h⟩ := runOn_bind_eq_ok.mp h
      obtain ⟨others, w₂, ho, h⟩ := runOn_bind_eq_ok.mp h
      have hs := ih others w₁ w₂ ho
      cases h
      split
      · exact hs.cons_cons ca
      · exact hs.cons ca
  unfold deliverableCallbacks at h
  split at h
  · exact hg due due' w w' h
  · cases h
    exact .refl _

theorem pending_of_mem_listDueCallbacks {t : CallbackTable} {l : ℕ} (h : ca ∈ listDueCallbacks t now l) :
    ∃ row, t.row ca.callbackId = some row ∧ row.status = .pending := by
  obtain ⟨row, hr, rfl⟩ := List.mem_map.mp h
  have hm := (List.perm_insertionSort _ _).mem_iff.mp (List.mem_of_mem_take hr)
  obtain ⟨hm, hd⟩ := List.mem_filter.mp hm
  exact ⟨row, Table.row_of_mem hm, CallbackRow.isPending_iff.mp (Bool.and_eq_true_iff.mp hd).1⟩

theorem CallbackRow.Evolves.not_pending (h : row.Evolves row') (hst : row.status ≠ .pending) :
    row'.status ≠ .pending := by
  cases hs : row.status with
  | pending => exact absurd hs hst
  | delivered => simp [h.delivered hs]
  | cancelled => simp [h.cancelled hs, hs]

theorem Evolves.not_pending (h : Evolves t t') (hr : t.row id = some row) (hr' : t'.row id = some row')
    (hs : row.status ≠ .pending) : row'.status ≠ .pending := by
  obtain ⟨row₂, hr₂, hev⟩ := h id row hr
  obtain rfl : row' = row₂ := Option.some.inj (hr'.symm.trans hr₂)
  exact hev.not_pending hs

theorem not_pending_reconcile (h : runOn (reconcile S U delivered) w = (.ok (), w'))
    (hw : w.store.Minted U) (hid : id ∈ delivered) (hrw : w.store.table.row id = some row)
    (hrw' : w'.store.table.row id = some row') : row'.status ≠ .pending := by
  unfold reconcile at h
  rw [if_neg (by simp [List.ne_nil_of_mem hid])] at h
  obtain ⟨mid, hb, -, ha⟩ :=
    statement_ok (R := Follows U []) follows_refl follows_trans follows_tool h
  obtain ⟨hmi, he, -⟩ := hb hw
  obtain ⟨ro, hr, -⟩ := he id row hrw
  have hne : ¬ delivered.isEmpty = true := by simp [List.ne_nil_of_mem hid]
  -- the statement leaves no listed row pending
  have hs : mid.store.Follows U delivered
      (mid.store.markCallbacksDelivered delivered (S.now mid.env)) := follows_markDelivered _ _
  obtain ⟨hm, -, -⟩ := hs hmi
  obtain ⟨-, ha, -⟩ := ha hm
  have hma : ∃ r, (mid.store.markCallbacksDelivered delivered (S.now mid.env)).table.row id = some r ∧
      r.status ≠ .pending := by
    simp only [markCallbacksDelivered, if_neg hne, updateDelivered, Table.row_update, hr]
    refine ⟨_, rfl, ?_⟩
    have hk : ro.callbackId ∈ delivered := by rwa [Table.key_of_row hr]
    by_cases hp : ro.isPending = true
    · simp [hk, hp]
    · simp only [hp]
      simpa [CallbackRow.isPending] using hp
  obtain ⟨r, hro, hst⟩ := hma
  exact ha.not_pending hro hrw' hst

/-- A poll that succeeds emits claimed callbacks, which are in the table then. Each
was pending before the poll if it existed, and none is in the checkpoint the poll
started from; the new checkpoint lists exactly the batch. -/
theorem poll_ok (h : runOn (poll S U C checkpoint) w = (.ok p, w')) (hw : w.store.Minted U) :
    ∃ c : List StoredCallback,
      p.events.map (·.messageId) = c.map (fun cb => some (callbackMessageId cb.callbackId)) ∧
      p.checkpoint = pollCheckpoint C (!(C.fromCheckpoint checkpoint).isEmpty) p.events (c.map (·.callbackId)) ∧
      ∀ ca ∈ c, (∃ row', w'.store.table.row ca.callbackId = some row') ∧
        ∀ row, w.store.table.row ca.callbackId = some row →
          row.status = .pending ∧ ca.callbackId ∉ C.fromCheckpoint checkpoint := by
  obtain ⟨_, w₁, hre, h⟩ := runOn_bind_eq_ok.mp h
  obtain ⟨listed, w₂, hl, h⟩ := runOn_bind_eq_ok.mp h
  obtain ⟨due, w₃, hg, h⟩ := runOn_bind_eq_ok.mp h
  obtain ⟨e, w₄, hc, h⟩ := runOn_bind_eq_ok.mp h
  obtain ⟨w₅, w₆, hge, h⟩ := runOn_bind_eq_ok.mp h
  obtain ⟨events, w₇, hev, h⟩ := runOn_bind_eq_ok.mp h
  cases h
  refine ⟨_, messageIds_mapM (congrArg Prod.fst hev), rfl, fun ca hm => ?_⟩
  have hli : ca ∈ listed :=
    (List.mem_filter.mp ((deliverableCallbacks_sublist S hg).subset (List.mem_filter.mp hm).1)).1
  obtain ⟨hw₁, he₁, -⟩ := (preserves_reconcile S _).of_run hre hw
  obtain ⟨mid, hb, rfl, ha⟩ :=
    statement_ok (R := Follows U []) follows_refl follows_trans follows_tool hl
  obtain ⟨hmi, he₂, -⟩ := hb hw₁
  obtain ⟨r, hr, hp⟩ := pending_of_mem_listDueCallbacks hli
  refine ⟨?_, fun row hro => ⟨?_, fun hid => ?_⟩⟩
  · -- the row that was listed stays to the end of the poll
    have hrs : mid.store.Follows U [] w₄.store :=
      follows_trans _ _ _ ha (follows_trans _ _ _ ((preserves_deliverableCallbacks S _).of_run hg)
        ((preserves_claim S _).of_run hc))
    obtain ⟨-, he, -⟩ := hrs hmi
    obtain ⟨row', hro', -⟩ := he _ r hr
    have hs : w₄ = w' := (congrArg Prod.snd hge).trans (congrArg Prod.snd hev)
    exact ⟨row', hs ▸ hro'⟩
  · by_contra hst
    exact (he₁.trans he₂).not_pending hro hr hst hp
  · obtain ⟨row₁, hro₁, -⟩ := he₁ _ row hro
    have hcl := not_pending_reconcile S hre hw hid hro hro₁
    exact he₂.not_pending hro₁ hr hcl hp

theorem poll_settles (h : runOn (poll S U C checkpoint) w = (.ok p, w')) (hw : w.store.Minted U)
    (hid : id ∈ C.fromCheckpoint checkpoint) (hro : w.store.table.row id = some row)
    (hro' : w'.store.table.row id = some row') : row'.status ≠ .pending := by
  obtain ⟨_, w₁, hr, h⟩ := runOn_bind_eq_ok.mp h
  obtain ⟨hw₁, he₁, -⟩ := (preserves_reconcile S _).of_run hr hw
  obtain ⟨row₁, hro₁, -⟩ := he₁ id row hro
  have hc := not_pending_reconcile S hr hw hid hro hro₁
  have hre : w₁.store.Follows U [] w'.store := (preserves_pollDue S C _).of_run h
  exact (hre hw₁).2.1.not_pending hro₁ hro' hc

end AgentiumOs.Callbacks
