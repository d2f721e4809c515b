import AgentiumOs.Transcript.Items

/-! Bounded transcript reads. A page takes the first rows of the transcript index of
its scope, or falls back to the whole context and then to the graph, and renders
them; the agent prompt puts the latest compaction summary before what a page shows
of the time after it. -/

namespace AgentiumOs.Transcript

structure IndexRow where
  contextId : String
  nodeId : String
  eventOrder : ℕ
  taskEntityId : Option String

inductive ContextCompactionTrigger where
  | postTurnThreshold
  | preModelEmergency
  | manualOperator
  deriving DecidableEq

structure ContextCompactionHead where
  activityAnchor : String
  coveredEventOrderStart : ℕ
  coveredEventOrderEnd : ℕ
  summaryText : String
  trigger : ContextCompactionTrigger
  eventOrder : ℕ
  taskEntityId : Option String
  deriving DecidableEq

/-- The tables a transcript is read from. `extensions` answers the queries for the operational and
planning lines an operator timeline adds: those of a context and task, after an event order, whose
anchors are not shown yet. -/
structure ProvenanceStore where
  nodes : List NodeRow
  index : List IndexRow
  compactions : List (String × ContextCompactionHead)
  extensions : String → Option String → Option ℕ → List String → List ConversationContextItem
  nodes_unique : (nodes.map NodeRow.nodeId).Nodup
  index_unique : (index.map fun r => (r.contextId, r.nodeId)).Nodup

inductive TranscriptProjectionProfile where
  | operatorTimeline
  | agentPromptIndex
  | agentPromptCompacted
  | liveStructuralDelta
  | replayFull
  | compactionAudit
  deriving DecidableEq

def TranscriptProjectionProfile.enrichFromGraphExtensions (profile : TranscriptProjectionProfile) : Bool :=
  profile = .operatorTimeline

structure TranscriptPageRequest where
  contextId : String
  taskId : Option String
  afterEventOrder : Option ℕ
  limit : ℕ
  profile : TranscriptProjectionProfile

inductive TranscriptScopeWidening where
  | none
  | contextFallback
  deriving DecidableEq

structure TranscriptPage where
  items : List ConversationContextItem
  maxEventOrder : ℕ
  nextAfterEventOrder : Option ℕ
  scopeWidening : TranscriptScopeWidening

/-- `event_order ASC, node_id ASC` of the index. -/
def IndexRow.le (a b : IndexRow) : Prop := toLex (a.eventOrder, a.nodeId) ≤ toLex (b.eventOrder, b.nodeId)

def NodeRow.le (a b : NodeRow) : Prop :=
  toLex (a.storedEventOrder, a.nodeId) ≤ toLex (b.storedEventOrder, b.nodeId)

/-- `cmp_transcript_items`. -/
def ConversationContextItem.le (a b : ConversationContextItem) : Prop :=
  toLex (a.timestampMs, a.activityAnchor) ≤ toLex (b.timestampMs, b.activityAnchor)

instance : DecidableRel IndexRow.le := fun a b =>
  inferInstanceAs (Decidable (toLex (a.eventOrder, a.nodeId) ≤ toLex (b.eventOrder, b.nodeId)))

instance : DecidableRel NodeRow.le := fun a b =>
  inferInstanceAs (Decidable (toLex (a.storedEventOrder, a.nodeId) ≤ toLex (b.storedEventOrder, b.nodeId)))

instance : DecidableRel ConversationContextItem.le := fun a b =>
  inferInstanceAs (Decidable (toLex (a.timestampMs, a.activityAnchor) ≤ toLex (b.timestampMs, b.activityAnchor)))

instance : Std.Total NodeRow.le := ⟨fun _ _ => le_total _ _⟩

instance : IsTrans NodeRow NodeRow.le := ⟨fun _ _ _ => le_trans⟩

instance : Std.Total ConversationContextItem.le := ⟨fun _ _ => le_total _ _⟩

instance : IsTrans ConversationContextItem ConversationContextItem.le := ⟨fun _ _ _ => le_trans⟩

/-- Rows of one order read after an exclusive bound, when there is one. -/
def isAfter (after : Option ℕ) (eventOrder : ℕ) : Bool :=
  match after with
  | some bound => bound < eventOrder
  | none => true

def taskEntityIdString (taskId : String) : String := "task" ++ ":" ++ taskId

/-- Unfinished tool invocations are not part of a transcript. -/
def NodeRow.isReadable (row : NodeRow) : Bool :=
  match row.body with
  | .toolCall props => props.activityOutcome = some "Success" ∨ props.activityOutcome = some "Failed"
  | _ => true

def NodeBody.isMessage : NodeBody → Bool
  | message _ => true
  | _ => false

def NodeBody.isToolCall : NodeBody → Bool
  | toolCall _ => true
  | _ => false

def NodeBody.isSessionStep : NodeBody → Bool
  | sessionStep _ => true
  | _ => false

namespace ProvenanceStore

variable (store : ProvenanceStore)

/-- The index rows of a scope in index order, before the limit of a query is applied. -/
def indexRows (contextId : String) (after : Option ℕ) (taskEntityId : Option String) : List IndexRow :=
  (store.index.filter fun r => r.contextId = contextId && isAfter after r.eventOrder &&
    (taskEntityId = none || r.taskEntityId = taskEntityId)).insertionSort IndexRow.le

def fetchTranscriptIndexRows (contextId : String) (after : Option ℕ) (limit : ℕ)
    (taskEntityId : Option String) : List IndexRow :=
  (store.indexRows contextId after taskEntityId).take limit

def fetchTranscriptNodesByIds (nodeIds : List String) : List NodeRow :=
  store.nodes.filter fun row => row.nodeId ∈ nodeIds && row.isReadable

/-- The nodes scoped to a context that pass a filter on the label and the task. -/
def fetchScopedConversationNodes (contextId : String) (after : Option ℕ) (labelTaskFilter : NodeRow → Bool) :
    List NodeRow :=
  store.nodes.filter fun row => contextId ∈ row.contexts && row.body ≠ .other && row.isReadable &&
    -- the bound is compared in the database, where a row without an order is not above it
    (after = none || row.eventOrder.any (isAfter after)) && labelTaskFilter row

/-- The rows a read finds in the graph: three queries, one for each kind of row, under a task. -/
def graphRows (contextId : String) (taskId : Option String) (after : Option ℕ) : List NodeRow :=
  match taskId with
  | some task =>
      store.fetchScopedConversationNodes contextId after (fun row => row.body.isMessage && task ∈ row.tasks) ++
      store.fetchScopedConversationNodes contextId after (fun row => row.body.isToolCall && task ∈ row.tasks) ++
      store.fetchScopedConversationNodes contextId after (fun row => row.body.isSessionStep && task ∈ row.tasks)
  | none => store.fetchScopedConversationNodes contextId after fun _ => true

/-- `conversation_context_filtered`: the items of the rows given, else of those found in the graph,
with the extension lines when asked for, in transcript order and cut to a limit at either end. -/
def conversationContextFiltered (contextId : String) (limit : Option ℕ) (taskId : Option String)
    (after : Option ℕ) (forwardLimit enrichExtensions : Bool) (preloadedRows : Option (List NodeRow)) :
    List ConversationContextItem :=
  let rows := (preloadedRows.getD (store.graphRows contextId taskId after)).insertionSort NodeRow.le
  let items := rows.flatMap renderRow
  let supplement :=
    if enrichExtensions then
      store.extensions contextId taskId after (items.map ConversationContextItem.activityAnchor)
    else []
  let items := (items ++ supplement).insertionSort ConversationContextItem.le
  match limit with
  | none => items
  | some n => if forwardLimit then items.take n else items.drop (items.length - n)

def maxEventOrder (items : List ConversationContextItem) (after : Option ℕ) : ℕ :=
  ((items.map ConversationContextItem.timestampMs).max?).getD (after.getD 0)

/-- The rows a page is made of, and whether its scope had to be widened to the context. -/
def pageIndexRows (request : TranscriptPageRequest) (limit : ℕ) : List IndexRow × TranscriptScopeWidening :=
  let taskEntity := request.taskId.map taskEntityIdString
  let rows := store.fetchTranscriptIndexRows request.contextId request.afterEventOrder limit taskEntity
  if rows.isEmpty && taskEntity.isSome then
    (store.fetchTranscriptIndexRows request.contextId request.afterEventOrder limit none, .contextFallback)
  else (rows, .none)

def page (request : TranscriptPageRequest) : TranscriptPage :=
  let limit := max request.limit 1
  let enrich := request.profile.enrichFromGraphExtensions
  let (indexRows, scopeWidening) := store.pageIndexRows request limit
  if indexRows.isEmpty then
    let items := store.conversationContextFiltered request.contextId (some limit) request.taskId
      request.afterEventOrder true enrich none
    let highest := maxEventOrder items request.afterEventOrder
    ⟨items, highest, if limit ≤ items.length then some highest else none, scopeWidening⟩
  else
    let rows := store.fetchTranscriptNodesByIds (indexRows.map IndexRow.nodeId)
    let items := store.conversationContextFiltered request.contextId none request.taskId
      request.afterEventOrder true enrich (some rows)
    let highest := maxEventOrder items request.afterEventOrder
    ⟨items, highest, if limit ≤ indexRows.length then some highest else none, scopeWidening⟩

/-- The newest compaction recorded for exactly this context and task. -/
def latestCompactionHead (contextId : String) (taskId : Option String) : Option ContextCompactionHead :=
  (((store.compactions.filter fun row =>
      row.1 = contextId && row.2.taskEntityId = taskId.map taskEntityIdString).map Prod.snd).insertionSort
    fun a b => b.eventOrder ≤ a.eventOrder).head?

end ProvenanceStore

def itemIsLivePlanningObligation (item : ConversationContextItem) : Bool :=
  match item.content with
  | .planning event =>
      event.kind = .planStepStatusChanged && event.newStatus.any fun s => s ≠ "completed" && s ≠ "aborted"
  | _ => false

namespace ContextCompactionHead

/-- The summary line that stands for the covered part of a transcript. -/
def summaryItem (head : ContextCompactionHead) : ConversationContextItem :=
  ⟨head.eventOrder, head.activityAnchor, "system",
    .compactionSummary head.summaryText head.coveredEventOrderStart head.coveredEventOrderEnd, none⟩

def markerItem (head : ContextCompactionHead) : ConversationContextItem :=
  ⟨head.eventOrder, head.activityAnchor, "system",
    .compactionSummary
      ("[compaction marker] covered " ++ toString head.coveredEventOrderStart ++ ".." ++
        toString head.coveredEventOrderEnd ++ " (" ++ toString head.summaryText.utf8ByteSize ++ " chars)")
      head.coveredEventOrderStart head.coveredEventOrderEnd, none⟩

end ContextCompactionHead

def applyAgentPromptCompaction (items : List ConversationContextItem) :
    Option ContextCompactionHead → List ConversationContextItem
  | none => items
  | some head =>
      head.summaryItem :: items.filter fun item =>
        head.coveredEventOrderEnd < item.timestampMs || itemIsLivePlanningObligation item

def enrichOperatorTimeline (items : List ConversationContextItem) :
    Option ContextCompactionHead → List ConversationContextItem
  | none => items
  | some head => head.markerItem :: items

def applyCompactionProfile (profile : TranscriptProjectionProfile) (items : List ConversationContextItem)
    (head : Option ContextCompactionHead) : List ConversationContextItem :=
  match profile with
  | .replayFull | .compactionAudit => items
  | .operatorTimeline => enrichOperatorTimeline items head
  | .agentPromptCompacted => applyAgentPromptCompaction items head
  | .agentPromptIndex | .liveStructuralDelta => items

def defaultLlmContextItemCap : ℕ := 40

namespace ProvenanceStore

/-- `compacted_conversation_context` without a restriction to one agent package. -/
def compactedConversationContext (store : ProvenanceStore) (contextId : String) (limit : Option ℕ)
    (taskId : Option String) : List ConversationContextItem :=
  let page := store.page
    { contextId, taskId
      afterEventOrder := none
      limit := limit.getD defaultLlmContextItemCap
      profile := .agentPromptCompacted }
  applyCompactionProfile .agentPromptCompacted page.items (store.latestCompactionHead contextId taskId)

def conversationContextForAgentPrompt (store : ProvenanceStore) (contextId : String) (limit : Option ℕ)
    (taskId : Option String) : List ConversationContextItem :=
  store.compactedConversationContext contextId limit taskId

end ProvenanceStore

end AgentiumOs.Transcript
