import AgentiumOs.Lib.StableSort
import AgentiumOs.Transcript.Engine

/-! The agent prompt against the transcript it is taken from. A page is a selection
from the transcript: the items it reaches are those of the oldest rows, whatever the
compaction boundary is. The prompt therefore shows the summary and the part after
the boundary that the page happens to reach, which is the recent tail only when the
oldest rows are the recent ones. -/

namespace AgentiumOs.Transcript

open Lib.StableSort List

namespace ProvenanceStore

variable (store : ProvenanceStore) (contextId : String) (taskId : Option String)

/-- Every index row a read of the scope may use, with the same widening to the context. -/
def transcriptIndexRows : List IndexRow :=
  let taskEntity := taskId.map taskEntityIdString
  let rows := store.indexRows contextId none taskEntity
  if rows.isEmpty && taskEntity.isSome then store.indexRows contextId none none else rows

/-- The rows of the transcript, where no limit applies. -/
def transcriptRows : List NodeRow :=
  let rows := store.transcriptIndexRows contextId taskId
  if rows.isEmpty then store.graphRows contextId taskId none
  else store.fetchTranscriptNodesByIds (rows.map IndexRow.nodeId)

/-- The transcript of a scope: the items of all its rows, in transcript order. -/
def transcript : List ConversationContextItem :=
  store.conversationContextFiltered contextId none taskId none true false
    (some (store.transcriptRows contextId taskId))

/-- A page of `limit` reaches an item that comes from one of the oldest `limit` index rows, or, where
nothing is indexed, that is itself among the oldest `limit` items. -/
def reaches (limit : ℕ) (item : ConversationContextItem) : Bool :=
  let rows := store.transcriptIndexRows contextId taskId
  if rows.isEmpty then item ∈ (store.transcript contextId taskId).take limit
  else item.nodeId.any fun id => id ∈ (rows.take limit).map IndexRow.nodeId

def itemsAfter (boundary : ℕ) : List ConversationContextItem :=
  (store.transcript contextId taskId).filter fun item => boundary < item.timestampMs

variable {store contextId taskId}

/-! ### Rendering a selection of rows -/

theorem flatMap_renderRow_filter (ids : List String) (r : List NodeRow) :
    (r.filter fun row => row.nodeId ∈ ids).flatMap renderRow =
      (r.flatMap renderRow).filter fun item => item.nodeId.any (· ∈ ids) := by
  induction r with
  | nil => rfl
  | cons row r ih =>
    rw [flatMap_cons, filter_append, ← ih]
    by_cases hr : row.nodeId ∈ ids
    · have ha : (renderRow row).filter (fun item => item.nodeId.any (· ∈ ids)) = renderRow row := by
        refine filter_eq_self.mpr fun item hi => ?_
        simp [(renderRow_renderedFrom hi).nodeId, hr]
      rw [filter_cons_of_pos (by simpa using hr), flatMap_cons, ha]
    · have hn : (renderRow row).filter (fun item => item.nodeId.any (· ∈ ids)) = [] := by
        refine filter_eq_nil_iff.mpr fun item hi => ?_
        simp [(renderRow_renderedFrom hi).nodeId, hr]
      rw [filter_cons_of_neg (by simpa using hr), hn, nil_append]

/-- Reading some of the rows gives their items of the full read, in the same order: both sorts are
stable. -/
theorem conversationContextFiltered_filter (ids : List String) (r : List NodeRow) :
    store.conversationContextFiltered contextId none taskId none true false
        (some (r.filter fun row => row.nodeId ∈ ids)) =
      (store.conversationContextFiltered contextId none taskId none true false (some r)).filter
        fun item => item.nodeId.any (· ∈ ids) := by
  simp only [conversationContextFiltered, Option.getD_some, Bool.false_eq_true, if_false, append_nil]
  rw [filter_insertionSort, ← flatMap_renderRow_filter, filter_insertionSort]

variable {row other : NodeRow}

theorem node_eq_of_nodeId_eq (hr : row ∈ store.nodes) (ho : other ∈ store.nodes)
    (h : row.nodeId = other.nodeId) : row = other :=
  inj_on_of_nodup_map store.nodes_unique hr ho h

theorem nodup_items {r : List NodeRow} (hn : r.Nodup) (hs : ∀ row ∈ r, row ∈ store.nodes) :
    (r.flatMap renderRow).Nodup := by
  refine nodup_flatMap.mpr ⟨fun row _ => renderRow_nodup row, ?_⟩
  refine hn.imp_of_mem fun {row other} hr ho hne item hi hi' => hne ?_
  have hid : some row.nodeId = some other.nodeId :=
    (renderRow_renderedFrom hi).nodeId.symm.trans (renderRow_renderedFrom hi').nodeId
  exact node_eq_of_nodeId_eq (hs row hr) (hs other ho) (Option.some.inj hid)

theorem mem_graphRows {af : Option ℕ} (h : row ∈ store.graphRows contextId taskId af) : row ∈ store.nodes := by
  unfold graphRows at h
  cases taskId with
  | none => exact mem_of_mem_filter h
  | some task =>
    simp only [mem_append] at h
    rcases h with (h | h) | h <;> exact mem_of_mem_filter h

theorem nodup_nodes : store.nodes.Nodup := List.Nodup.of_map _ store.nodes_unique

theorem nodup_graphRows : (store.graphRows contextId taskId none).Nodup := by
  cases taskId with
  | none => exact nodup_nodes.filter _
  | some task =>
    refine ((nodup_nodes.filter _).append (nodup_nodes.filter _) ?_).append (nodup_nodes.filter _) ?_
    -- each query asks for one kind of row
    · intro row hme hca
      have hm := (mem_filter.mp hme).2
      have hc := (mem_filter.mp hca).2
      cases hb : row.body <;> simp [hb, NodeBody.isMessage, NodeBody.isToolCall] at hm hc
    · intro row hr hst
      have hs := (mem_filter.mp hst).2
      rcases mem_append.mp hr with hro | hro
      · have hm := (mem_filter.mp hro).2
        cases hb : row.body <;> simp [hb, NodeBody.isMessage, NodeBody.isSessionStep] at hm hs
      · have hc := (mem_filter.mp hro).2
        cases hb : row.body <;> simp [hb, NodeBody.isToolCall, NodeBody.isSessionStep] at hc hs

theorem mem_transcriptRows (h : row ∈ store.transcriptRows contextId taskId) : row ∈ store.nodes := by
  unfold transcriptRows at h
  dsimp only at h
  split_ifs at h
  · exact mem_graphRows h
  · exact mem_of_mem_filter h

theorem nodup_transcriptRows : (store.transcriptRows contextId taskId).Nodup := by
  unfold transcriptRows
  dsimp only
  split_ifs
  · exact nodup_graphRows
  · exact nodup_nodes.filter _

theorem conversationContextFiltered_perm (r : List NodeRow) :
    (store.conversationContextFiltered contextId none taskId none true false (some r)).Perm
      (r.flatMap renderRow) := by
  simp only [conversationContextFiltered, Bool.false_eq_true, if_false, append_nil]
  exact (perm_insertionSort _ _).trans ((perm_insertionSort _ _).flatMap_right _)

theorem transcript_perm :
    (store.transcript contextId taskId).Perm ((store.transcriptRows contextId taskId).flatMap renderRow) :=
  conversationContextFiltered_perm _

theorem nodup_transcript : (store.transcript contextId taskId).Nodup :=
  transcript_perm.nodup_iff.mpr (nodup_items nodup_transcriptRows fun _ => mem_transcriptRows)

theorem transcript_not_live_planning (h : i ∈ store.transcript contextId taskId) :
    itemIsLivePlanningObligation i = false := by
  obtain ⟨row, -, hi⟩ := mem_flatMap.mp (transcript_perm.mem_iff.mp h)
  have hc := (renderRow_renderedFrom hi).not_planning
  unfold itemIsLivePlanningObligation
  split
  · next event heq => exact absurd heq (hc event)
  · rfl

variable {limit : ℕ}

theorem isEmpty_take (hl : 1 ≤ limit) (l : List α) : (l.take limit).isEmpty = l.isEmpty := by
  obtain ⟨n, rfl⟩ := Nat.exists_eq_add_of_le' hl
  cases l <;> rfl

theorem pageIndexRows_fst (hl : 1 ≤ limit) (p : TranscriptProjectionProfile) :
    (store.pageIndexRows ⟨contextId, taskId, none, limit, p⟩ limit).1 =
      (store.transcriptIndexRows contextId taskId).take limit := by
  unfold pageIndexRows transcriptIndexRows fetchTranscriptIndexRows
  dsimp only
  rw [isEmpty_take hl]
  split_ifs <;> rfl

theorem fetchTranscriptNodesByIds_of_subset {ids all : List String} (hs : ids ⊆ all) :
    store.fetchTranscriptNodesByIds ids =
      (store.fetchTranscriptNodesByIds all).filter fun row => row.nodeId ∈ ids := by
  unfold fetchTranscriptNodesByIds
  rw [filter_filter]
  refine filter_congr fun row _ => ?_
  by_cases hid : row.nodeId ∈ ids
  · simp [hs hid]
  · simp [hid]

/-- Nothing is indexed: the page is the beginning of the transcript read from the graph. -/
theorem graph_page_eq (he : (store.transcriptIndexRows contextId taskId).isEmpty) :
    store.conversationContextFiltered contextId (some limit) taskId none true false none =
      (store.transcript contextId taskId).filter (store.reaches contextId taskId limit) := by
  have ht : store.conversationContextFiltered contextId (some limit) taskId none true false none =
      (store.transcript contextId taskId).take limit := by
    unfold transcript transcriptRows
    rw [if_pos he]
    rfl
  rw [ht, take_eq_filter nodup_transcript]
  refine filter_congr fun item _ => ?_
  unfold reaches
  rw [if_pos he]

/-- The index serves the page: it holds the items of the first `limit` rows. -/
theorem index_page_eq (he : ¬ (store.transcriptIndexRows contextId taskId).isEmpty) :
    store.conversationContextFiltered contextId none taskId none true false
        (some (store.fetchTranscriptNodesByIds
          (((store.transcriptIndexRows contextId taskId).take limit).map IndexRow.nodeId))) =
      (store.transcript contextId taskId).filter (store.reaches contextId taskId limit) := by
  rw [fetchTranscriptNodesByIds_of_subset ((take_sublist limit _).map IndexRow.nodeId).subset,
    conversationContextFiltered_filter]
  unfold transcript transcriptRows
  rw [if_neg he]
  refine filter_congr fun item _ => ?_
  unfold reaches
  rw [if_neg he]

theorem page_items (hl : 1 ≤ limit) (hp : p.enrichFromGraphExtensions = false) :
    (store.page ⟨contextId, taskId, none, limit, p⟩).items =
      (store.transcript contextId taskId).filter (store.reaches contextId taskId limit) := by
  have hm : max limit 1 = limit := max_eq_left hl
  have hr : (store.pageIndexRows ⟨contextId, taskId, none, limit, p⟩ limit).1 =
      (store.transcriptIndexRows contextId taskId).take limit := pageIndexRows_fst hl p
  unfold page
  dsimp only
  rw [hm, hp, hr, isEmpty_take hl]
  by_cases he : (store.transcriptIndexRows contextId taskId).isEmpty
  · rw [if_pos he]
    exact graph_page_eq he
  · rw [if_neg he]
    exact index_page_eq he

/-- The prompt shows the summary and, of the time after the boundary, what the page reaches. -/
theorem conversationContextForAgentPrompt_eq (hl : 1 ≤ limit) {head : ContextCompactionHead}
    (hh : store.latestCompactionHead contextId taskId = some head) :
    store.conversationContextForAgentPrompt contextId (some limit) taskId =
      head.summaryItem :: (store.itemsAfter contextId taskId head.coveredEventOrderEnd).filter
        (store.reaches contextId taskId limit) := by
  unfold conversationContextForAgentPrompt compactedConversationContext
  dsimp only [Option.getD_some]
  rw [page_items hl rfl, hh]
  dsimp only [applyCompactionProfile, applyAgentPromptCompaction]
  rw [itemsAfter, filter_filter, filter_filter]
  congr 1
  refine filter_congr fun item hi => ?_
  rw [transcript_not_live_planning hi, Bool.or_false, Bool.and_comm]

/-- The last `limit` of some items, in their order. -/
def mostRecent (limit : ℕ) (items : List ConversationContextItem) : List ConversationContextItem :=
  items.drop (items.length - limit)

def allButMostRecent (limit : ℕ) (items : List ConversationContextItem) : List ConversationContextItem :=
  items.take (items.length - limit)

/-- The prompt is the summary and the most recent items after the boundary, at most `limit` of them,
exactly when the page reaches all of these and no older item after the boundary. -/
theorem prompt_recent_tail_iff (store : ProvenanceStore) (contextId : String) (taskId : Option String)
    {limit : ℕ} (hlimit : 1 ≤ limit) {head : ContextCompactionHead}
    (hhead : store.latestCompactionHead contextId taskId = some head) :
    store.conversationContextForAgentPrompt contextId (some limit) taskId =
        head.summaryItem :: mostRecent limit (store.itemsAfter contextId taskId head.coveredEventOrderEnd) ↔
      (∀ item ∈ allButMostRecent limit (store.itemsAfter contextId taskId head.coveredEventOrderEnd),
        ¬ store.reaches contextId taskId limit item) ∧
      ∀ item ∈ mostRecent limit (store.itemsAfter contextId taskId head.coveredEventOrderEnd),
        store.reaches contextId taskId limit item := by
  rw [conversationContextForAgentPrompt_eq hlimit hhead, cons_inj_right]
  exact filter_eq_drop_iff (nodup_transcript.filter _) _

end ProvenanceStore

/-- A user message of context `ctx`. -/
def noteRow (nodeId anchor text : String) (eventOrder : ℕ) : NodeRow :=
  { nodeId
    eventOrder := some eventOrder
    activityAnchor := some anchor
    contexts := ["ctx"]
    tasks := []
    body := .message ⟨"ROLE_USER", text, [], .absent, none⟩ }

def noteIndexRow (nodeId : String) (eventOrder : ℕ) : IndexRow := ⟨"ctx", nodeId, eventOrder, none⟩

def threeNotesHead : ContextCompactionHead := ⟨"c1", 1, 1, "wants a flight", .postTurnThreshold, 4, none⟩

def threeNotes : ProvenanceStore where
  nodes := [noteRow "m1" "a1" "book a flight" 1, noteRow "m2" "a2" "to Lisbon" 2, noteRow "m3" "a3" "tomorrow" 3]
  index := [noteIndexRow "m1" 1, noteIndexRow "m2" 2, noteIndexRow "m3" 3]
  compactions := [("ctx", threeNotesHead)]
  extensions := fun _ _ _ _ => []
  nodes_unique := by decide
  index_unique := by decide

/-- With room for all rows the prompt is the summary and the two messages after the boundary. -/
theorem prompt_recent_tail_threeNotes : threeNotes.conversationContextForAgentPrompt "ctx" (some 3) none =
      threeNotesHead.summaryItem ::
        ProvenanceStore.mostRecent 3 (threeNotes.itemsAfter "ctx" none threeNotesHead.coveredEventOrderEnd) :=
  (ProvenanceStore.prompt_recent_tail_iff threeNotes "ctx" none (by decide) (by decide +kernel)).mpr
    (by decide +kernel)

/-- With a limit of two the page stops at the second message: the newest one is lost although two
items after the boundary fit. -/
theorem newest_message_lost : threeNotes.latestCompactionHead "ctx" none = some threeNotesHead ∧
    (threeNotes.itemsAfter "ctx" none threeNotesHead.coveredEventOrderEnd).map (·.activityAnchor) = ["a2", "a3"] ∧
    (threeNotes.conversationContextForAgentPrompt "ctx" (some 2) none).map (·.activityAnchor) = ["c1", "a2"] ∧
    threeNotes.conversationContextForAgentPrompt "ctx" (some 2) none ≠ threeNotesHead.summaryItem ::
        ProvenanceStore.mostRecent 2 (threeNotes.itemsAfter "ctx" none threeNotesHead.coveredEventOrderEnd) := by
  decide +kernel

end AgentiumOs.Transcript
