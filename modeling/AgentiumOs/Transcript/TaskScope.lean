import AgentiumOs.Transcript.Coverage

/-! The pages of one task. A page that finds no index row of its task after the
cursor is read from the rows of the whole context, on a later page as on the first:
once the rows of the task are used up, the rows of other tasks follow. -/

namespace AgentiumOs.Transcript

open ProvenanceStore

namespace HistoryStore

variable (h : HistoryStore) (contextId task : String)

/-- The index rows of a task after a cursor, in index order. -/
def taskRowsAfter (cursor : ℕ) : List IndexRow :=
  h.provenance.indexRows contextId (afterCursor cursor) (some (taskEntityIdString task))

/-- A node of the context that is indexed under another task and not linked from this one. -/
def IsForeign (node : NodeRow) : Prop :=
  task ∉ node.tasks ∧ ∃ r ∈ h.index, r.contextId = contextId ∧ r.nodeId = node.nodeId ∧
    ∃ other, r.taskEntityId = some other ∧ other ≠ taskEntityIdString task

/-- An item that belongs to a different task of the same context. The lines of a page are read for
the task of the request and come from no row. -/
def BelongsElsewhere (item : ConversationContextItem) : Prop :=
  ∃ node ∈ h.nodes, item.nodeId = some node.nodeId ∧ h.IsForeign contextId task node

/-- Where the task has no row after the cursor, no foreign row among the next of the context, as
many as a page takes, has an item. -/
def StaysInTask (req : ConversationHistoryRequest) (cursor : ℕ) : Prop :=
  h.taskRowsAfter req.contextId task cursor = [] →
    ∀ r ∈ (h.rowsAfter req.contextId cursor).take req.limit, ∀ node ∈ h.nodes, node.nodeId = r.nodeId →
      node.isReadable → h.IsForeign req.contextId task node → renderRow node = []

variable {h contextId task} {req : ConversationHistoryRequest} {cursor : ℕ} {item : ConversationContextItem}
  {node : NodeRow}

theorem pageIndexRows_of_task (ht : req.taskId = some task) :
    h.provenance.pageIndexRows (req.transcriptPageRequest cursor) req.limit =
      if h.taskRowsAfter req.contextId task cursor = [] then
        ((h.rowsAfter req.contextId cursor).take req.limit, .contextFallback)
      else ((h.taskRowsAfter req.contextId task cursor).take req.limit, .none) := by
  simp only [pageIndexRows, fetchTranscriptIndexRows,
    ConversationHistoryRequest.transcriptPageRequest, ht, Option.map_some, Option.isSome_some,
    Bool.and_true, isEmpty_take req.limit_pos]
  refine if_congr ?_ rfl rfl
  exact List.isEmpty_iff

theorem pageRows_of_context (ht : req.taskId = some task) (hn : h.taskRowsAfter req.contextId task cursor = []) :
    h.pageRows req cursor = (h.rowsAfter req.contextId cursor).take req.limit := by
  rw [pageRows, pageIndexRows_of_task ht, if_pos hn]

theorem pageRows_of_task (ht : req.taskId = some task) (hs : h.taskRowsAfter req.contextId task cursor ≠ []) :
    h.pageRows req cursor = (h.taskRowsAfter req.contextId task cursor).take req.limit := by
  rw [pageRows, pageIndexRows_of_task ht, if_neg hs]

theorem not_isForeign_of_task (hr : r ∈ h.taskRowsAfter contextId task cursor) (hid : r.nodeId = node.nodeId) :
    ¬ h.IsForeign contextId task node := by
  rintro ⟨-, r', hr', hc', hid', other, ho, hne⟩
  simp only [taskRowsAfter, indexRows, List.mem_insertionSort, List.mem_filter,
    Bool.and_eq_true, Bool.or_eq_true, decide_eq_true_eq, reduceCtorEq, false_or] at hr
  obtain ⟨hm, ⟨hc, -⟩, he⟩ := hr
  have heq : r = r' := by
    refine List.inj_on_of_nodup_map h.index_unique hm hr' ?_
    rw [hc, hc', hid, hid']
  rw [heq, ho] at he
  exact hne (Option.some.inj he)

theorem mem_tasks_of_mem_graphRows (hn : node ∈ h.provenance.graphRows contextId (some task) after) :
    task ∈ node.tasks := by
  simp only [graphRows, fetchScopedConversationNodes, List.mem_append,
    List.mem_filter, Bool.and_eq_true, decide_eq_true_eq] at hn
  rcases hn with (⟨-, -, -, ht⟩ | ⟨-, -, -, ht⟩) | ⟨-, -, -, ht⟩ <;> exact ht

theorem belongsElsewhere_iff (hi : item ∈ h.found req cursor) : h.BelongsElsewhere contextId task item ↔
      ∃ node ∈ h.pageNodes req cursor, item ∈ renderRow node ∧ h.IsForeign contextId task node := by
  constructor
  · rintro ⟨node, hn, hid, hf⟩
    rcases mem_found.mp hi with ⟨s, hs, hr⟩ | hl
    · have hm : s ∈ h.provenance.nodes := mem_pageNodes hs
      have hsa : s = node := by
        refine node_eq_of_nodeId_eq hm hn ?_
        exact Option.some.inj ((renderRow_renderedFrom hr).nodeId.symm.trans hid)
      exact ⟨s, hs, hr, hsa ▸ hf⟩
    · rw [nodeId_of_mem_pageLines hl] at hid
      cases hid
  · rintro ⟨node, hn, hr, hf⟩
    exact ⟨node, mem_pageNodes hn, (renderRow_renderedFrom hr).nodeId, hf⟩

theorem mem_pageNodes_iff (hr : h.pageRows req cursor ≠ []) : node ∈ h.pageNodes req cursor ↔
    node ∈ h.nodes ∧ (∃ r ∈ h.pageRows req cursor, r.nodeId = node.nodeId) ∧ node.isReadable = true := by
  rw [pageNodes, if_neg hr]
  simp [fetchTranscriptNodesByIds, provenance]

theorem not_isForeign_of_pageNodes (ht : req.taskId = some task)
    (hs : h.taskRowsAfter req.contextId task cursor ≠ []) (hn : node ∈ h.pageNodes req cursor) :
    ¬ h.IsForeign req.contextId task node := by
  have hro := pageRows_of_task ht hs
  have hne : h.pageRows req cursor ≠ [] := by
    rw [hro]
    exact fun hni => hs ((List.take_eq_nil_iff.mp hni).resolve_left (Nat.ne_of_gt req.limit_pos))
  obtain ⟨-, ⟨r, hr, hid⟩, -⟩ := (mem_pageNodes_iff hne).mp hn
  rw [hro] at hr
  exact not_isForeign_of_task (List.mem_of_mem_take hr) hid

theorem page_staysInTask_iff (ht : req.taskId = some task) :
    (∀ item ∈ h.pageItems req cursor, ¬ h.BelongsElsewhere req.contextId task item) ↔
      h.StaysInTask task req cursor := by
  constructor
  · intro hc hno r hr node hn hid hrd hf
    rw [← pageRows_of_context ht hno] at hr
    have hne := List.ne_nil_of_mem hr
    refine List.eq_nil_iff_forall_not_mem.mpr fun item hre => ?_
    have hs := (mem_pageNodes_iff hne).mpr ⟨hn, ⟨r, hr, hid.symm⟩, hrd⟩
    have hi := mem_found.mpr (.inl ⟨node, hs, hre⟩)
    refine hc item ?_ ((belongsElsewhere_iff hi).mpr ⟨node, hs, hre, hf⟩)
    rwa [(page_of_index hne).1]
  · intro hst item hi he
    obtain ⟨node, hn, hre, hf⟩ := (belongsElsewhere_iff (mem_pageItems hi)).mp he
    by_cases hno : h.taskRowsAfter req.contextId task cursor = []
    · by_cases hro : h.pageRows req cursor = []
      · -- the graph is read under the task even where the index was not
        rw [pageNodes, if_pos hro, ht] at hn
        exact hf.1 (mem_tasks_of_mem_graphRows hn)
      · obtain ⟨hm, ⟨r, hr, hid⟩, hrd⟩ := (mem_pageNodes_iff hro).mp hn
        rw [pageRows_of_context ht hno] at hr
        exact List.ne_nil_of_mem hre (hst hno r hr node hm hid.symm hrd hf)
    · exact not_isForeign_of_pageNodes ht hno hn hf

theorem taskRowsAfter_ne_nil (ht : req.taskId = some task) (hf : (h.page req cursor).scopeWidening = .none) :
    h.taskRowsAfter req.contextId task cursor ≠ [] := by
  intro hn
  have hw : (h.page req cursor).scopeWidening =
      (h.provenance.pageIndexRows (req.transcriptPageRequest cursor) req.limit).2 := by
    simp only [page, ProvenanceStore.page, ConversationHistoryRequest.transcriptPageRequest,
      max_eq_left req.limit_pos]
    split_ifs <;> rfl
  rw [hw, pageIndexRows_of_task ht, if_pos hn] at hf
  cases hf

/-- When the first page of a task is not widened, no page shows an item of another task of the
context exactly when every later page stays in the task. -/
theorem task_pages_stay_iff (h : HistoryStore) (req : ConversationHistoryRequest) (task : String)
    (htask : req.taskId = some task) (hfirst : (h.page req 0).scopeWidening = .none) :
    (∀ cursor, h.Reached req cursor → ∀ item ∈ h.pageItems req cursor,
      ¬ h.BelongsElsewhere req.contextId task item) ↔
    ∀ cursor, h.Reached req cursor → cursor ≠ 0 → h.StaysInTask task req cursor := by
  constructor
  · intro hc cursor hr _
    exact (page_staysInTask_iff htask).mp (hc cursor hr)
  · intro hs cursor hr
    refine (page_staysInTask_iff htask).mpr ?_
    by_cases hcu : cursor = 0
    · subst hcu
      exact fun hn => absurd hn (taskRowsAfter_ne_nil htask hfirst)
    · exact hs cursor hr hcu

end HistoryStore

/-! ### Two tasks of one context -/

/-- A user message of context `ctx` under a task. -/
def taskNoteRow (nodeId anchor task : String) (eventOrder : ℕ) : NodeRow where
  nodeId := nodeId
  eventOrder := some eventOrder
  activityAnchor := some anchor
  contexts := ["ctx"]
  tasks := [task]
  body := .message ⟨"ROLE_USER", "go on", [], .absent, none⟩

def taskIndexRow (nodeId task : String) (eventOrder : ℕ) : IndexRow :=
  ⟨"ctx", nodeId, eventOrder, some (taskEntityIdString task)⟩

def pagesOfOne : ConversationHistoryRequest := ⟨"ctx", some "flights", 1, by decide⟩

/-- The hotel is asked for between two messages about the flight. -/
def hotelBetweenFlights : HistoryStore where
  nodes := [taskNoteRow "m1" "a1" "flights" 1, taskNoteRow "m2" "a2" "hotels" 2, taskNoteRow "m3" "a3" "flights" 3]
  index := [taskIndexRow "m1" "flights" 1, taskIndexRow "m2" "hotels" 2, taskIndexRow "m3" "flights" 3]
  lines := .empty
  nodes_unique := by decide
  index_unique := by decide

/-- No row of the context follows the last message about the flight. -/
theorem flight_pages_stay : (hotelBetweenFlights.page pagesOfOne 0).scopeWidening = .none ∧
    ∀ cursor, hotelBetweenFlights.Reached pagesOfOne cursor →
      ∀ item ∈ hotelBetweenFlights.pageItems pagesOfOne cursor,
        ¬ hotelBetweenFlights.BelongsElsewhere "ctx" "flights" item := by
  have hf : (hotelBetweenFlights.page pagesOfOne 0).scopeWidening = .none := by decide +kernel
  have hz : hotelBetweenFlights.nextCursor pagesOfOne 0 = some 1 := by decide +kernel
  have hone : hotelBetweenFlights.nextCursor pagesOfOne 1 = some 3 := by decide +kernel
  have ht : hotelBetweenFlights.nextCursor pagesOfOne 3 = none := by decide +kernel
  have hre : ∀ cursor, hotelBetweenFlights.Reached pagesOfOne cursor →
      cursor = 0 ∨ cursor = 1 ∨ cursor = 3 := by
    intro cursor hc
    induction hc with
    | start => exact .inl rfl
    | step _ hn ih =>
      rcases ih with rfl | rfl | rfl
      · exact .inr (.inl (Option.some.inj (hn.symm.trans hz)))
      · exact .inr (.inr (Option.some.inj (hn.symm.trans hone)))
      · cases hn.symm.trans ht
  refine ⟨hf, (HistoryStore.task_pages_stay_iff hotelBetweenFlights pagesOfOne "flights" rfl hf).mpr ?_⟩
  intro cursor hc hne hno
  rcases hre cursor hc with rfl | rfl | rfl
  · exact absurd rfl hne
  · exact absurd hno (by decide +kernel)
  · have hro : (hotelBetweenFlights.rowsAfter "ctx" 3).take 1 = [] := by decide +kernel
    exact fun r hr => absurd (hro ▸ hr) List.not_mem_nil

def hotelAfterFlight : HistoryStore where
  nodes := [taskNoteRow "m1" "a1" "flights" 1, taskNoteRow "m2" "a2" "hotels" 2]
  index := [taskIndexRow "m1" "flights" 1, taskIndexRow "m2" "hotels" 2]
  lines := .empty
  nodes_unique := by decide
  index_unique := by decide

/-- The first page holds the one message about the flight, and the second that about the hotel. -/
theorem hotel_on_flight_page : (hotelAfterFlight.page pagesOfOne 0).scopeWidening = .none ∧
    hotelAfterFlight.nextCursor pagesOfOne 0 = some 1 ∧
    (hotelAfterFlight.pageItems pagesOfOne 1).map (·.activityAnchor) = ["a2"] ∧
    ∃ item ∈ hotelAfterFlight.pageItems pagesOfOne 1, hotelAfterFlight.BelongsElsewhere "ctx" "flights" item := by
  refine ⟨by decide +kernel, by decide +kernel, by decide +kernel, ?_⟩
  refine ⟨_, List.mem_cons_self, taskNoteRow "m2" "a2" "hotels" 2, by simp [hotelAfterFlight], rfl, ?_⟩
  exact ⟨by decide, taskIndexRow "m2" "hotels" 2, by simp [hotelAfterFlight], rfl, rfl,
    taskEntityIdString "hotels", rfl, by decide⟩

end AgentiumOs.Transcript
