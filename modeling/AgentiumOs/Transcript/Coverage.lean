import AgentiumOs.Transcript.Paging

/-! What the pages of a context show together. The items of the index rows are
read exactly once and in transcript order as long as no page moves the cursor over
a row it leaves for later: the cursor is the largest event order shown, so a line
ahead of unread rows, or rows of one event order on both sides of a page boundary,
lose items. -/

namespace AgentiumOs.Transcript

open ProvenanceStore List

open Lib (Cursor.Reached.eq_start_or Cursor.filter_merge)
open Lib.StableSort

namespace HistoryStore

variable (h : HistoryStore) (contextId : String)

/-- The index rows of a context after a cursor, in index order. -/
def rowsAfter (cursor : ℕ) : List IndexRow :=
  h.provenance.indexRows contextId (afterCursor cursor) none

/-- The items of all index rows of a context, in transcript order. -/
def indexTranscript : List ConversationContextItem :=
  h.provenance.conversationContextFiltered contextId none none none true false
    (some (h.provenance.fetchTranscriptNodesByIds ((h.rowsAfter contextId 0).map IndexRow.nodeId)))

def isFrom (rows : List IndexRow) (item : ConversationContextItem) : Bool :=
  item.nodeId.any (· ∈ rows.map IndexRow.nodeId)

/-- The index of a context names the event orders its nodes are stored with. -/
def OrdersAgree : Prop :=
  ∀ r ∈ h.index, r.contextId = contextId → ∀ node ∈ h.nodes, node.nodeId = r.nodeId →
    node.storedEventOrder = r.eventOrder

/-- A page of a context leaves nothing behind its cursor: it advances, and every row it leaves for
later pages that has an item lies after all the rows and lines it shows. -/
def LeavesNothingBehind (req : ConversationHistoryRequest) (cursor : ℕ) : Prop :=
  h.OrdersAgree req.contextId ∧ h.Advances req cursor ∧
    ∀ r ∈ (h.rowsAfter req.contextId cursor).drop req.limit, ∀ node ∈ h.nodes, node.nodeId = r.nodeId →
      node.isReadable → renderRow node ≠ [] →
      (∀ shown ∈ h.pageNodes req cursor, renderRow shown ≠ [] → shown.storedEventOrder < r.eventOrder) ∧
      ∀ line ∈ h.pageLines req cursor, line.timestampMs < r.eventOrder

variable {h contextId} {req : ConversationHistoryRequest} {cursor : ℕ} {item : ConversationContextItem}

theorem mem_rowsAfter : r ∈ h.rowsAfter contextId cursor ↔
    r ∈ h.index ∧ r.contextId = contextId ∧ (cursor = 0 ∨ cursor < r.eventOrder) := by
  have ha : isAfter (afterCursor cursor) r.eventOrder = true ↔ cursor = 0 ∨ cursor < r.eventOrder := by
    unfold afterCursor
    split_ifs with hp
    · simp [isAfter, Nat.ne_of_gt hp]
    · simp [isAfter, Nat.eq_zero_of_not_pos hp]
  simp only [rowsAfter, indexRows, mem_insertionSort, mem_filter,
    Bool.and_eq_true, decide_eq_true_eq, ha, decide_true, Bool.true_or, and_true]
  exact Iff.rfl

variable {cursor' : ℕ} {node : NodeRow}

theorem rowsAfter_subset (h : HistoryStore) (contextId : String) (hle : cursor ≤ cursor') :
    h.rowsAfter contextId cursor' ⊆ h.rowsAfter contextId cursor := by
  intro r hr
  obtain ⟨hm, hc, ha⟩ := mem_rowsAfter.mp hr
  refine mem_rowsAfter.mpr ⟨hm, hc, ?_⟩
  omega

theorem isFrom_iff (hi : item ∈ renderRow node) : isFrom rows item = true ↔ ∃ r ∈ rows, r.nodeId = node.nodeId := by
  simp [isFrom, (renderRow_renderedFrom hi).nodeId]

theorem mem_indexTranscript : item ∈ h.indexTranscript contextId ↔
    ∃ node ∈ h.nodes, node.isReadable = true ∧ (∃ r ∈ h.rowsAfter contextId 0, r.nodeId = node.nodeId) ∧
      item ∈ renderRow node := by
  simp only [indexTranscript, conversationContextFiltered, Option.getD_some,
    Bool.false_eq_true, if_false, append_nil, mem_insertionSort, mem_flatMap,
    fetchTranscriptNodesByIds, mem_filter, Bool.and_eq_true, decide_eq_true_eq,
    mem_map]
  constructor
  · rintro ⟨node, ⟨hn, hro, hr⟩, hi⟩
    exact ⟨node, hn, hr, hro, hi⟩
  · rintro ⟨node, hn, hr, hro, hi⟩
    exact ⟨node, ⟨hn, hro, hr⟩, hi⟩

theorem indexTranscript_sorted : (h.indexTranscript contextId).Pairwise fun a b => a.timestampMs ≤ b.timestampMs :=
  insertionSort_sorted _

theorem nodup_indexTranscript : (h.indexTranscript contextId).Nodup :=
  (conversationContextFiltered_perm _).nodup_iff.mpr
    (nodup_items (nodup_nodes.filter _) fun _ => mem_of_mem_filter)

/-! ### What a page keeps of the index -/

theorem nodeId_of_mem_pageLines (hl : item ∈ h.pageLines req cursor) : item.nodeId = none :=
  (ExtensionTables.mem_loadTranscriptExtensionItems hl).2

theorem pageRows_eq (ht : req.taskId = none) :
    h.pageRows req cursor = (h.rowsAfter req.contextId cursor).take req.limit := by
  simp [pageRows, rowsAfter, pageIndexRows, fetchTranscriptIndexRows,
    ConversationHistoryRequest.transcriptPageRequest, ht]

theorem rowsAfter_eq_nil (ht : req.taskId = none) (hr : h.pageRows req cursor = []) :
    h.rowsAfter req.contextId cursor = [] := by
  rw [pageRows_eq ht] at hr
  exact (take_eq_nil_iff.mp hr).resolve_left (Nat.ne_of_gt req.limit_pos)

theorem filter_pageItems (ht : req.taskId = none) (hro : h.pageRows req cursor ≠ []) :
    (h.pageItems req cursor).filter (isFrom (h.rowsAfter req.contextId 0)) =
      (h.indexTranscript req.contextId).filter (isFrom (h.pageRows req cursor)) := by
  have hs : h.pageRows req cursor ⊆ h.rowsAfter req.contextId 0 := by
    rw [pageRows_eq ht]
    exact fun r hr => rowsAfter_subset h _ cursor.zero_le (mem_of_mem_take hr)
  have hn : h.pageNodes req cursor = h.provenance.fetchTranscriptNodesByIds
      ((h.pageRows req cursor).map IndexRow.nodeId) := if_neg hro
  have hk : (h.rowItems req cursor).filter (isFrom (h.rowsAfter req.contextId 0)) =
      h.rowItems req cursor := by
    refine filter_eq_self.mpr fun item hi => ?_
    obtain ⟨node, hno, hre⟩ := mem_flatMap.mp hi
    rw [mem_insertionSort, hn] at hno
    have hid := (Bool.and_eq_true_iff.mp (mem_filter.mp hno).2).1
    obtain ⟨r, hr, heq⟩ := mem_map.mp (of_decide_eq_true hid)
    exact (isFrom_iff hre).mpr ⟨r, hs hr, heq⟩
  have hl : (h.pageLines req cursor).filter (isFrom (h.rowsAfter req.contextId 0)) = [] := by
    refine filter_eq_nil_iff.mpr fun item hli => ?_
    simp [isFrom, nodeId_of_mem_pageLines hli]
  rw [(page_of_index hro).1, found, filter_insertionSort, filter_append, hk, hl]
  refine Eq.trans ?_ (conversationContextFiltered_filter _ _)
  rw [← fetchTranscriptNodesByIds_of_subset (map_subset _ hs), ← hn]
  simp [conversationContextFiltered, rowItems]

theorem lt_storedEventOrder_of_mem_graphRows (hp : 0 < cursor)
    (hn : node ∈ h.provenance.graphRows contextId none (afterCursor cursor)) : cursor < node.storedEventOrder := by
  simp only [graphRows, fetchScopedConversationNodes, afterCursor, if_pos hp, mem_filter, Bool.and_eq_true] at hn
  obtain ⟨-, ⟨-, ha⟩, -⟩ := hn
  cases ho : node.eventOrder with
  | none => simp [ho] at ha
  | some order => simpa [ho, isAfter, NodeRow.storedEventOrder] using ha

/-- A page read from the graph shows nothing of the index: no row lies after its cursor. -/
theorem filter_pageItems_of_graph (ht : req.taskId = none) (hro : h.pageRows req cursor = [])
    (ha : cursor = 0 ∨ h.OrdersAgree req.contextId) :
    (h.pageItems req cursor).filter (isFrom (h.rowsAfter req.contextId 0)) = [] := by
  have he := rowsAfter_eq_nil ht hro
  refine filter_eq_nil_iff.mpr fun item hi hf => ?_
  rcases mem_found.mp (mem_pageItems hi) with ⟨node, hn, hre⟩ | hl
  · obtain ⟨r, hr, hid⟩ := (isFrom_iff hre).mp hf
    obtain ⟨hm, hc, -⟩ := mem_rowsAfter.mp hr
    have haf : cursor = 0 ∨ cursor < r.eventOrder := by
      refine (Nat.eq_zero_or_pos cursor).imp_right fun hp => ?_
      have ha := ha.resolve_left (Nat.ne_of_gt hp)
      rw [← ha r hm hc node (mem_pageNodes hn) hid.symm]
      rw [pageNodes, if_pos hro, ht] at hn
      exact lt_storedEventOrder_of_mem_graphRows hp hn
    exact not_mem_nil (he ▸ mem_rowsAfter.mpr ⟨hm, hc, haf⟩)
  · simp [isFrom, nodeId_of_mem_pageLines hl] at hf

/-- What is left of the index transcript after a cursor. -/
def left (h : HistoryStore) (contextId : String) (cursor : ℕ) : List ConversationContextItem :=
  (h.indexTranscript contextId).filter (isFrom (h.rowsAfter contextId cursor))

theorem left_zero : h.left contextId 0 = h.indexTranscript contextId := by
  refine filter_eq_self.mpr fun item hi => ?_
  obtain ⟨node, -, -, hro, hr⟩ := mem_indexTranscript.mp hi
  exact (isFrom_iff hr).mpr hro

theorem left_eq_nil (hr : h.rowsAfter contextId cursor = []) : h.left contextId cursor = [] := by
  rw [left, hr]
  exact filter_eq_nil_iff.mpr fun item _ => by simp [isFrom]

theorem last_page (ht : req.taskId = none) (ha : cursor = 0 ∨ h.OrdersAgree req.contextId)
    (hf : ¬ h.IsFull req cursor) :
    (h.pageItems req cursor).filter (isFrom (h.rowsAfter req.contextId 0)) = h.left req.contextId cursor := by
  by_cases hr : h.pageRows req cursor = []
  · rw [filter_pageItems_of_graph ht hr ha, left_eq_nil (rowsAfter_eq_nil ht hr)]
  · rw [IsFull, if_neg hr, pageRows_eq ht, length_take] at hf
    rw [filter_pageItems ht hr, pageRows_eq ht, take_of_length_le (by omega)]
    rfl

/-- A row left for later that has an item lies after the next cursor. -/
theorem nextCursor_lt (hk : h.LeavesNothingBehind req cursor) (hn : h.nextCursor req cursor = some cursor')
    (hr : r ∈ (h.rowsAfter req.contextId cursor).drop req.limit) (hno : node ∈ h.nodes) (hid : node.nodeId = r.nodeId)
    (hrd : node.isReadable = true) (hi : item ∈ renderRow node) : cursor' < r.eventOrder := by
  obtain ⟨-, ha, hah⟩ := hk
  obtain ⟨hra, hl⟩ := hah r hr node hno hid hrd (ne_nil_of_mem hi)
  have hlt := (lt_nextCursor_iff hn).mpr ha
  obtain ⟨-, hm⟩ := nextCursor_spec hn
  rcases maxEventOrder_cases (h.pageItems req cursor) cursor with heq | ⟨g, hg, heq⟩
  · omega
  · rw [← hm, ← heq]
    rcases mem_found.mp (mem_pageItems hg) with ⟨s, hs, hre⟩ | hli
    · rw [timestampMs_of_mem_renderRow hre]
      exact hra s hs (ne_nil_of_mem hre)
    · exact hl g hli

/-- Of a row with an item, being on the page or after the next cursor is being after this one. -/
theorem isFrom_page_or_later (ht : req.taskId = none) (hk : h.LeavesNothingBehind req cursor)
    (hn : h.nextCursor req cursor = some cursor') (hi : item ∈ h.indexTranscript req.contextId) :
    (isFrom (h.pageRows req cursor) item || isFrom (h.rowsAfter req.contextId cursor') item) =
      isFrom (h.rowsAfter req.contextId cursor) item := by
  have hlt := (lt_nextCursor_iff hn).mpr hk.2.1
  obtain ⟨node, hno, hrd, -, hre⟩ := mem_indexTranscript.mp hi
  rw [Bool.eq_iff_iff, Bool.or_eq_true, isFrom_iff hre, isFrom_iff hre, isFrom_iff hre, pageRows_eq ht]
  constructor
  · rintro (⟨r, hr, hid⟩ | ⟨r, hr, hid⟩)
    · exact ⟨r, mem_of_mem_take hr, hid⟩
    · exact ⟨r, rowsAfter_subset h _ hlt.le hr, hid⟩
  · rintro ⟨r, hr, hid⟩
    rw [← take_append_drop req.limit (h.rowsAfter req.contextId cursor), mem_append] at hr
    refine hr.imp (fun hr => ⟨r, hr, hid⟩) fun hr => ⟨r, ?_, hid⟩
    have ha := nextCursor_lt hk hn hr hno hid.symm hrd hre
    obtain ⟨hm, hc, -⟩ := mem_rowsAfter.mp (mem_of_mem_drop hr)
    exact mem_rowsAfter.mpr ⟨hm, hc, .inr ha⟩

theorem lt_of_isFrom_rowsAfter (ha : h.OrdersAgree contextId) (hp : 0 < cursor)
    (hi : item ∈ h.indexTranscript contextId)
    (hf : isFrom (h.rowsAfter contextId cursor) item = true) : cursor < item.timestampMs := by
  obtain ⟨node, hn, -, -, hre⟩ := mem_indexTranscript.mp hi
  obtain ⟨r, hr, hid⟩ := (isFrom_iff hre).mp hf
  obtain ⟨hm, hc, haf⟩ := mem_rowsAfter.mp hr
  rw [timestampMs_of_mem_renderRow hre, ha r hm hc node hn hid.symm]
  exact haf.resolve_left (Nat.ne_of_gt hp)

theorem full_page (ht : req.taskId = none) (hr : h.pageRows req cursor ≠ [])
    (hk : h.LeavesNothingBehind req cursor) (hn : h.nextCursor req cursor = some cursor') :
    (h.pageItems req cursor).filter (isFrom (h.rowsAfter req.contextId 0)) ++ h.left req.contextId cursor' =
      h.left req.contextId cursor := by
  have hlt := (lt_nextCursor_iff hn).mpr hk.2.1
  have hs := filter_pageItems ht hr
  rw [hs, left, filter_append_filter indexTranscript_sorted]
  · exact filter_congr fun item hi => isFrom_page_or_later ht hk hn hi
  · intro s hsh hf l hl hfl
    have hm : s ∈ h.pageItems req cursor :=
      mem_of_mem_filter (hs ▸ mem_filter.mpr ⟨hsh, hf⟩)
    calc s.timestampMs
        ≤ cursor' := (nextCursor_spec hn).2 ▸ le_maxEventOrder hm
      _ < l.timestampMs := lt_of_isFrom_rowsAfter hk.1 (by omega) hl hfl

/-- Where every full page reached leaves nothing behind, following the cursors ends, and the pages
together show the items of the index rows of the context exactly once and in transcript order. -/
theorem pages_cover_index (h : HistoryStore) (req : ConversationHistoryRequest) (htask : req.taskId = none)
    (hkeeps : ∀ cursor, h.Reached req cursor → h.IsFull req cursor → h.LeavesNothingBehind req cursor) :
    (h.indexTranscript req.contextId).Nodup ∧
    ∃ fuel merged, h.mergeConversationHistoryPages req fuel = some merged ∧
      merged.filter (isFrom (h.rowsAfter req.contextId 0)) = h.indexTranscript req.contextId := by
  obtain ⟨fuel, merged, hm⟩ := exists_merged fun cursor hr hf =>
    (hkeeps cursor hr hf).2.1
  refine ⟨nodup_indexTranscript, fuel, merged, hm, ?_⟩
  -- a later page follows a full one, where the orders agree
  have ha : ∀ cursor, h.Reached req cursor → cursor = 0 ∨ h.OrdersAgree req.contextId := by
    intro cursor hr
    refine (Cursor.Reached.eq_start_or hr).imp_right ?_
    rintro ⟨p, hp, hn⟩
    exact (hkeeps p hp (nextCursor_spec hn).1).1
  rw [← left_zero]
  refine Cursor.filter_merge ?_ ?_ hm
  · intro cursor hr hno
    refine last_page htask (ha cursor hr) fun hf => ?_
    rw [nextCursor_eq, if_pos hf] at hno
    cases hno
  · intro cursor cursor' hr hn
    have hpa := hkeeps cursor hr (nextCursor_spec hn).1
    by_cases hro : h.pageRows req cursor = []
    · have he := rowsAfter_eq_nil htask hro
      have hlt := (lt_nextCursor_iff hn).mpr hpa.2.1
      have he' : h.rowsAfter req.contextId cursor' = [] :=
        subset_nil.mp (he ▸ rowsAfter_subset h req.contextId hlt.le)
      rw [filter_pageItems_of_graph htask hro (ha cursor hr), left_eq_nil he, left_eq_nil he']
      rfl
    · exact full_page htask hro hpa hn

end HistoryStore

/-! ### Three messages and a failed model call -/

/-- Three messages of context `ctx`, and a model call that failed at an event order. -/
def notesAndFailedCall (eventOrder : ℕ) : HistoryStore where
  nodes := [noteRow "m1" "a1" "book a flight" 1, noteRow "m2" "a2" "to Lisbon" 2, noteRow "m3" "a3" "tomorrow" 3]
  index := [noteIndexRow "m1" 1, noteIndexRow "m2" 2, noteIndexRow "m3" 3]
  lines := { ExtensionTables.empty with
    operational := [⟨"l1", some eventOrder, some "e1", ["ctx"], [], .llmCall (some "Failed") none⟩] }
  nodes_unique := threeNotes.nodes_unique
  index_unique := threeNotes.index_unique

def pagesOfTwo : ConversationHistoryRequest := ⟨"ctx", none, 2, by decide⟩

/-- The failed call lies within the first page: the second page has the rest. -/
theorem notes_covered_by_two_pages : ((notesAndFailedCall 2).indexTranscript "ctx").Nodup ∧
    ∃ fuel merged, (notesAndFailedCall 2).mergeConversationHistoryPages pagesOfTwo fuel = some merged ∧
      merged.filter (HistoryStore.isFrom ((notesAndFailedCall 2).rowsAfter "ctx" 0)) =
        (notesAndFailedCall 2).indexTranscript "ctx" := by
  have hfi : (notesAndFailedCall 2).nextCursor pagesOfTwo 0 = some 2 := by decide +kernel
  have hs : ¬ (notesAndFailedCall 2).IsFull pagesOfTwo 2 := by decide +kernel
  have hr : ∀ cursor, (notesAndFailedCall 2).Reached pagesOfTwo cursor → cursor = 0 ∨ cursor = 2 := by
    intro cursor hc
    induction hc with
    | start => exact .inl rfl
    | step _ hn ih =>
      rcases ih with rfl | rfl
      · exact .inr (Option.some.inj (hn.symm.trans hfi))
      · exact absurd (HistoryStore.nextCursor_spec hn).1 hs
  refine HistoryStore.pages_cover_index (notesAndFailedCall 2) pagesOfTwo rfl fun cursor hc hf => ?_
  rcases hr cursor hc with rfl | rfl
  · unfold HistoryStore.LeavesNothingBehind HistoryStore.OrdersAgree HistoryStore.Advances
    decide +kernel
  · exact absurd hf hs

/-- A call that failed after the third message is shown on the first page and takes the cursor with
it: the third message is on no page. -/
theorem message_skipped_by_failed_call :
    ((notesAndFailedCall 9).indexTranscript "ctx").map (·.activityAnchor) = ["a1", "a2", "a3"] ∧
    ((notesAndFailedCall 9).mergeConversationHistoryPages pagesOfTwo 2).map
      (·.map (·.activityAnchor)) = some ["a1", "a2", "e1"] := by
  decide +kernel

end AgentiumOs.Transcript
