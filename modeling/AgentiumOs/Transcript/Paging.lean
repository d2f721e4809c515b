import AgentiumOs.Lib.Cursor
import AgentiumOs.Transcript.Extension
import AgentiumOs.Transcript.Prompt

/-! Reading the history of a conversation page by page. A full page names the next
cursor, the largest event order among the items it shows, and the next page reads
what lies after it. The cursors increase, and the reading ends, exactly as long as
every full page shows something after its own cursor. -/

namespace AgentiumOs.Transcript

open ProvenanceStore ConversationContextItem List

open Lib (Cursor.merge Cursor.Reached Cursor.exists_merge Cursor.merge_eq_none_of_stuck)
open Lib.StableSort

/-- The tables of a store, with those the lines of an operator timeline are read from. -/
structure HistoryStore where
  nodes : List NodeRow
  index : List IndexRow
  lines : ExtensionTables
  nodes_unique : (nodes.map NodeRow.nodeId).Nodup
  index_unique : (index.map fun r => (r.contextId, r.nodeId)).Nodup

def HistoryStore.provenance (h : HistoryStore) : ProvenanceStore where
  nodes := h.nodes
  index := h.index
  compactions := []
  extensions := h.lines.loadTranscriptExtensionItems
  nodes_unique := h.nodes_unique
  index_unique := h.index_unique

structure ConversationHistoryRequest where
  contextId : String
  taskId : Option String
  limit : ℕ
  limit_pos : 1 ≤ limit

/-- The first page has cursor zero and is read without a bound. -/
def afterCursor (cursor : ℕ) : Option ℕ := if 0 < cursor then some cursor else none

def ConversationHistoryRequest.transcriptPageRequest (req : ConversationHistoryRequest) (cursor : ℕ) :
    TranscriptPageRequest where
  contextId := req.contextId
  taskId := req.taskId
  afterEventOrder := afterCursor cursor
  limit := req.limit
  profile := .operatorTimeline

namespace HistoryStore

variable (h : HistoryStore) (req : ConversationHistoryRequest)

/-- The page a cursor is answered with; the cursor is the event order its token encodes. -/
def page (cursor : ℕ) : TranscriptPage := h.provenance.page (req.transcriptPageRequest cursor)

def pageItems (cursor : ℕ) : List ConversationContextItem := (h.page req cursor).items

def nextCursor (cursor : ℕ) : Option ℕ := (h.page req cursor).nextAfterEventOrder

/-- The items of all pages, when the loop over the pages ends within `fuel` of them. -/
def mergeConversationHistoryPages (fuel : ℕ) : Option (List ConversationContextItem) :=
  Cursor.merge (h.pageItems req) (h.nextCursor req) fuel 0

/-- The cursors met when the pages are followed from the first. -/
def Reached (cursor : ℕ) : Prop := Cursor.Reached (h.nextCursor req) 0 cursor

/-! ### What a page is made of -/

/-- The index rows a page takes, after the widening to the context. -/
def pageRows (cursor : ℕ) : List IndexRow :=
  (h.provenance.pageIndexRows (req.transcriptPageRequest cursor) req.limit).1

/-- The nodes a page renders: those of its index rows, or of the graph where there are none. -/
def pageNodes (cursor : ℕ) : List NodeRow :=
  if h.pageRows req cursor = [] then
    h.provenance.graphRows req.contextId req.taskId (afterCursor cursor)
  else h.provenance.fetchTranscriptNodesByIds ((h.pageRows req cursor).map IndexRow.nodeId)

/-- The items of the nodes, in the order of the rows. -/
def rowItems (cursor : ℕ) : List ConversationContextItem :=
  ((h.pageNodes req cursor).insertionSort NodeRow.le).flatMap renderRow

/-- The operational and planning lines of a page. -/
def pageLines (cursor : ℕ) : List ConversationContextItem :=
  h.lines.loadTranscriptExtensionItems req.contextId req.taskId (afterCursor cursor)
    ((h.rowItems req cursor).map ConversationContextItem.activityAnchor)

/-- All a page finds, before a page of the graph is cut to its limit. -/
def found (cursor : ℕ) : List ConversationContextItem :=
  (h.rowItems req cursor ++ h.pageLines req cursor).insertionSort ConversationContextItem.le

/-- A page is full when it has as many index rows as its limit, or, where it is read from the
graph, as many items. -/
def IsFull (cursor : ℕ) : Prop :=
  req.limit ≤ if h.pageRows req cursor = [] then (h.found req cursor).length
    else (h.pageRows req cursor).length

instance (cursor : ℕ) : Decidable (h.IsFull req cursor) :=
  inferInstanceAs (Decidable (req.limit ≤ _))

/-- A page shows something after its cursor: one of its rows or lines lies there; of what is read
from the graph, less than a page lies before. -/
def Advances (cursor : ℕ) : Prop :=
  if h.pageRows req cursor = [] then
    (h.found req cursor).countP (fun item => item.timestampMs ≤ cursor) < req.limit
  else
    (∃ node ∈ h.pageNodes req cursor, renderRow node ≠ [] ∧ cursor < node.storedEventOrder) ∨
      ∃ line ∈ h.pageLines req cursor, cursor < line.timestampMs

variable {h req} {cursor : ℕ} {item : ConversationContextItem}

theorem page_of_graph (hr : h.pageRows req cursor = []) :
    h.pageItems req cursor = (h.found req cursor).take req.limit ∧
    h.nextCursor req cursor = if req.limit ≤ ((h.found req cursor).take req.limit).length then
      some (ProvenanceStore.maxEventOrder ((h.found req cursor).take req.limit) (afterCursor cursor))
      else none := by
  have he : (h.pageRows req cursor).isEmpty = true := isEmpty_iff.mpr hr
  have hf : (h.found req cursor).take req.limit = h.provenance.conversationContextFiltered
      req.contextId (some req.limit) req.taskId (afterCursor cursor) true true none := by
    rw [found, pageLines, rowItems, pageNodes, if_pos hr]
    rfl
  unfold pageRows at he
  simp only [pageItems, nextCursor, page, ProvenanceStore.page, max_eq_left req.limit_pos, hf,
    ConversationHistoryRequest.transcriptPageRequest] at he ⊢
  rw [if_pos he]
  exact ⟨rfl, rfl⟩

theorem page_of_index (hr : h.pageRows req cursor ≠ []) : h.pageItems req cursor = h.found req cursor ∧
    h.nextCursor req cursor = if req.limit ≤ (h.pageRows req cursor).length then
      some (ProvenanceStore.maxEventOrder (h.found req cursor) (afterCursor cursor)) else none := by
  have he : ¬ (h.pageRows req cursor).isEmpty = true := fun hn => hr (isEmpty_iff.mp hn)
  have hf : h.found req cursor = h.provenance.conversationContextFiltered
      req.contextId none req.taskId (afterCursor cursor) true true
      (some (h.provenance.fetchTranscriptNodesByIds ((h.pageRows req cursor).map IndexRow.nodeId))) := by
    rw [found, pageLines, rowItems, pageNodes, if_neg hr]
    rfl
  unfold pageRows at he hf
  simp only [pageItems, nextCursor, page, ProvenanceStore.page, max_eq_left req.limit_pos,
    hf, ConversationHistoryRequest.transcriptPageRequest] at he ⊢
  rw [if_neg he]
  exact ⟨rfl, rfl⟩

theorem mem_pageItems (hi : item ∈ h.pageItems req cursor) : item ∈ h.found req cursor := by
  by_cases hr : h.pageRows req cursor = []
  · rw [(page_of_graph hr).1] at hi
    exact mem_of_mem_take hi
  · rwa [(page_of_index hr).1] at hi

theorem nextCursor_eq : h.nextCursor req cursor = if h.IsFull req cursor then
      some (ProvenanceStore.maxEventOrder (h.pageItems req cursor) (afterCursor cursor))
    else none := by
  by_cases hr : h.pageRows req cursor = []
  · obtain ⟨hi, hn⟩ := page_of_graph hr
    have hl : req.limit ≤ ((h.found req cursor).take req.limit).length ↔ h.IsFull req cursor := by
      rw [IsFull, if_pos hr, length_take]
      exact le_min_iff.trans (and_iff_right le_rfl)
    simp only [hn, hi, hl]
  · obtain ⟨hi, hn⟩ := page_of_index hr
    have hl : req.limit ≤ (h.pageRows req cursor).length ↔ h.IsFull req cursor := by
      rw [IsFull, if_neg hr]
    simp [hn, hi, hl]

variable {cursor' : ℕ} {node : NodeRow}

/-- The next cursor of a full page is the largest event order it shows. -/
theorem nextCursor_spec (hn : h.nextCursor req cursor = some cursor') : h.IsFull req cursor ∧
      ProvenanceStore.maxEventOrder (h.pageItems req cursor) (afterCursor cursor) = cursor' := by
  rw [nextCursor_eq] at hn
  split_ifs at hn with hf
  exact ⟨hf, Option.some.inj hn⟩

theorem afterCursor_getD : (afterCursor cursor).getD 0 = cursor := by
  unfold afterCursor
  split_ifs with hp
  · rfl
  · exact (Nat.eq_zero_of_not_pos hp).symm

theorem le_maxEventOrder {it : List ConversationContextItem} {after : Option ℕ}
    (hi : item ∈ it) : item.timestampMs ≤ ProvenanceStore.maxEventOrder it after := by
  unfold maxEventOrder
  have hm : item.timestampMs ∈ it.map timestampMs :=
    mem_map_of_mem hi
  cases hma : (it.map timestampMs).max? with
  | none => simp [max?_eq_none_iff.mp hma] at hm
  | some g => exact (max?_eq_some_iff.mp hma).2 _ hm

variable (i : List ConversationContextItem)

theorem maxEventOrder_cases (cursor : ℕ) : ProvenanceStore.maxEventOrder i (afterCursor cursor) = cursor ∨
      ∃ item ∈ i, item.timestampMs = ProvenanceStore.maxEventOrder i (afterCursor cursor) := by
  unfold maxEventOrder
  cases hm : (i.map timestampMs).max? with
  | none => exact .inl afterCursor_getD
  | some g =>
    obtain ⟨item, hi, heq⟩ := mem_map.mp (max?_eq_some_iff.mp hm).1
    exact .inr ⟨item, hi, heq⟩

theorem lt_maxEventOrder_iff (cursor : ℕ) : cursor < ProvenanceStore.maxEventOrder i (afterCursor cursor) ↔
      ∃ item ∈ i, cursor < item.timestampMs := by
  constructor
  · intro hlt
    rcases maxEventOrder_cases i cursor with heq | ⟨item, hi, heq⟩
    · omega
    · exact ⟨item, hi, by omega⟩
  · rintro ⟨item, hi, hlt⟩
    exact hlt.trans_le (le_maxEventOrder hi)

theorem mem_found : item ∈ h.found req cursor ↔
    (∃ node ∈ h.pageNodes req cursor, item ∈ renderRow node) ∨ item ∈ h.pageLines req cursor := by
  simp [found, rowItems]

theorem insertionSort_sorted :
    (i.insertionSort ConversationContextItem.le).Pairwise fun a b => a.timestampMs ≤ b.timestampMs := by
  refine (pairwise_insertionSort ConversationContextItem.le i).imp fun {a b} hle => ?_
  rcases Prod.Lex.le_iff.mp hle with hlt | ⟨heq, -⟩
  · exact le_of_lt hlt
  · exact le_of_eq heq

theorem timestampMs_of_mem_renderRow (hi : item ∈ renderRow node) : item.timestampMs = node.storedEventOrder :=
  (renderRow_renderedFrom hi).timestampMs

/-- A full page moves its cursor up exactly when it shows something after it. -/
theorem advances_iff (hf : h.IsFull req cursor) :
    (∃ item ∈ h.pageItems req cursor, cursor < item.timestampMs) ↔ h.Advances req cursor := by
  unfold Advances
  by_cases hr : h.pageRows req cursor = []
  · rw [IsFull, if_pos hr] at hf
    rw [if_pos hr, (page_of_graph hr).1]
    exact exists_mem_take_lt_iff (insertionSort_sorted _) hf cursor
  · rw [if_neg hr, (page_of_index hr).1]
    constructor
    · rintro ⟨item, hi, hlt⟩
      rcases mem_found.mp hi with ⟨node, hn, hre⟩ | hl
      · refine .inl ⟨node, hn, ne_nil_of_mem hre, ?_⟩
        rwa [← timestampMs_of_mem_renderRow hre]
      · exact .inr ⟨item, hl, hlt⟩
    · rintro (⟨node, hn, hrn, hlt⟩ | ⟨l, hl, hlt⟩)
      · obtain ⟨item, hi⟩ := exists_mem_of_ne_nil _ hrn
        refine ⟨item, mem_found.mpr (.inl ⟨node, hn, hi⟩), ?_⟩
        rwa [timestampMs_of_mem_renderRow hi]
      · exact ⟨l, mem_found.mpr (.inr hl), hlt⟩

theorem lt_nextCursor_iff (hn : h.nextCursor req cursor = some cursor') :
    cursor < cursor' ↔ h.Advances req cursor := by
  obtain ⟨hf, hm⟩ := nextCursor_spec hn
  rw [← hm, lt_maxEventOrder_iff, advances_iff hf]

theorem mem_pageNodes (hn : node ∈ h.pageNodes req cursor) : node ∈ h.nodes := by
  unfold pageNodes at hn
  split_ifs at hn
  · exact mem_graphRows hn
  · exact mem_of_mem_filter hn

theorem exists_bound (h : HistoryStore) (req : ConversationHistoryRequest) :
    ∃ bound, ∀ cursor, ∀ item ∈ h.pageItems req cursor, item.timestampMs ≤ bound := by
  obtain ⟨r, hro⟩ := (h.nodes.map NodeRow.storedEventOrder).finite_toSet.bddAbove
  obtain ⟨l, hl⟩ := ((h.lines.loadTranscriptExtensionItems req.contextId req.taskId none []).map
    timestampMs).finite_toSet.bddAbove
  refine ⟨max r l, fun cursor item hi => ?_⟩
  rcases mem_found.mp (mem_pageItems hi) with ⟨node, hn, hr⟩ | hs
  · rw [timestampMs_of_mem_renderRow hr]
    exact (hro (mem_map_of_mem (mem_pageNodes hn))).trans (le_max_left _ _)
  · have hm := (ExtensionTables.mem_loadTranscriptExtensionItems hs).1
    exact (hl (mem_map_of_mem hm)).trans (le_max_right _ _)

/-- Where every full page reached advances, the loop over the pages ends. -/
theorem exists_merged (ha : ∀ cursor, h.Reached req cursor → h.IsFull req cursor →
    h.Advances req cursor) : ∃ f merged, h.mergeConversationHistoryPages req f = some merged := by
  obtain ⟨bound, hb⟩ := exists_bound h req
  have hn : ∀ cursor cursor', h.Reached req cursor → h.nextCursor req cursor = some cursor' →
      cursor < cursor' ∧ cursor' ≤ bound := by
    intro cursor cursor' hr hn
    obtain ⟨hf, hm⟩ := nextCursor_spec hn
    have hlt := (lt_nextCursor_iff hn).mpr (ha cursor hr hf)
    rcases maxEventOrder_cases (h.pageItems req cursor) cursor with heq | ⟨item, hi, heq⟩
    · omega
    · exact ⟨hlt, (hm ▸ heq) ▸ hb cursor item hi⟩
  exact Cursor.exists_merge _ hn

end HistoryStore

/-- A tool invocation of context `ctx` that has not finished. -/
def runningCallRow (nodeId : String) (eventOrder : ℕ) : NodeRow where
  nodeId := nodeId
  eventOrder := some eventOrder
  activityAnchor := some nodeId
  contexts := ["ctx"]
  tasks := []
  body := .toolCall ⟨some "search", none, none, .null, none, none⟩

/-- The only row is that of an invocation still running. -/
def runningCall : HistoryStore where
  nodes := [runningCallRow "c1" 1]
  index := [⟨"ctx", "c1", 1, none⟩]
  lines := .empty
  nodes_unique := by decide
  index_unique := by decide

end AgentiumOs.Transcript
