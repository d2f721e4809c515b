import AgentiumOs.Lib.Word
import AgentiumOs.Transcript.Engine

/-! The lines an operator timeline adds to a transcript: failed model calls,
rejected prompts and final task states of the graph, and the current intent and
plan of a task. The operational lines are read after the bound of the page; the
planning lines are those of the current plan whatever the bound is. -/

namespace AgentiumOs.Transcript

open List

open Lib.Text (toAsciiLowercase)
open Lib.Word (saturatingAdd)

inductive OperationalBody where
  | llmCall (activityOutcome functionName : Option String)
  | promptRejected (reason : Option String)
  | taskState (state oldStatus reason : Option String)

/-- A node an operational line is made from, with the contexts it is scoped to and
the tasks that made the call or have the state as their last. -/
structure OperationalRow where
  nodeId : String
  eventOrder : Option ℕ
  activityAnchor : Option String
  contexts : List String
  tasks : List String
  body : OperationalBody

structure IntentRecord where
  activityAnchorId : String
  eventOrder : ℕ
  description : String

structure PlanStepRecord where
  stepId : String
  order : ℕ
  status : String

structure PlanRecord where
  activityAnchorId : String
  eventOrder : ℕ
  planId : String
  steps : List PlanStepRecord

structure ContextPlanningIndexRow where
  contextId : String
  taskId : String
  latestPlanningEventOrder : ℕ

/-- The tables the lines are read from. `failures` holds the class and the evidence
of a failed activity; `intents` and `plans` the current ones of a task. -/
structure ExtensionTables where
  operational : List OperationalRow
  failures : List (String × String × String)
  intents : List (String × IntentRecord)
  plans : List (String × PlanRecord)
  planningIndex : List ContextPlanningIndexRow

def ExtensionTables.empty : ExtensionTables := ⟨[], [], [], [], []⟩

def isTerminalTaskStatus (raw : String) : Bool :=
  toAsciiLowercase raw ∈ ["task_state_completed", "completed", "task_state_failed", "failed",
    "task_state_canceled", "canceled", "task_state_cancelled", "cancelled", "task_state_rejected",
    "rejected"]

def OperationalBody.isTaskState : OperationalBody → Bool
  | taskState .. => true
  | _ => false

def OperationalRow.le (a b : OperationalRow) : Prop :=
  toLex (a.eventOrder.getD 0, a.nodeId) ≤ toLex (b.eventOrder.getD 0, b.nodeId)

instance : DecidableRel OperationalRow.le := fun a b =>
  inferInstanceAs (Decidable (toLex (a.eventOrder.getD 0, a.nodeId) ≤ toLex (b.eventOrder.getD 0, b.nodeId)))

/-- A line of the timeline that comes from no row of the transcript. -/
def systemLine (eventOrder : ℕ) (anchor : String) (content : ConversationItemContent) : ConversationContextItem :=
  ⟨eventOrder, anchor, "system", content, none⟩

namespace ExtensionTables

variable (t : ExtensionTables)

def contextRows (contextId : String) (after : Option ℕ) : List OperationalRow :=
  t.operational.filter fun row => contextId ∈ row.contexts && (after = none || row.eventOrder.any (isAfter after))

/-- Under a task, its calls and then its last state. -/
def operationalRows (contextId : String) (taskId : Option String) (after : Option ℕ) : List OperationalRow :=
  let rows := t.contextRows contextId after
  let rows : List OperationalRow := match taskId with
    | some task =>
        rows.filter (fun row => !row.body.isTaskState && task ∈ row.tasks) ++
        rows.filter (fun row => row.body.isTaskState && task ∈ row.tasks)
    | none => rows
  rows.insertionSort OperationalRow.le

/-- Calls that succeeded and states a task can still leave give no line. -/
def operationalContent (anchor : String) : OperationalBody → Option OperationalEventContent
  | .llmCall activityOutcome functionName =>
      if propStr activityOutcome ≠ some "Failed" then none
      else
        let evidence := ((t.failures.lookup anchor).getD ("failed_graph_incomplete", "llm_call_failed")).2
        some ⟨.llmCallFailed, .error, "LLM " ++ (propStr functionName).getD "LLM call" ++ " failed",
          some evidence, none, none⟩
  | .promptRejected reason =>
      let reason := (propStr reason).getD "rejected"
      some ⟨.promptRejected, .error, "Prompt rejected: " ++ reason, some reason, none, none⟩
  | .taskState state oldStatus reason =>
      let newStatus := (propStr state).getD "unknown"
      if !isTerminalTaskStatus newStatus then none
      else
        let summary := match propStr oldStatus with
          | some old => "Task status: " ++ old ++ " → " ++ newStatus
          | none => "Task status: " ++ newStatus
        some ⟨.taskStatusChanged, .warning, summary, propStr reason, none, none⟩

def operationalItem (existingAnchors : List String) (row : OperationalRow) : Option ConversationContextItem :=
  match propStr row.activityAnchor with
  | none => none
  | some anchor =>
      if anchor ∈ existingAnchors then none
      else (t.operationalContent anchor row.body).map fun content =>
        systemLine (row.eventOrder.getD 0) anchor (.operational content)

def loadOperationalTranscriptItems (contextId : String) (taskId : Option String) (after : Option ℕ)
    (existingAnchors : List String) : List ConversationContextItem :=
  (t.operationalRows contextId taskId after).filterMap (t.operationalItem existingAnchors)

/-- The lines of the current intent and plan of a task, before those already shown are left out. -/
def planningLines (taskId : String) : List ConversationContextItem :=
  let intentLines := match t.intents.lookup taskId with
    | none => []
    | some intent => [systemLine intent.eventOrder intent.activityAnchorId
        (.planning ⟨.intentResolved, "Intent: " ++ intent.description, some "resolved"⟩)]
  let planLines := match t.plans.lookup taskId with
    | none => []
    | some plan =>
        systemLine plan.eventOrder plan.activityAnchorId
          (.planning ⟨.planCommitted, "Plan committed (" ++ plan.planId ++ ")", none⟩) ::
        plan.steps.map fun step =>
          systemLine (saturatingAdd 64 plan.eventOrder step.order)
            ("plan-step:" ++ taskId ++ ":" ++ plan.planId ++ ":" ++ step.stepId)
            (.planning ⟨.planStepStatusChanged, "Step " ++ step.stepId ++ ": " ++ step.status, some step.status⟩)
  intentLines ++ planLines

def loadPlanningTranscriptItems (taskId : String) (existingAnchors : List String) : List ConversationContextItem :=
  (t.planningLines taskId).filter fun item => item.activityAnchor ∉ existingAnchors

/-- The tasks of a context that have planned, the latest first. -/
def listContextPlanningIndex (contextId : String) : List ContextPlanningIndexRow :=
  (t.planningIndex.filter fun row => row.contextId = contextId).insertionSort fun a b =>
    b.latestPlanningEventOrder ≤ a.latestPlanningEventOrder

def loadTranscriptExtensionItems (contextId : String) (taskId : Option String) (after : Option ℕ)
    (existingAnchors : List String) : List ConversationContextItem :=
  let planning : List ConversationContextItem := match taskId with
    | some task => t.loadPlanningTranscriptItems task existingAnchors
    | none => (t.listContextPlanningIndex contextId).flatMap fun row =>
        t.loadPlanningTranscriptItems row.taskId existingAnchors
  (t.loadOperationalTranscriptItems contextId taskId after existingAnchors ++ planning).insertionSort
    ConversationContextItem.le

variable {t} {c task : String} {ti : Option String} {af : Option ℕ} {an : List String}
  {item : ConversationContextItem}

variable {row : OperationalRow}

theorem operationalItem_of_shown (h : t.operationalItem an row = some item) :
    t.operationalItem [] row = some item ∧ item.nodeId = none := by
  unfold operationalItem at h ⊢
  split at h
  · cases h
  · next anchor ha =>
    split_ifs at h
    refine ⟨h, ?_⟩
    obtain ⟨c, -, rfl⟩ := Option.map_eq_some_iff.mp h
    rfl

theorem mem_contextRows (h : row ∈ t.contextRows c af) : row ∈ t.contextRows c none := by
  simp only [contextRows, mem_filter, Bool.and_eq_true] at h ⊢
  exact ⟨h.1, h.2.1, rfl⟩

theorem mem_operationalRows (h : row ∈ t.operationalRows c ti af) : row ∈ t.operationalRows c ti none := by
  simp only [operationalRows, mem_insertionSort] at h ⊢
  cases ti with
  | none => exact mem_contextRows h
  | some task =>
    simp only [mem_append, mem_filter] at h ⊢
    exact h.imp (.imp_left mem_contextRows) (.imp_left mem_contextRows)

theorem nodeId_of_mem_planningLines (h : item ∈ t.planningLines task) : item.nodeId = none := by
  simp only [planningLines, mem_append] at h
  rcases h with h | h
  · split at h
    · simp at h
    · simp only [mem_singleton] at h
      rw [h]
      rfl
  · split at h
    · simp at h
    · simp only [mem_cons, mem_map] at h
      rcases h with rfl | ⟨step, -, rfl⟩ <;> rfl

/-- Every line of a page is one of the lines of the scope, and comes from no transcript row. -/
theorem mem_loadTranscriptExtensionItems (h : item ∈ t.loadTranscriptExtensionItems c ti af an) :
    item ∈ t.loadTranscriptExtensionItems c ti none [] ∧ item.nodeId = none := by
  simp only [loadTranscriptExtensionItems, mem_insertionSort, mem_append] at h ⊢
  rcases h with h | h
  · obtain ⟨row, hr, hi⟩ := mem_filterMap.mp h
    obtain ⟨hi, hn⟩ := operationalItem_of_shown hi
    exact ⟨.inl (mem_filterMap.mpr ⟨row, mem_operationalRows hr, hi⟩), hn⟩
  · have hs : ∀ task, item ∈ t.loadPlanningTranscriptItems task an →
        item ∈ t.loadPlanningTranscriptItems task [] ∧ item.nodeId = none := fun task hm => by
      have hl := mem_of_mem_filter hm
      exact ⟨mem_filter.mpr ⟨hl, by simp⟩, nodeId_of_mem_planningLines hl⟩
    cases ti with
    | some task => exact ⟨.inr (hs task h).1, (hs task h).2⟩
    | none =>
      obtain ⟨row, hr, hm⟩ := mem_flatMap.mp h
      exact ⟨.inr (mem_flatMap.mpr ⟨row, hr, (hs _ hm).1⟩), (hs _ hm).2⟩

end ExtensionTables

end AgentiumOs.Transcript
