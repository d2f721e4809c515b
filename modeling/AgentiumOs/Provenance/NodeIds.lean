import AgentiumOs.Provenance.RefStore

/-! Node ids of the provenance graph that are built from several components, and the gate that a
step has to pass before it is completed. Components may contain the separator, so the gate, which
finds the node of a step by its id, can find the node of another step. -/

namespace AgentiumOs.Provenance

open Lib Function

def fromParts (lead : String) (parts : List String) : String :=
  parts.foldl (fun id part => id ++ ":" ++ part) lead

inductive ArtifactIdentity where
  | byId (artifactId : String)
  | byType (taskId artifactType : String)
  | byActivityAnchor (taskId activityAnchor : String)

inductive NodeIdentity where
  | message (contextId messageId : String)
  | intent (taskId intentId : String)
  | plan (taskId planId : String)
  | planStep (taskId planId stepId : String)
  | artifact (identity : ArtifactIdentity)

namespace NodeIdentity

def lead : NodeIdentity → String
  | message .. => "message"
  | intent .. => "intent"
  | plan .. => "plan"
  | planStep .. => "plan_step"
  | artifact _ => "artifact"

def parts : NodeIdentity → List String
  | message contextId messageId => [contextId, messageId]
  | intent taskId intentId => [taskId, intentId]
  | plan taskId planId => [taskId, planId]
  | planStep taskId planId stepId => [taskId, planId, stepId]
  | artifact (.byId artifactId) => [artifactId]
  | artifact (.byType taskId artifactType) => [taskId, artifactType]
  | artifact (.byActivityAnchor taskId activityAnchor) => [taskId, activityAnchor]

def nodeId (x : NodeIdentity) : String := fromParts x.lead x.parts

end NodeIdentity

def planStepEntityIdString (taskId planId stepId : String) : String :=
  fromParts "plan_step" [taskId, planId, stepId]

/-! ### Reading the components back -/

/-- The pieces between the colons of the components. -/
def pieces (parts : List String) : List (List Char) := parts.flatMap (·.toList.splitOn ':')

theorem splitOn_fromParts (l : String) (parts : List String) :
    (fromParts l parts).toList.splitOn ':' = l.toList.splitOn ':' ++ pieces parts := by
  induction parts generalizing l with
  | nil => simp [fromParts, pieces]
  | cons p parts ih =>
    show (fromParts (l ++ ":" ++ p) parts).toList.splitOn ':' = _
    rw [ih]
    simp [pieces, List.splitOn_append_cons_self]

/-- Ids are equal exactly when the leads are, and the pieces of all components. -/
theorem fromParts_eq_iff (hx : ':' ∉ lead.toList) (hy : ':' ∉ lead'.toList) :
    fromParts lead xs = fromParts lead' ys ↔ lead = lead' ∧ pieces xs = pieces ys := by
  have hs : fromParts lead xs = fromParts lead' ys ↔
      (fromParts lead xs).toList.splitOn ':' = (fromParts lead' ys).toList.splitOn ':' :=
    ⟨fun h => by rw [h], fun h => by simpa [String.toList_inj] using congrArg (List.intercalate [':']) h⟩
  rw [hs, splitOn_fromParts, splitOn_fromParts, List.splitOn_eq_singleton hx, List.splitOn_eq_singleton hy]
  simp [String.toList_inj]

theorem NodeIdentity.nodeId_eq_iff (x y : NodeIdentity) :
    x.nodeId = y.nodeId ↔ x.lead = y.lead ∧ pieces x.parts = pieces y.parts := by
  have hl (x : NodeIdentity) : ':' ∉ x.lead.toList := by
    cases x <;> rw [lead] <;> decide
  exact fromParts_eq_iff (hl x) (hl y)

structure StepName where
  taskId : String
  planId : String
  stepId : String
  deriving DecidableEq

def StepName.parts (name : StepName) : List String := [name.taskId, name.planId, name.stepId]

def StepName.nodeId (name : StepName) : String :=
  planStepEntityIdString name.taskId name.planId name.stepId

/-- A property that the node does not have is read as its default. -/
structure StepNode where
  dependsOn : List String := []
  status : String := ""

structure PlanStep where
  stepId : String
  dependsOn : List String

/-- A change of status comes with what the gate reads of the calls: whether a successful one is
linked to the step. -/
inductive PlanEvent where
  | planGenerated (taskId planId : String) (steps : List PlanStep)
  | planStepStatusChanged (anchor : String) (name : StepName) (newStatus : String) (evidence : Bool)

def isStepCompletedStatus (status : String) : Bool :=
  decide (Text.toAsciiLowercase (Text.trim status) ∈ ["completed", "done", "step_completed", "finished"])

def dependencyNotCompleted (name : StepName) (dep : String) : String :=
  "step completion rejected: dependency step not completed (plan_id=" ++ name.planId ++ ", step_id=" ++ name.stepId ++
    ", depends_on=" ++ dep ++ ")"

def noTerminalEvidence (name : StepName) : String :=
  "step completion rejected: no terminal LLM/tool evidence linked to step (plan_id=" ++ name.planId ++
    ", step_id=" ++ name.stepId ++ ")"

section

variable {κ : Type} (key : StepName → κ)

abbrev StepNodes (κ : Type) := κ → Option StepNode

def fetchStepDependencies (nodes : StepNodes κ) (name : StepName) : List String :=
  match nodes (key name) with
  | none => []
  | some node => node.dependsOn

def isStepCompleted (nodes : StepNodes κ) (name : StepName) : Bool :=
  match nodes (key name) with
  | none => false
  | some node => isStepCompletedStatus node.status

def enforceStepCompletionGate (nodes : StepNodes κ) : PlanEvent → Except ProvenanceError Unit
  | .planGenerated .. => .ok ()
  | .planStepStatusChanged anchor name newStatus evidence =>
      if isStepCompletedStatus newStatus then
        let missing := (fetchStepDependencies key nodes name).find? fun dep =>
          !isStepCompleted key nodes { name with stepId := dep }
        match missing with
        | some dep => .error (.invalidEvent anchor (dependencyNotCompleted name dep))
        | none => if evidence then .ok () else .error (.invalidEvent anchor (noTerminalEvidence name))
      else .ok ()

variable [DecidableEq κ]

/-- An upsert sets the properties it has and keeps the others. -/
def writePlanEvent (nodes : StepNodes κ) : PlanEvent → StepNodes κ
  | .planGenerated taskId planId steps =>
      steps.foldl (fun nodes step =>
        Function.update nodes (key ⟨taskId, planId, step.stepId⟩) (some ⟨step.dependsOn, "ready"⟩)) nodes
  | .planStepStatusChanged _ name newStatus _ =>
      Function.update nodes (key name) (some { (nodes (key name)).getD {} with status := newStatus })

def addPlanEvent (nodes : StepNodes κ) (event : PlanEvent) : StepNodes κ × Except ProvenanceError Unit :=
  match enforceStepCompletionGate key nodes event with
  | .error e => (nodes, .error e)
  | .ok () => (writePlanEvent key nodes event, .ok ())

end

/-- Every step that the event names, also as a dependency, meets `good`. -/
def PlanEvent.Names (good : StepName → Prop) : PlanEvent → Prop
  | planGenerated taskId planId steps =>
      ∀ step ∈ steps, good ⟨taskId, planId, step.stepId⟩ ∧ ∀ dep ∈ step.dependsOn, good ⟨taskId, planId, dep⟩
  | planStepStatusChanged _ name _ _ => good name

/-! ### Nodes by id and nodes by name -/

section

variable {κ : Type} {key : StepName → κ} {good : StepName → Prop}

/-- Under its key a step has the node that it has under its name, and its dependencies are named
well. -/
structure Represents (key : StepName → κ) (good : StepName → Prop) (nodes : StepNodes κ)
    (ideal : StepNodes StepName) : Prop where
  same : ∀ name, good name → nodes (key name) = ideal name
  deps : ∀ name node, good name → ideal name = some node → ∀ dep ∈ node.dependsOn, good { name with stepId := dep }

variable {i : StepNodes StepName} {name : StepName} {no : StepNodes κ}

theorem fetchStepDependencies_eq (h : Represents key good no i) (hn : good name) :
    fetchStepDependencies key no name = fetchStepDependencies id i name := by
  rw [fetchStepDependencies, fetchStepDependencies, h.same name hn, id]

theorem good_of_mem_dependencies (h : Represents key good no i) (hn : good name)
    (hd : dep ∈ fetchStepDependencies id i name) : good { name with stepId := dep } := by
  rw [fetchStepDependencies] at hd
  split at hd
  · cases hd
  · rename_i node hno
    exact h.deps name node hn hno dep hd

variable {event : PlanEvent}

/-- The gate answers as if the nodes were found by the names of the steps. -/
theorem enforceStepCompletionGate_eq (h : Represents key good no i) (he : event.Names good) :
    enforceStepCompletionGate key no event = enforceStepCompletionGate id i event := by
  cases event with
  | planGenerated taskId planId steps => rfl
  | planStepStatusChanged anchor name n e =>
    have hf : ((fetchStepDependencies id i name).find? fun dep =>
          !isStepCompleted key no { name with stepId := dep }) =
        (fetchStepDependencies id i name).find? fun dep => !isStepCompleted id i { name with stepId := dep } :=
      by
        rw [← List.head?_filter, ← List.head?_filter, List.filter_congr fun dep hd => ?_]
        rw [isStepCompleted, isStepCompleted, h.same _ (good_of_mem_dependencies h he hd), id]
    rw [enforceStepCompletionGate, enforceStepCompletionGate, fetchStepDependencies_eq h he, hf]

variable [DecidableEq κ]

theorem Represents.update (h : Represents key good no i) (hk : Set.InjOn key {name | good name})
    (hn : good name) (hd : ∀ dep ∈ n.dependsOn, good { name with stepId := dep }) :
    Represents key good (Function.update no (key name) (some n)) (Function.update i name (some n)) where
  same other ho := by
    rcases eq_or_ne other name with rfl | hne
    · rw [update_self, update_self]
    · rw [update_of_ne hne, update_of_ne (fun heq => hne (hk ho hn heq)), h.same other ho]
  deps other found ho hf dep hde := by
    rcases eq_or_ne other name with rfl | hne
    · rw [update_self, Option.some.injEq] at hf
      exact hd dep (hf ▸ hde)
    · rw [update_of_ne hne] at hf
      exact h.deps other found ho hf dep hde

theorem writePlanEvent_represents (h : Represents key good no i) (hk : Set.InjOn key {name | good name})
    (he : event.Names good) :
    Represents key good (writePlanEvent key no event) (writePlanEvent id i event) := by
  cases event with
  | planGenerated taskId p steps =>
    -- the steps are written one after the other
    replace he : ∀ step ∈ steps, good ⟨taskId, p, step.stepId⟩ ∧
      ∀ dep ∈ step.dependsOn, good ⟨taskId, p, dep⟩ := he
    induction steps generalizing no i with
    | nil => exact h
    | cons step steps ih =>
      rw [List.forall_mem_cons] at he
      exact ih (h.update hk he.1.1 he.1.2) he.2
  | planStepStatusChanged anchor name n e =>
    simp only [writePlanEvent, h.same name he]
    refine h.update hk he fun dep hd => ?_
    cases hn : i name with
    | none =>
      rw [hn] at hd
      cases hd
    | some node =>
      rw [hn] at hd
      exact h.deps name node he hn dep hd

theorem addPlanEvent_represents (h : Represents key good no i) (hk : Set.InjOn key {name | good name})
    (he : event.Names good) :
    Represents key good (addPlanEvent key no event).1 (addPlanEvent id i event).1 ∧
      (addPlanEvent key no event).2 = (addPlanEvent id i event).2 := by
  rw [addPlanEvent, addPlanEvent, enforceStepCompletionGate_eq h he]
  split
  · exact ⟨h, rfl⟩
  · exact ⟨writePlanEvent_represents h hk he, rfl⟩

end

theorem StepName.nodeId_eq_iff (n m : StepName) : n.nodeId = m.nodeId ↔ pieces n.parts = pieces m.parts :=
  (fromParts_eq_iff (by decide) (by decide)).trans (and_iff_right rfl)

/-- A step that depends on itself is let pass by the gate once another step has taken its node. -/
theorem exists_outputs_ne {G : StepName → Prop} {n m : StepName} (hn : G n) (hm : G m) (h : n.nodeId = m.nodeId)
    (hne : n ≠ m) : ∃ events : List PlanEvent, (∀ event ∈ events, event.Names G) ∧
      Run.outputs (addPlanEvent StepName.nodeId) (fun _ => none) events ≠
        Run.outputs (addPlanEvent id) (fun _ => none) events := by
  refine ⟨[.planGenerated n.taskId n.planId [⟨n.stepId, [n.stepId]⟩],
    .planGenerated m.taskId m.planId [⟨m.stepId, []⟩], .planStepStatusChanged "e" n "completed" true], ?_, ?_⟩
  · simp [PlanEvent.Names, hn, hm]
  · have hc : isStepCompletedStatus "completed" = true := by decide +kernel
    have hr : isStepCompletedStatus "ready" = false := by decide +kernel
    simp [Run.outputs, addPlanEvent, enforceStepCompletionGate, writePlanEvent, fetchStepDependencies,
      isStepCompleted, h, hne, hc, hr]

/-- Two identities have one id exactly when their kinds agree and the pieces of their components, and
over all runs that name steps of `G` the gate answers as if it looked the steps up by their names
exactly when no two steps of `G` have the same pieces. -/
theorem node_ids_distinct_iff (G : StepName → Prop) :
    (∀ x y : NodeIdentity, (x.nodeId = y.nodeId → x.lead = y.lead ∧ x.parts = y.parts) ↔
      (x.lead = y.lead → pieces x.parts = pieces y.parts → x.parts = y.parts)) ∧
    ((∀ events : List PlanEvent, (∀ event ∈ events, event.Names G) →
        Run.outputs (addPlanEvent StepName.nodeId) (fun _ => none) events =
          Run.outputs (addPlanEvent id) (fun _ => none) events) ↔
      ∀ n m, G n → G m → pieces n.parts = pieces m.parts → n = m) := by
  refine ⟨fun x y => ?_, fun hall n m hn hm hp => ?_, fun hG events he => ?_⟩
  · rw [NodeIdentity.nodeId_eq_iff]
    exact ⟨fun h hl hp => (h ⟨hl, hp⟩).2, fun h hid => ⟨hid.1, h hid.1 hid.2⟩⟩
  · by_contra hne
    obtain ⟨events, hna, hd⟩ := exists_outputs_ne hn hm ((StepName.nodeId_eq_iff n m).mpr hp) hne
    exact hd (hall events hna)
  · have hinj : Set.InjOn StepName.nodeId {name | G name} :=
      fun n hn m hm h => hG n m hn hm ((StepName.nodeId_eq_iff n m).mp h)
    refine Run.outputs_eq_of_bisim _ _ (·.Names G) (Represents StepName.nodeId G)
      (fun nodes ideal event hev h => ?_) _ _ ?_ events he
    · exact addPlanEvent_represents h hinj hev
    · exact ⟨fun _ _ => rfl, fun _ _ _ hno => by cases hno⟩

/-- The second plan overwrites the dependencies of the first plan's step, and the gate lets the step
pass before its dependency is completed. -/
theorem gate_reads_step_of_other_plan :
    (NodeIdentity.planStep "t" "p:q" "r").nodeId = (NodeIdentity.planStep "t" "p" "q:r").nodeId ∧
      Run.outputs (addPlanEvent StepName.nodeId) (fun _ => none)
          [.planGenerated "t" "p:q" [⟨"a", []⟩, ⟨"r", ["a"]⟩], .planGenerated "t" "p" [⟨"q:r", []⟩],
            .planStepStatusChanged "e" ⟨"t", "p:q", "r"⟩ "completed" true] =
        [.ok (), .ok (), .ok ()] ∧
      Run.outputs (addPlanEvent id) (fun _ => none)
          [.planGenerated "t" "p:q" [⟨"a", []⟩, ⟨"r", ["a"]⟩], .planGenerated "t" "p" [⟨"q:r", []⟩],
            .planStepStatusChanged "e" ⟨"t", "p:q", "r"⟩ "completed" true] =
        [.ok (), .ok (), .error (.invalidEvent "e" (dependencyNotCompleted ⟨"t", "p:q", "r"⟩ "a"))] := by
  decide +kernel

end AgentiumOs.Provenance
