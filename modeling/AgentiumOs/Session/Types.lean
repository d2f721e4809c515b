import AgentiumOs.Core.Scope

/-! Execution sessions: the commands of the JS boundary, the planning events a
command hands to the planning manager, the errors it answers with, and the
session itself as it passes from awaiting an intent to closed. Commands are
taken after deserialization. -/

namespace AgentiumOs.Session

open AgentiumOs.Core

inductive SupersessionKind where
  | replacedBy
  | refinedBy
  deriving DecidableEq

structure IntentSubmissionWire where
  intentId : String
  description : String
  citations : List String
  supersession : Option String

structure PlanStepSubmission where
  stepId : String
  description : String
  order : ℕ
  dependsOn : List String
  deriving DecidableEq

structure PlanSubmissionWire where
  intentId : String
  planId : String
  steps : List PlanStepSubmission
  supersession : Option String

inductive ExecutionSessionCommand where
  | open
  | submitIntent (sessionId : String) (intent : IntentSubmissionWire)
  | submitPlan (sessionId : String) (plan : PlanSubmissionWire)
  | startStep (sessionId stepId : String) (citations : List String)
  | completeStep (sessionId stepId : String) (citations : List String)
  | finish (sessionId : String)
  | abort (sessionId reason : String)
  | submitGrounding (sessionId artifact : String) (planStepId : Option String)

def ExecutionSessionCommand.sessionId : ExecutionSessionCommand → Option String
  | .open => none
  | .submitIntent sid _ | .submitPlan sid _ | .startStep sid _ _ | .completeStep sid _ _
  | .finish sid | .abort sid _ | .submitGrounding sid _ _ => some sid

inductive StepStatus where
  | pending
  | inProgress
  | completed
  | aborted
  deriving DecidableEq

/-- The intent as the planning resolver gets it: the supersession is parsed and
the message lineage comes from the scope, never from the wire. -/
structure IntentSubmission where
  intentId : String
  description : String
  citations : List String
  derivedFromMessageIds : List String
  supersession : Option SupersessionKind
  deriving DecidableEq

/-- What a command hands to the planning manager after it changed the session. -/
inductive PlanningEvent where
  | intentResolved (scope : RuntimeScope) (submission : IntentSubmission) (epoch : ℕ)
  | planGenerated (scope : RuntimeScope) (intentId planId : String)
      (steps : List PlanStepSubmission) (supersession : Option SupersessionKind) (epoch : ℕ)
  | stepStatusChanged (scope : RuntimeScope) (intentId planId stepId : String)
      (oldStatus newStatus : StepStatus) (citations : List String) (epoch : ℕ)
  deriving DecidableEq

structure StepTransitionEvent where
  intentId : String
  planId : String
  scope : RuntimeScope
  stepId : String
  oldStatus : StepStatus
  newStatus : StepStatus
  citations : List String
  epoch : ℕ

/-- A step that an abort cut off. The reason is kept in the event only. -/
structure StepAbortEvent where
  intentId : String
  planId : String
  scope : RuntimeScope
  stepId : String
  oldStatus : StepStatus
  reason : String
  epoch : ℕ

def StepTransitionEvent.toPlanning (e : StepTransitionEvent) : PlanningEvent :=
  .stepStatusChanged e.scope e.intentId e.planId e.stepId e.oldStatus e.newStatus e.citations e.epoch

def StepAbortEvent.toPlanning (e : StepAbortEvent) : PlanningEvent :=
  .stepStatusChanged e.scope e.intentId e.planId e.stepId e.oldStatus .aborted [] e.epoch

inductive Phase where
  | awaitIntent
  | awaitPlan
  | executable
  deriving DecidableEq

inductive ExecutionSessionResponse where
  | phase (sessionId : String) (phase : Phase)
  | ok (sessionId : String)
  | closed (sessionId : String)
  | groundingSubmitted (sessionId : String)
  deriving DecidableEq

inductive SessionError where
  | noInvocationContext (reason : String)
  | notFound
  | openRequiresTaskScope
  | submitIntentRequiresTaskScope
  | submitPlanRequiresTaskScope
  | actionRequiresTaskScope
  | scopeMismatch (ownerTaskId ownerContextId taskId contextId : String)
  | intentSupersession (got : String)
  | planSupersession (got : String)
  | duplicateStepId (stepId : String)
  | cannotSubmitIntent
  | cannotSubmitPlan
  | intentIdMismatch
  | staleLineage (sessionEpoch currentEpoch : ℕ)
  | notExecutable
  | unknownStepId
  | cannotStart (oldStatus : StepStatus) (stepId : String)
  | dependencyNotCompleted (dep : String)
  | cannotComplete (oldStatus : StepStatus) (stepId : String)
  | cannotFinish
  | stepsNotCompleted
  | alreadyClosed
  | emission (reason : String)
  deriving DecidableEq

/-- The owner of a session. Sessions are opened only from a task scope, whose
task and context the session keeps. -/
structure SessionBase where
  ownerScope : RuntimeScope
  ownerTaskId : String
  ownerContextId : String
  task_eq : ownerScope.taskIdOpt = some ownerTaskId
  context_eq : ownerScope.contextId = ownerContextId
  deriving DecidableEq

abbrev StepStatuses := Finmap fun _ : String => StepStatus

abbrev StepDeps := Finmap fun _ : String => List String

structure Executable where
  base : SessionBase
  intentId : String
  planId : String
  planSteps : List String
  stepStatus : StepStatuses
  stepDeps : StepDeps
  completed : Finset String
  epoch : ℕ
  currentStepId : Option String
  deriving DecidableEq

inductive ExecutionSession where
  | awaitIntent (base : SessionBase)
  | awaitPlan (base : SessionBase) (intentId : String) (epoch : ℕ)
  | executable (e : Executable)
  | closed (base : SessionBase)
  deriving DecidableEq

end AgentiumOs.Session
