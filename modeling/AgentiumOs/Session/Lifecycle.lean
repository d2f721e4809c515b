import AgentiumOs.Session.Types
import AgentiumOs.Lib.Text

/-! The transitions of one execution session and the checks every command makes
before it takes one. A transition consumes the session: it returns the next
session or an error, never both. -/

namespace AgentiumOs.Session

open AgentiumOs.Core Lib

namespace ExecutionSession

def base : ExecutionSession → SessionBase
  | .awaitIntent b => b
  | .awaitPlan b _ _ => b
  | .executable e => e.base
  | .closed b => b

def epoch : ExecutionSession → Option ℕ
  | .awaitPlan _ _ epoch => some epoch
  | .executable e => some e.epoch
  | _ => none

def intoAwaitPlan (session : ExecutionSession) (intentId : String) (epoch : ℕ) :
    Except SessionError ExecutionSession :=
  match session with
  | .awaitIntent base => .ok (.awaitPlan base intentId epoch)
  | _ => .error .cannotSubmitIntent

def intoExecutable (session : ExecutionSession) (planId : String) (planSteps : List String)
    (stepStatus : StepStatuses) (stepDeps : StepDeps) (epoch : ℕ) :
    Except SessionError ExecutionSession :=
  match session with
  | .awaitPlan base intentId _ =>
      .ok (.executable
        { base, intentId, planId, planSteps, stepStatus, stepDeps,
          completed := ∅, epoch, currentStepId := none })
  | _ => .error .cannotSubmitPlan

def intoClosed : ExecutionSession → Except SessionError ExecutionSession
  | .executable e => .ok (.closed e.base)
  | .awaitPlan base _ _ | .awaitIntent base => .ok (.closed base)
  | .closed _ => .error .alreadyClosed

end ExecutionSession

/-- The first dependency that is not completed yet. -/
def firstUnmetDep (completed : Finset String) : List String → Option String
  | [] => none
  | dep :: deps => if dep ∈ completed then firstUnmetDep completed deps else some dep

theorem firstUnmetDep_eq_none_iff (completed : Finset String) (d : List String) :
    firstUnmetDep completed d = none ↔ ∀ dep ∈ d, dep ∈ completed := by
  induction d with
  | nil => simp [firstUnmetDep]
  | cons dep d ih =>
    by_cases h : dep ∈ completed
    · simp [firstUnmetDep, h, ih]
    · simp [firstUnmetDep, h]

namespace Executable

def depsOf (e : Executable) (stepId : String) : List String :=
  (e.stepDeps.lookup stepId).getD []

def transitionEvent (e : Executable) (stepId : String) (oldStatus newStatus : StepStatus)
    (citations : List String) : StepTransitionEvent :=
  { intentId := e.intentId, planId := e.planId, scope := e.base.ownerScope, stepId, oldStatus,
    newStatus, citations, epoch := e.epoch }

def abortEvent (e : Executable) (stepId : String) (oldStatus : StepStatus) (reason : String) : StepAbortEvent :=
  { intentId := e.intentId, planId := e.planId, scope := e.base.ownerScope, stepId, oldStatus,
    reason, epoch := e.epoch }

/-- The session after `stepId` started. -/
def started (e : Executable) (stepId : String) : Executable :=
  { e with
    stepStatus := e.stepStatus.insert stepId .inProgress
    currentStepId := some stepId }

/-- The session after `stepId` completed. -/
def stepCompleted (e : Executable) (stepId : String) : Executable :=
  { e with
    stepStatus := e.stepStatus.insert stepId .completed
    completed := insert stepId e.completed
    currentStepId := if e.currentStepId = some stepId then none else e.currentStepId }

variable (e : Executable)

@[simp] theorem lookup_started_self (si : String) : (e.started si).stepStatus.lookup si = some .inProgress :=
  Finmap.lookup_insert _

variable {s other : String}

theorem lookup_started_of_ne (h : other ≠ s) :
    (e.started s).stepStatus.lookup other = e.stepStatus.lookup other :=
  Finmap.lookup_insert_of_ne _ h

@[simp] theorem lookup_stepCompleted_self (s : String) :
    (e.stepCompleted s).stepStatus.lookup s = some .completed :=
  Finmap.lookup_insert _

theorem lookup_stepCompleted_of_ne (h : other ≠ s) :
    (e.stepCompleted s).stepStatus.lookup other = e.stepStatus.lookup other :=
  Finmap.lookup_insert_of_ne _ h

end Executable

namespace ExecutionSession

def applyStartStep (session : ExecutionSession) (stepId : String) (citations : List String) :
    Except SessionError (ExecutionSession × StepTransitionEvent) :=
  match session with
  | .executable e =>
      match e.stepStatus.lookup stepId with
      | none => .error .unknownStepId
      | some .pending =>
          match firstUnmetDep e.completed (e.depsOf stepId) with
          | some dep => .error (.dependencyNotCompleted dep)
          | none =>
              .ok (.executable (e.started stepId), e.transitionEvent stepId .pending .inProgress citations)
      | some old => .error (.cannotStart old stepId)
  | _ => .error .notExecutable

def applyCompleteStep (session : ExecutionSession) (stepId : String) (citations : List String) :
    Except SessionError (ExecutionSession × StepTransitionEvent) :=
  match session with
  | .executable e =>
      match e.stepStatus.lookup stepId with
      | none => .error .unknownStepId
      | some .inProgress =>
          .ok (.executable (e.stepCompleted stepId), e.transitionEvent stepId .inProgress .completed citations)
      | some old => .error (.cannotComplete old stepId)
  | _ => .error .notExecutable

end ExecutionSession

/-- The loop of `apply_abort`: each plan step that is neither completed nor
aborted is marked aborted and reported with the status it had. -/
def abortSteps (e : Executable) (reason : String) :
    List String → StepStatuses → List StepAbortEvent
  | [], _ => []
  | stepId :: rest, statuses =>
      let current := (statuses.lookup stepId).getD .pending
      if current = .completed ∨ current = .aborted then
        abortSteps e reason rest statuses
      else
        e.abortEvent stepId current reason :: abortSteps e reason rest (statuses.insert stepId .aborted)

def ExecutionSession.applyAbort (session : ExecutionSession) (reason : String) :
    ExecutionSession × List StepAbortEvent :=
  match session with
  | .executable e => (.closed e.base, abortSteps e reason e.planSteps e.stepStatus)
  | .awaitIntent base | .awaitPlan base _ _ | .closed base => (.closed base, [])

def parseSupersession (s : Option String) : Option SupersessionKind :=
  match s.map Text.trim with
  | some "replaced" | some "replaced_by" | some "replacedBy" => some .replacedBy
  | some "refined" | some "refined_by" | some "refinedBy" => some .refinedBy
  | _ => none

/-- The supersession field of a submission: an unknown text is an error. -/
def readSupersession (invalid : String → SessionError) :
    Option String → Except SessionError (Option SupersessionKind)
  | none => .ok none
  | some s =>
      match parseSupersession (some s) with
      | some kind => .ok (some kind)
      | none => .error (invalid s)

theorem readSupersession_ok (h : readSupersession i f = .ok supersession) :
    parseSupersession f = supersession := by
  cases f with
  | none =>
    cases h
    rfl
  | some text => cases hp : parseSupersession (some text) <;> simp_all [readSupersession]

abbrev LineageEpochs := Finmap fun _ : String => ℕ

/-- Current epoch of a task; a task without an entry is at epoch zero. -/
def epochOf (lineageEpoch : LineageEpochs) (taskId : String) : ℕ :=
  (lineageEpoch.lookup taskId).getD 0

/-- A session that carries an epoch must carry the current one of its task. -/
def ensureLineageEpochMatches (session : ExecutionSession) (lineageEpoch : LineageEpochs)
    (taskId : String) : Except SessionError Unit :=
  match session.epoch with
  | none => .ok ()
  | some sessionEpoch =>
      if sessionEpoch = epochOf lineageEpoch taskId then .ok ()
      else .error (.staleLineage sessionEpoch (epochOf lineageEpoch taskId))

def ensureScopeMatches (base : SessionBase) (scope : RuntimeScope) : Except SessionError Unit :=
  match scope.taskIdOpt with
  | none => .error .actionRequiresTaskScope
  | some taskId =>
      if taskId = base.ownerTaskId ∧ scope.contextId = base.ownerContextId then .ok ()
      else .error (.scopeMismatch base.ownerTaskId base.ownerContextId taskId scope.contextId)

@[simp] theorem ensureScopeMatches_ownerScope (b : SessionBase) :
    ensureScopeMatches b b.ownerScope = .ok () := by
  simp [ensureScopeMatches, b.task_eq, b.context_eq]

end AgentiumOs.Session
