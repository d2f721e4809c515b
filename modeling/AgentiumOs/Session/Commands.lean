import AgentiumOs.Session.Lifecycle
import AgentiumOs.Lib.Fallible
import AgentiumOs.Lib.Word

/-! The command handler of the JS boundary over the session map and the lineage
epochs of the tasks. A handler runs in `SessionM`: a rejected command keeps
whatever it had done to the store by then, as the early returns of the code do.
The events of an accepted command go to the planning manager afterwards; if the
manager fails, the command answers with its error and the store stays changed. -/

namespace AgentiumOs.Session

open AgentiumOs.Core Lib

/-- The session map, the epoch of each task, and the session counter. -/
structure SessionStore where
  sessions : Finmap fun _ : String => ExecutionSession
  lineageEpoch : LineageEpochs
  counter : ℕ

namespace SessionStore

def init : SessionStore := { sessions := ∅, lineageEpoch := ∅, counter := 0 }

def put (s : SessionStore) (sessionId : String) (session : ExecutionSession) : SessionStore :=
  { s with sessions := s.sessions.insert sessionId session }

def drop (s : SessionStore) (sessionId : String) : SessionStore :=
  { s with sessions := s.sessions.erase sessionId }

def setEpoch (s : SessionStore) (taskId : String) (epoch : ℕ) : SessionStore :=
  { s with lineageEpoch := s.lineageEpoch.insert taskId epoch }

end SessionStore

abbrev SessionM := Fallible.Program SessionError SessionStore

/-- What a handler answers when it accepts: the response and the events to emit. -/
abbrev Accepted := ExecutionSessionResponse × List PlanningEvent

def getSession (sessionId : String) : SessionM ExecutionSession := do
  match (← get).sessions.lookup sessionId with
  | some session => pure session
  | none => throw .notFound

def insertSession (sessionId : String) (session : ExecutionSession) : SessionM Unit :=
  modify (·.put sessionId session)

def removeSession (sessionId : String) : SessionM ExecutionSession := do
  let session ← getSession sessionId
  modify (·.drop sessionId)
  pure session

/-- The id of the `n`-th session opened in the process. -/
def executionSessionId (uuid : String) (n : ℕ) : String := s!"execution:{uuid}:{n}"

def nextExecutionSessionId (uuid : String) : SessionM String := do
  let n := (← get).counter
  modify fun s => { s with counter := n + 1 }
  pure (executionSessionId uuid n)

/-- A superseding submission moves its task to the next epoch. -/
def nextEpoch (supersession : Option SupersessionKind) (current : ℕ) : ℕ :=
  if supersession.isSome then Word.saturatingAdd 64 current 1 else current

/-- The epoch a submission runs under, written back to the task's entry. -/
def claimEpoch (supersession : Option SupersessionKind) (taskId : String) : SessionM ℕ := do
  let epoch := nextEpoch supersession (epochOf (← get).lineageEpoch taskId)
  modify (·.setEpoch taskId epoch)
  pure epoch

/-- The epoch check under the lock of the epoch table. -/
def ensureCurrentEpoch (session : ExecutionSession) : SessionM Unit := do
  ensureLineageEpochMatches session (← get).lineageEpoch session.base.ownerTaskId

def requireTaskScope (scope : RuntimeScope) (missing : SessionError) : SessionM String :=
  match scope.taskIdOpt with
  | some taskId => pure taskId
  | none => throw missing

/-- `open` from the scope of the active invocation. -/
def openSession (scope : RuntimeScope) (uuid : String) : SessionM Accepted :=
  match h : scope.taskIdOpt with
  | none => throw .openRequiresTaskScope
  | some taskId => do
      let sessionId ← nextExecutionSessionId uuid
      insertSession sessionId (.awaitIntent
        { ownerScope := scope, ownerTaskId := taskId, ownerContextId := scope.contextId,
          task_eq := h, context_eq := rfl })
      pure (.phase sessionId .awaitIntent, [])

def submitIntent (scope : RuntimeScope) (sessionId : String) (intent : IntentSubmissionWire) :
    SessionM Accepted := do
  let supersession ← readSupersession .intentSupersession intent.supersession
  let taskId ← requireTaskScope scope .submitIntentRequiresTaskScope
  let epoch ← claimEpoch supersession taskId
  let session ← removeSession sessionId
  ensureScopeMatches session.base scope
  let session ← session.intoAwaitPlan intent.intentId epoch
  insertSession sessionId session
  let submission : IntentSubmission :=
    { intentId := intent.intentId, description := intent.description, citations := intent.citations,
      derivedFromMessageIds := [session.base.ownerScope.messageId], supersession }
  pure (.phase sessionId .awaitPlan, [.intentResolved session.base.ownerScope submission epoch])

/-- Dependencies are trimmed and blank ones dropped. -/
def cleanDeps (dependsOn : List String) : List String :=
  dependsOn.filterMap fun v =>
    let s := Text.trim v
    if s.isEmpty then none else some s

structure PlanTables where
  emitted : List PlanStepSubmission
  ids : List String
  stepStatus : StepStatuses
  stepDeps : StepDeps

/-- The loop over the submitted steps; `seen` are the ids met so far. -/
def planTables (seen : Finset String) (tables : PlanTables) :
    List PlanStepSubmission → Except SessionError PlanTables
  | [] => .ok tables
  | step :: rest =>
      if step.stepId ∈ seen then .error (.duplicateStepId step.stepId)
      else
        let deps := cleanDeps step.dependsOn
        planTables (insert step.stepId seen)
          { emitted := tables.emitted ++ [{ step with dependsOn := deps }]
            ids := tables.ids ++ [step.stepId]
            stepStatus := tables.stepStatus.insert step.stepId .pending
            stepDeps := tables.stepDeps.insert step.stepId deps }
          rest

def PlanTables.empty : PlanTables := { emitted := [], ids := [], stepStatus := ∅, stepDeps := ∅ }

def submitPlan (scope : RuntimeScope) (sessionId : String) (plan : PlanSubmissionWire) :
    SessionM Accepted := do
  let supersession ← readSupersession .planSupersession plan.supersession
  let taskId ← requireTaskScope scope .submitPlanRequiresTaskScope
  let tables ← planTables ∅ .empty plan.steps
  let epoch ← claimEpoch supersession taskId
  let session ← removeSession sessionId
  ensureScopeMatches session.base scope
  match session with
  | .awaitPlan _ intentId _ =>
      if intentId ≠ plan.intentId then
        insertSession sessionId session
        throw .intentIdMismatch
  | _ =>
      insertSession sessionId session
      throw .cannotSubmitPlan
  let session ← session.intoExecutable plan.planId tables.ids tables.stepStatus tables.stepDeps epoch
  insertSession sessionId session
  pure (.phase sessionId .executable,
    [.planGenerated session.base.ownerScope plan.intentId plan.planId tables.emitted supersession epoch])

/-- The shared handler of `start_step` and `complete_step`; the two differ in the
transition they apply. -/
def stepCommand (scope : RuntimeScope) (sessionId : String)
    (apply : ExecutionSession → Except SessionError (ExecutionSession × StepTransitionEvent)) :
    SessionM Accepted := do
  let session ← removeSession sessionId
  ensureScopeMatches session.base scope
  ensureCurrentEpoch session
  let (session, event) ← apply session
  insertSession sessionId session
  pure (.ok sessionId, [event.toPlanning])

def startStep (scope : RuntimeScope) (sessionId stepId : String) (citations : List String) : SessionM Accepted :=
  stepCommand scope sessionId (·.applyStartStep stepId citations)

def completeStep (scope : RuntimeScope) (sessionId stepId : String) (citations : List String) :
    SessionM Accepted :=
  stepCommand scope sessionId (·.applyCompleteStep stepId citations)

/-- The mutating half of `finish`: every refusal puts the session back. -/
def closeSession (sessionId : String) : SessionM Accepted := do
  let session ← removeSession sessionId
  match session with
  | .executable e =>
      if ∀ stepId ∈ e.planSteps, stepId ∈ e.completed then
        let session ← session.intoClosed
        insertSession sessionId session
        pure (.closed sessionId, [])
      else
        insertSession sessionId session
        throw .stepsNotCompleted
  | _ =>
      insertSession sessionId session
      throw .cannotFinish

/-- `finish` checks under read access first; a closed session is finished already. -/
def finish (scope : RuntimeScope) (sessionId : String) : SessionM Accepted := do
  let session ← getSession sessionId
  ensureScopeMatches session.base scope
  ensureCurrentEpoch session
  match session with
  | .closed _ => pure (.closed sessionId, [])
  | _ => closeSession sessionId

def abortReason (reason : String) : String :=
  if (Text.trim reason).isEmpty then "execution session aborted" else Text.trim reason

def abort (scope : RuntimeScope) (sessionId reason : String) : SessionM Accepted := do
  let session ← removeSession sessionId
  ensureScopeMatches session.base scope
  ensureCurrentEpoch session
  let (session, events) := session.applyAbort (abortReason reason)
  insertSession sessionId session
  pure (.closed sessionId, events.map StepAbortEvent.toPlanning)

/-- The grounding artifact goes to the semiotic store; the session is only read. -/
def submitGrounding (scope : RuntimeScope) (sessionId : String) : SessionM Accepted := do
  let session ← getSession sessionId
  ensureScopeMatches session.base scope
  pure (.groundingSubmitted sessionId, [])

/-- One call of `__execution_session_invoke`: the scope of the active
invocation (used by `open` only), the random part of a new session id, the
planning manager's answer to each event, and the command. -/
structure Invocation where
  active : Except String RuntimeScope
  uuid : String
  emit : PlanningEvent → Except String Unit
  command : ExecutionSessionCommand

/-- The scope a command runs under: `open` takes the active one, every other
command the one of the session it names. -/
def invocationScope (active : Except String RuntimeScope) (command : ExecutionSessionCommand) :
    SessionM RuntimeScope :=
  match command.sessionId with
  | none =>
      match active with
      | .ok scope => pure scope
      | .error reason => throw (.noInvocationContext reason)
  | some sessionId => do
      let session ← getSession sessionId
      pure session.base.ownerScope

def runCommand (active : Except String RuntimeScope) (uuid : String)
    (command : ExecutionSessionCommand) : SessionM Accepted := do
  let scope ← invocationScope active command
  match command with
  | .open => openSession scope uuid
  | .submitIntent sessionId intent => submitIntent scope sessionId intent
  | .submitPlan sessionId plan => submitPlan scope sessionId plan
  | .startStep sessionId stepId citations => startStep scope sessionId stepId citations
  | .completeStep sessionId stepId citations => completeStep scope sessionId stepId citations
  | .finish sessionId => finish scope sessionId
  | .abort sessionId reason => abort scope sessionId reason
  | .submitGrounding sessionId _ _ => submitGrounding scope sessionId

def emitAll (emit : PlanningEvent → Except String Unit) :
    List PlanningEvent → List PlanningEvent × Except SessionError Unit
  | [] => ([], .ok ())
  | event :: rest =>
      match emit event with
      | .error reason => ([], .error (.emission reason))
      | .ok () =>
          let (sent, result) := emitAll emit rest
          (event :: sent, result)

/-- The answer to a call, with the verdict on the command itself and the events
that reached the planning manager. -/
structure Reply where
  verdict : Except SessionError Accepted
  emitted : List PlanningEvent
  result : Except SessionError ExecutionSessionResponse

def reply (emit : PlanningEvent → Except String Unit) : Except SessionError Accepted → Reply
  | .error e => { verdict := .error e, emitted := [], result := .error e }
  | .ok (response, events) =>
      let (emitted, sent) := emitAll emit events
      { verdict := .ok (response, events), emitted, result := sent.map fun _ => response }

def invoke (s : SessionStore) (call : Invocation) : SessionStore × Reply :=
  let (verdict, s') := Fallible.runOn (runCommand call.active call.uuid call.command) s
  (s', reply call.emit verdict)

end AgentiumOs.Session
