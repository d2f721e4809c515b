import AgentiumOs.Session.Step
import AgentiumOs.Lib.Interleave

/-! Commands on one session that run at the same time. A handler is a sequence of
atomic operations on the session map and the epoch table: it looks the session
up for its scope, takes it out of the map, decides, and puts it back. `advance`
takes a command from one of these program points to the next; alone, a command
does what `runCommand` does (`solo_eq_runCommand`). Between taking and putting
back the session is in no map, and a command that looks for it then is told that
it does not exist; `finish`, which has seen it before, panics. -/

namespace AgentiumOs.Session

open AgentiumOs.Core Lib Lib.Fallible

/-- A command addressed to session `sid`. -/
abbrev CommandOn (sid : String) :=
  { command : ExecutionSessionCommand // command.sessionId = some sid }

inductive Outcome where
  | answered (verdict : Except SessionError Accepted)
  | panicked

/-- What a handler has found out before it takes the session: the scope it runs
under and, for submissions, the claimed epoch and the tables of the plan. -/
structure Locals where
  scope : RuntimeScope
  epoch : ℕ
  tables : PlanTables

def Locals.plain (scope : RuntimeScope) : Locals := { scope, epoch := 0, tables := .empty }

/-- Where a handler is: the next operation, with what it carries to it. -/
inductive Point where
  | start
  | claiming (scope : RuntimeScope) (taskId : String) (supersession : Option SupersessionKind)
      (tables : PlanTables)
  | taking (locals : Locals)
  | checking (scope : RuntimeScope)
  | closing (scope : RuntimeScope)
  | reading (scope : RuntimeScope)
  | holding (locals : Locals) (session : ExecutionSession)
  | storing (session : ExecutionSession) (verdict : Except SessionError Accepted)
  | done (outcome : Outcome)

def Point.rejected (e : SessionError) : Point := .done (.answered (.error e))

/-- A submission up to the claim of its epoch: nothing here touches the store. -/
def submissionPoint (scope : RuntimeScope) (missing : SessionError)
    (supersession : Except SessionError (Option SupersessionKind)) (tables : Except SessionError PlanTables) :
    Point :=
  match supersession with
  | .error e => .rejected e
  | .ok supersession =>
      match scope.taskIdOpt with
      | none => .rejected missing
      | some taskId =>
          match tables with
          | .error e => .rejected e
          | .ok tables => .claiming scope taskId supersession tables

/-- The first operation looks the session up for the scope to run under. -/
def firstPoint (command : ExecutionSessionCommand) (scope : RuntimeScope) : Point :=
  match command with
  | .submitIntent _ intent =>
      submissionPoint scope .submitIntentRequiresTaskScope
        (readSupersession .intentSupersession intent.supersession) (.ok .empty)
  | .submitPlan _ plan =>
      submissionPoint scope .submitPlanRequiresTaskScope
        (readSupersession .planSupersession plan.supersession) (planTables ∅ .empty plan.steps)
  | .finish _ => .checking scope
  | .submitGrounding _ _ _ => .reading scope
  | _ => .taking (.plain scope)

/-- The shared part of `start_step` and `complete_step` on a session that was taken out. -/
def stepTransition (sid : String) (locals : Locals) (session : ExecutionSession) (epochs : LineageEpochs)
    (apply : ExecutionSession → Except SessionError (ExecutionSession × StepTransitionEvent)) :
    Except SessionError (ExecutionSession × Except SessionError Accepted) := do
  ensureScopeMatches session.base locals.scope
  ensureLineageEpochMatches session epochs session.base.ownerTaskId
  let (next, event) ← apply session
  pure (next, .ok (.ok sid, [event.toPlanning]))

/-- The decision on a session that was taken out: it is lost with an error, or
stored with a verdict. -/
def transition (command : ExecutionSessionCommand) (locals : Locals) (session : ExecutionSession)
    (epochs : LineageEpochs) :
    Except SessionError (ExecutionSession × Except SessionError Accepted) := do
  match command with
  | .submitIntent sid intent =>
      ensureScopeMatches session.base locals.scope
      let next ← session.intoAwaitPlan intent.intentId locals.epoch
      let submission : IntentSubmission :=
        { intentId := intent.intentId, description := intent.description,
          citations := intent.citations, derivedFromMessageIds := [next.base.ownerScope.messageId],
          supersession := parseSupersession intent.supersession }
      pure (next, .ok (.phase sid .awaitPlan, [.intentResolved next.base.ownerScope submission locals.epoch]))
  | .submitPlan sid plan =>
      ensureScopeMatches session.base locals.scope
      match session with
      | .awaitPlan _ intentId _ =>
          if intentId ≠ plan.intentId then pure (session, .error .intentIdMismatch)
          else
            let next ← session.intoExecutable plan.planId locals.tables.ids locals.tables.stepStatus
              locals.tables.stepDeps locals.epoch
            pure (next, .ok (.phase sid .executable,
              [.planGenerated next.base.ownerScope plan.intentId plan.planId locals.tables.emitted
                (parseSupersession plan.supersession) locals.epoch]))
      | _ => pure (session, .error .cannotSubmitPlan)
  | .startStep sid stepId citations =>
      stepTransition sid locals session epochs (·.applyStartStep stepId citations)
  | .completeStep sid stepId citations =>
      stepTransition sid locals session epochs (·.applyCompleteStep stepId citations)
  | .finish sid =>
      match session with
      | .executable e =>
          if ∀ stepId ∈ e.planSteps, stepId ∈ e.completed then pure (.closed e.base, .ok (.closed sid, []))
          else pure (session, .error .stepsNotCompleted)
      | _ => pure (session, .error .cannotFinish)
  | .abort sid reason =>
      ensureScopeMatches session.base locals.scope
      ensureLineageEpochMatches session epochs session.base.ownerTaskId
      let (next, events) := session.applyAbort (abortReason reason)
      pure (next, .ok (.closed sid, events.map StepAbortEvent.toPlanning))
  -- these two never take a session out
  | .open | .submitGrounding _ _ _ => pure (session, .error .notExecutable)

def whenFound (s : SessionStore) (sid : String) (next : ExecutionSession → SessionStore × Point) :
    SessionStore × Point :=
  match s.sessions.lookup sid with
  | some session => next session
  | none => (s, .rejected .notFound)

/-- The read-only check of `finish`. The guard of the map entry is held while the
epoch is checked, so this is one operation. -/
def checkFinish (sid : String) (scope : RuntimeScope) (epochs : LineageEpochs)
    (session : ExecutionSession) : Point :=
  match ensureScopeMatches session.base scope, ensureLineageEpochMatches session epochs
      session.base.ownerTaskId with
  | .error e, _ => .rejected e
  | .ok (), .error e => .rejected e
  | .ok (), .ok () =>
      match session with
      | .closed _ => .done (.answered (.ok (.closed sid, [])))
      | _ => .closing scope

def operate (sid : String) (command : ExecutionSessionCommand) (s : SessionStore) (point : Point) :
    SessionStore × Point :=
  match point with
  | .start => whenFound s sid fun session => (s, firstPoint command session.base.ownerScope)
  | .claiming scope taskId supersession tables =>
      let epoch := nextEpoch supersession (epochOf s.lineageEpoch taskId)
      (s.setEpoch taskId epoch, .taking { scope, epoch, tables })
  | .taking locals => whenFound s sid fun session => (s.drop sid, .holding locals session)
  | .checking scope => whenFound s sid fun session => (s, checkFinish sid scope s.lineageEpoch session)
  | .closing scope =>
      match s.sessions.lookup sid with
      | some session => (s.drop sid, .holding (.plain scope) session)
      -- the code unwraps the result of this second removal
      | none => (s, .done .panicked)
  | .reading scope => whenFound s sid fun session =>
      match ensureScopeMatches session.base scope with
      | .error e => (s, .rejected e)
      | .ok () => (s, .done (.answered (.ok (.groundingSubmitted sid, []))))
  | .holding locals session =>
      match transition command locals session s.lineageEpoch with
      | .error e => (s, .rejected e)
      | .ok (next, verdict) => (s, .storing next verdict)
  | .storing session verdict => (s.put sid session, .done (.answered verdict))
  | .done outcome => (s, .done outcome)

variable {sid : String}

def advance (s : SessionStore) (thread : CommandOn sid × Point) : SessionStore × CommandOn sid × Point :=
  let (s', next) := operate sid thread.1.1 s thread.2
  (s', thread.1, next)

/-! ### A command alone -/

/-- Operations of one handler, undisturbed. -/
def operations (sid : String) (command : ExecutionSessionCommand) : ℕ → SessionStore × Point → SessionStore × Point
  | 0, r => r
  | n + 1, r => operations sid command n (operate sid command r.1 r.2)

/-- What a handler answers and leaves, as the outcome of its operations. -/
def ended (r : Except SessionError Accepted × SessionStore) : SessionStore × Point := (r.2, .done (.answered r.1))

/-- What becomes of a session that was taken out, and of the command. -/
def settle (sid : String) (s : SessionStore) :
    Except SessionError (ExecutionSession × Except SessionError Accepted) → Except SessionError Accepted × SessionStore
  | .error e => (.error e, s)
  | .ok (next, verdict) => (verdict, s.put sid next)

variable {s : SessionStore} {session : ExecutionSession} {c : ExecutionSessionCommand}

theorem operations_ended (n : ℕ) (r : Except SessionError Accepted × SessionStore) :
    operations sid c n (ended r) = ended r := by
  induction n with
  | zero => rfl
  | succ n ih => exact ih

theorem operations_holding (n : ℕ) (l : Locals) : operations sid c (n + 2) (s, .holding l session) =
    ended (settle sid s (transition c l session s.lineageEpoch)) := by
  simp only [operations, operate]
  cases transition c l session s.lineageEpoch with
  | error e => exact operations_ended n (.error e, s)
  | ok result => exact operations_ended n (result.2, s.put sid result.1)

theorem operations_taking (h : s.sessions.lookup sid = some session) (n : ℕ) (l : Locals) :
    operations sid c (n + 3) (s, .taking l) =
      ended (settle sid (s.drop sid) (transition c l session s.lineageEpoch)) := by
  rw [operations]
  simp only [operate, whenFound, h]
  exact operations_holding n l

theorem runOn_stepCommand_eq (h : s.sessions.lookup sid = some session)
    (apply : ExecutionSession → Except SessionError (ExecutionSession × StepTransitionEvent)) :
    runOn (stepCommand session.base.ownerScope sid apply) s = settle sid (s.drop sid)
      (stepTransition sid (.plain session.base.ownerScope) session s.lineageEpoch apply) := by
  simp only [stepCommand, runOn_bind, runOn_removeSession h, ensureScopeMatches_ownerScope, runOn_lift,
    runOn_ensureCurrentEpoch, SessionStore.drop_lineageEpoch, stepTransition, Locals.plain]
  cases ensureLineageEpochMatches session s.lineageEpoch session.base.ownerTaskId with
  | error e => rfl
  | ok => cases ha : apply session <;> rfl

theorem operations_checking (h : s.sessions.lookup sid = some session) :
    operations sid (.finish sid) 4 (s, .checking session.base.ownerScope) =
      ended (runOn (finish session.base.ownerScope sid) s) := by
  simp only [operations, operate, whenFound, h, checkFinish, ensureScopeMatches_ownerScope, finish, runOn_bind,
    runOn_getSession h, runOn_lift, runOn_ensureCurrentEpoch]
  cases ensureLineageEpochMatches session s.lineageEpoch session.base.ownerTaskId with
  | error e => rfl
  | ok =>
    cases session with
    | closed base => rfl
    | executable e =>
      simp only [closeSession, runOn_bind, runOn_removeSession h, transition]
      split_ifs <;> rfl
    | awaitIntent | awaitPlan =>
      simp only [closeSession, runOn_bind, runOn_removeSession h, transition]
      rfl

/-- Undisturbed, the operations of a command do what its handler does. -/
theorem solo_eq_runCommand (c : CommandOn sid) (s : SessionStore) (ac : Except String RuntimeScope)
    (u : String) : operations sid c.1 5 (s, .start) = ended (runOn (runCommand ac u c.1) s) := by
  obtain ⟨c, h⟩ := c
  rw [operations]
  simp only [operate, whenFound, runCommand, invocationScope, h, runOn_bind]
  cases hs : s.sessions.lookup sid with
  | none =>
    rw [runOn_getSession_none hs]
    rfl
  | some session =>
    -- claiming an epoch leaves the session where it is
    have hc : ∀ epoch, (s.setEpoch session.base.ownerTaskId epoch).sessions.lookup sid = some session := fun _ => hs
    simp only [runOn_getSession hs, runOn_pure]
    cases c with
    | «open» => cases h
    | submitIntent _ i =>
      cases h
      cases hr : readSupersession .intentSupersession i.supersession with
      | error e =>
        simp only [firstPoint, submissionPoint, hr, submitIntent]
        rfl
      | ok su =>
        simp only [firstPoint, submissionPoint, hr, session.base.task_eq]
        refine (operations_taking (hc _) 0 _).trans (congrArg ended ?_)
        simp only [submitIntent, runOn_bind, hr, runOn_lift, runOn_requireTaskScope, runOn_claimEpoch,
          runOn_removeSession (hc _), ensureScopeMatches_ownerScope, transition, readSupersession_ok hr]
        cases session <;> rfl
    | submitPlan _ p =>
      cases h
      cases hr : readSupersession .planSupersession p.supersession with
      | error e =>
        simp only [firstPoint, submissionPoint, hr, submitPlan]
        rfl
      | ok su =>
        simp only [firstPoint, submissionPoint, hr, session.base.task_eq]
        cases ht : planTables ∅ .empty p.steps with
        | error e =>
          simp only [submitPlan, runOn_bind, hr, runOn_requireTaskScope, ht]
          rfl
        | ok tables =>
          refine (operations_taking (hc _) 0 _).trans (congrArg ended ?_)
          simp only [submitPlan, runOn_bind, hr, runOn_lift, runOn_requireTaskScope, ht, runOn_claimEpoch,
            runOn_removeSession (hc _), ensureScopeMatches_ownerScope, transition, readSupersession_ok hr]
          cases session with
          | awaitPlan base ii epoch =>
            simp only
            split_ifs <;> rfl
          | _ => rfl
    | startStep | completeStep =>
      cases h
      simp only [firstPoint, startStep, completeStep, runOn_stepCommand_eq hs]
      exact operations_taking hs 1 _
    | finish =>
      cases h
      exact operations_checking hs
    | abort _ reason =>
      cases h
      refine (operations_taking hs 1 _).trans (congrArg ended ?_)
      simp only [abort, runOn_bind, runOn_removeSession hs, ensureScopeMatches_ownerScope, runOn_lift,
        runOn_ensureCurrentEpoch, SessionStore.drop_lineageEpoch, transition, Locals.plain]
      cases ensureLineageEpochMatches session s.lineageEpoch session.base.ownerTaskId <;> rfl
    | submitGrounding =>
      cases h
      simp only [firstPoint, operations, operate, whenFound, hs, ensureScopeMatches_ownerScope,
        submitGrounding, runOn_bind, runOn_getSession hs, runOn_lift, runOn_pure, ended]

end AgentiumOs.Session
