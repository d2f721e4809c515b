import AgentiumOs.Session.Commands

/-! Everything a command can do to the store, said once. `CommandStep` lists the
outcomes of a command with the guards under which the handler takes them, and
`runCommand_step` shows that every run of the handler is one of them. The
results about sessions are read off this list, never off the handlers. -/

namespace AgentiumOs.Session

open AgentiumOs.Core Lib Lib.Fallible ExecutionSession Finmap

namespace SessionStore

variable (s : SessionStore) (sid : String) (session : ExecutionSession)

@[simp] theorem lookup_put_self : (s.put sid session).sessions.lookup sid = some session :=
  lookup_insert _

variable {other : String}

theorem lookup_put_of_ne {sid : String} (h : other ≠ sid) (session : ExecutionSession) :
    (s.put sid session).sessions.lookup other = s.sessions.lookup other :=
  lookup_insert_of_ne _ h

@[simp] theorem lookup_drop_self : (s.drop sid).sessions.lookup sid = none :=
  lookup_erase _ _

@[simp] theorem put_lineageEpoch : (s.put sid session).lineageEpoch = s.lineageEpoch := rfl

@[simp] theorem put_counter : (s.put sid session).counter = s.counter := rfl

@[simp] theorem drop_lineageEpoch : (s.drop sid).lineageEpoch = s.lineageEpoch := rfl

@[simp] theorem drop_counter : (s.drop sid).counter = s.counter := rfl

@[simp] theorem setEpoch_sessions (t : String) (e : ℕ) :
    (s.setEpoch t e).sessions = s.sessions := rfl

@[simp] theorem setEpoch_counter (t : String) (e : ℕ) :
    (s.setEpoch t e).counter = s.counter := rfl

@[simp] theorem epochOf_setEpoch_self (t : String) (epoch : ℕ) :
    epochOf (s.setEpoch t epoch).lineageEpoch t = epoch := by
  simp [epochOf, setEpoch]

theorem epochOf_setEpoch_of_ne (h : other ≠ t) (e : ℕ) :
    epochOf (s.setEpoch t e).lineageEpoch other = epochOf s.lineageEpoch other := by
  simp [epochOf, setEpoch, lookup_insert_of_ne _ h]

theorem put_drop {sid : String} {session : ExecutionSession}
    (h : s.sessions.lookup sid = some session) : (s.drop sid).put sid session = s := by
  have hs : (s.sessions.erase sid).insert sid session = s.sessions := by
    refine ext_lookup fun other => ?_
    by_cases ho : other = sid
    · rw [ho, lookup_insert, h]
    · rw [lookup_insert_of_ne _ ho, lookup_erase_ne ho]
  simp [put, drop, hs]

theorem drop_put : (s.drop sid).put sid session = s.put sid session := by
  have hs : (s.sessions.erase sid).insert sid session = s.sessions.insert sid session := by
    refine ext_lookup fun other => ?_
    by_cases ho : other = sid
    · rw [ho, lookup_insert, lookup_insert]
    · rw [lookup_insert_of_ne _ ho, lookup_insert_of_ne _ ho, lookup_erase_ne ho]
  simp [put, drop, hs]

end SessionStore

/-! ### The outcomes of a command -/

/-- The outcomes of a command on a store: the verdict and the store it leaves. -/
inductive CommandStep (s : SessionStore) (active : Except String RuntimeScope) (uuid : String) :
    ExecutionSessionCommand → Except SessionError Accepted → SessionStore → Prop
  | openNoContext {reason : String} (hactive : active = .error reason) :
      CommandStep s active uuid .open (.error (.noInvocationContext reason)) s
  | openNoTask {scope : RuntimeScope} (hactive : active = .ok scope) (htask : scope.taskIdOpt = none) :
      CommandStep s active uuid .open (.error .openRequiresTaskScope) s
  | opened {base : SessionBase} (hactive : active = .ok base.ownerScope) :
      CommandStep s active uuid .open
        (.ok (.phase (executionSessionId uuid s.counter) .awaitIntent, []))
        (SessionStore.put { s with counter := s.counter + 1 } (executionSessionId uuid s.counter)
          (.awaitIntent base))
  | notFound {command : ExecutionSessionCommand} {sid : String} (hsid : command.sessionId = some sid)
      (hsession : s.sessions.lookup sid = none) :
      CommandStep s active uuid command (.error .notFound) s
  | intentUnread {sid : String} {intent : IntentSubmissionWire} {session : ExecutionSession}
      {e : SessionError} (hsession : s.sessions.lookup sid = some session)
      (hread : readSupersession .intentSupersession intent.supersession = .error e) :
      CommandStep s active uuid (.submitIntent sid intent) (.error e) s
  | intentRefused {sid : String} {intent : IntentSubmissionWire} {session : ExecutionSession}
      {supersession : Option SupersessionKind} (hsession : s.sessions.lookup sid = some session)
      (hread : readSupersession .intentSupersession intent.supersession = .ok supersession)
      (hphase : ∀ base, session ≠ .awaitIntent base) :
      CommandStep s active uuid (.submitIntent sid intent) (.error .cannotSubmitIntent)
        ((s.setEpoch session.base.ownerTaskId
          (nextEpoch supersession (epochOf s.lineageEpoch session.base.ownerTaskId))).drop sid)
  | intentAccepted {sid : String} {intent : IntentSubmissionWire} {base : SessionBase}
      {supersession : Option SupersessionKind} {epoch : ℕ}
      (hsession : s.sessions.lookup sid = some (.awaitIntent base))
      (hread : readSupersession .intentSupersession intent.supersession = .ok supersession)
      (hepoch : epoch = nextEpoch supersession (epochOf s.lineageEpoch base.ownerTaskId)) :
      CommandStep s active uuid (.submitIntent sid intent)
        (.ok (.phase sid .awaitPlan, [.intentResolved base.ownerScope
          { intentId := intent.intentId, description := intent.description,
            citations := intent.citations, derivedFromMessageIds := [base.ownerScope.messageId],
            supersession } epoch]))
        ((s.setEpoch base.ownerTaskId epoch).put sid (.awaitPlan base intent.intentId epoch))
  | planUnread {sid : String} {plan : PlanSubmissionWire} {session : ExecutionSession}
      {e : SessionError} (hsession : s.sessions.lookup sid = some session)
      (hread : readSupersession .planSupersession plan.supersession = .error e) :
      CommandStep s active uuid (.submitPlan sid plan) (.error e) s
  | planDuplicate {sid : String} {plan : PlanSubmissionWire} {session : ExecutionSession}
      {supersession : Option SupersessionKind} {e : SessionError}
      (hsession : s.sessions.lookup sid = some session)
      (hread : readSupersession .planSupersession plan.supersession = .ok supersession)
      (htables : planTables ∅ .empty plan.steps = .error e) :
      CommandStep s active uuid (.submitPlan sid plan) (.error e) s
  | planRefused {sid : String} {plan : PlanSubmissionWire} {session : ExecutionSession}
      {supersession : Option SupersessionKind} {tables : PlanTables} {e : SessionError}
      (hsession : s.sessions.lookup sid = some session)
      (hread : readSupersession .planSupersession plan.supersession = .ok supersession)
      (htables : planTables ∅ .empty plan.steps = .ok tables)
      (hphase : ∀ base epoch, session ≠ .awaitPlan base plan.intentId epoch) :
      CommandStep s active uuid (.submitPlan sid plan) (.error e)
        (s.setEpoch session.base.ownerTaskId
          (nextEpoch supersession (epochOf s.lineageEpoch session.base.ownerTaskId)))
  | planAccepted {sid : String} {plan : PlanSubmissionWire} {base : SessionBase}
      {oldEpoch epoch : ℕ} {supersession : Option SupersessionKind} {tables : PlanTables}
      (hsession : s.sessions.lookup sid = some (.awaitPlan base plan.intentId oldEpoch))
      (hread : readSupersession .planSupersession plan.supersession = .ok supersession)
      (htables : planTables ∅ .empty plan.steps = .ok tables)
      (hepoch : epoch = nextEpoch supersession (epochOf s.lineageEpoch base.ownerTaskId)) :
      CommandStep s active uuid (.submitPlan sid plan)
        (.ok (.phase sid .executable,
          [.planGenerated base.ownerScope plan.intentId plan.planId tables.emitted supersession epoch]))
        ((s.setEpoch base.ownerTaskId epoch).put sid (.executable
          { base, intentId := plan.intentId, planId := plan.planId, planSteps := tables.ids,
            stepStatus := tables.stepStatus, stepDeps := tables.stepDeps, completed := ∅, epoch,
            currentStepId := none }))
  | startRefused {sid stepId : String} {citations : List String} {session : ExecutionSession}
      {e : SessionError} (hsession : s.sessions.lookup sid = some session) :
      CommandStep s active uuid (.startStep sid stepId citations) (.error e) (s.drop sid)
  | started {sid stepId : String} {citations : List String} {e : Executable}
      (hsession : s.sessions.lookup sid = some (.executable e))
      (hepoch : e.epoch = epochOf s.lineageEpoch e.base.ownerTaskId)
      (hstatus : e.stepStatus.lookup stepId = some .pending)
      (hdeps : ∀ dep ∈ e.depsOf stepId, dep ∈ e.completed) :
      CommandStep s active uuid (.startStep sid stepId citations)
        (.ok (.ok sid, [(e.transitionEvent stepId .pending .inProgress citations).toPlanning]))
        (s.put sid (.executable (e.started stepId)))
  | completeRefused {sid stepId : String} {citations : List String} {session : ExecutionSession}
      {e : SessionError} (hsession : s.sessions.lookup sid = some session) :
      CommandStep s active uuid (.completeStep sid stepId citations) (.error e) (s.drop sid)
  | stepCompleted {sid stepId : String} {citations : List String} {e : Executable}
      (hsession : s.sessions.lookup sid = some (.executable e))
      (hepoch : e.epoch = epochOf s.lineageEpoch e.base.ownerTaskId)
      (hstatus : e.stepStatus.lookup stepId = some .inProgress) :
      CommandStep s active uuid (.completeStep sid stepId citations)
        (.ok (.ok sid, [(e.transitionEvent stepId .inProgress .completed citations).toPlanning]))
        (s.put sid (.executable (e.stepCompleted stepId)))
  | finishRefused {sid : String} {session : ExecutionSession} {e : SessionError}
      (hsession : s.sessions.lookup sid = some session) :
      CommandStep s active uuid (.finish sid) (.error e) s
  | finishedAlready {sid : String} {base : SessionBase}
      (hsession : s.sessions.lookup sid = some (.closed base)) :
      CommandStep s active uuid (.finish sid) (.ok (.closed sid, [])) s
  | finished {sid : String} {e : Executable}
      (hsession : s.sessions.lookup sid = some (.executable e))
      (hepoch : e.epoch = epochOf s.lineageEpoch e.base.ownerTaskId)
      (hdone : ∀ stepId ∈ e.planSteps, stepId ∈ e.completed) :
      CommandStep s active uuid (.finish sid) (.ok (.closed sid, [])) (s.put sid (.closed e.base))
  | abortRefused {sid reason : String} {session : ExecutionSession} {e : SessionError}
      (hsession : s.sessions.lookup sid = some session) :
      CommandStep s active uuid (.abort sid reason) (.error e) (s.drop sid)
  | aborted {sid reason : String} {session : ExecutionSession}
      (hsession : s.sessions.lookup sid = some session)
      (hepoch : ensureLineageEpochMatches session s.lineageEpoch session.base.ownerTaskId = .ok ()) :
      CommandStep s active uuid (.abort sid reason)
        (.ok (.closed sid, (session.applyAbort (abortReason reason)).2.map StepAbortEvent.toPlanning))
        (s.put sid (.closed session.base))
  | grounded {sid artifact : String} {planStepId : Option String} {session : ExecutionSession}
      (hsession : s.sessions.lookup sid = some session) :
      CommandStep s active uuid (.submitGrounding sid artifact planStepId) (.ok (.groundingSubmitted sid, [])) s

theorem planTables_ok_iff (seen : Finset String) (t : PlanTables) (st : List PlanStepSubmission) :
    (∃ b, planTables seen t st = .ok b) ↔ (st.map (·.stepId)).Nodup ∧ ∀ step ∈ st, step.stepId ∉ seen := by
  induction st generalizing seen t with
  | nil => simp [planTables]
  | cons step rest ih =>
    by_cases hs : step.stepId ∈ seen
    · simp [planTables, hs]
    · simp only [planTables, hs, if_false, ih, List.map_cons, List.nodup_cons, List.mem_map,
        Finset.mem_insert, List.mem_cons, forall_eq_or_imp, not_false_eq_true, true_and]
      constructor
      · rintro ⟨hn, hf⟩
        refine ⟨⟨?_, hn⟩, fun other ho => fun hin => hf other ho (.inr hin)⟩
        rintro ⟨other, ho, heq⟩
        exact hf other ho (.inl heq)
      · rintro ⟨⟨hne, hn⟩, hf⟩
        refine ⟨hn, fun other ho => ?_⟩
        rintro (heq | hin)
        · exact hne ⟨other, ho, heq⟩
        · exact hf other ho hin

section Handlers

variable {s : SessionStore} {sid si : String} {session : ExecutionSession}

theorem runOn_getSession (h : s.sessions.lookup sid = some session) :
    runOn (getSession sid) s = (.ok session, s) := by
  simp [getSession, runOn_bind, h]

theorem runOn_getSession_none (h : s.sessions.lookup sid = none) :
    runOn (getSession sid) s = (.error .notFound, s) := by
  simp [getSession, runOn_bind, h]

theorem runOn_removeSession (h : s.sessions.lookup sid = some session) :
    runOn (removeSession sid) s = (.ok session, s.drop sid) := by
  simp only [removeSession, runOn_bind, runOn_getSession h, runOn_modify, runOn_pure]

@[simp] theorem runOn_insertSession (s : SessionStore) (sid : String) (session : ExecutionSession) :
    runOn (insertSession sid session) s = (.ok (), s.put sid session) := rfl

@[simp] theorem runOn_claimEpoch (s : SessionStore) (su : Option SupersessionKind) (t : String) :
    runOn (claimEpoch su t) s = (.ok (nextEpoch su (epochOf s.lineageEpoch t)),
        s.setEpoch t (nextEpoch su (epochOf s.lineageEpoch t))) := rfl

@[simp] theorem runOn_requireTaskScope (s : SessionStore) (b : SessionBase) (m : SessionError) :
    runOn (requireTaskScope b.ownerScope m) s = (.ok b.ownerTaskId, s) := by
  simp [requireTaskScope, b.task_eq]

@[simp] theorem runOn_ensureCurrentEpoch (s : SessionStore) (session : ExecutionSession) :
    runOn (ensureCurrentEpoch session) s =
      (ensureLineageEpochMatches session s.lineageEpoch session.base.ownerTaskId, s) := by
  simp [ensureCurrentEpoch, runOn_bind]

variable (ac : Except String RuntimeScope) (uuid : String)

theorem openSession_step (sc : RuntimeScope) (h : ac = .ok sc) :
    CommandStep s ac uuid .open (runOn (openSession sc uuid) s).1 (runOn (openSession sc uuid) s).2 := by
  unfold openSession
  split
  · next ht => exact .openNoTask h ht
  · next taskId ht =>
      exact @CommandStep.opened s ac uuid ⟨sc, taskId, sc.contextId, ht, rfl⟩ h

theorem submitIntent_step (h : s.sessions.lookup sid = some session) (i : IntentSubmissionWire) :
    CommandStep s ac uuid (.submitIntent sid i)
      (runOn (submitIntent session.base.ownerScope sid i) s).1
      (runOn (submitIntent session.base.ownerScope sid i) s).2 := by
  have hc : ∀ epoch, (s.setEpoch session.base.ownerTaskId epoch).sessions.lookup sid =
      some session := fun _ => h
  cases hr : readSupersession .intentSupersession i.supersession with
  | error e =>
    simp only [submitIntent, hr]
    exact .intentUnread h hr
  | ok su =>
    simp only [submitIntent, runOn_bind, hr, runOn_lift, runOn_requireTaskScope, runOn_claimEpoch,
      runOn_removeSession (hc _), ensureScopeMatches_ownerScope]
    cases session with
    | awaitIntent base =>
      simp only [intoAwaitPlan, runOn_insertSession, SessionStore.drop_put]
      exact .intentAccepted h hr rfl
    | awaitPlan base ii epoch | executable e | closed base =>
      exact .intentRefused h hr (by simp)

theorem submitPlan_step (h : s.sessions.lookup sid = some session) (p : PlanSubmissionWire) :
    CommandStep s ac uuid (.submitPlan sid p)
      (runOn (submitPlan session.base.ownerScope sid p) s).1
      (runOn (submitPlan session.base.ownerScope sid p) s).2 := by
  have hc : ∀ epoch, (s.setEpoch session.base.ownerTaskId epoch).sessions.lookup sid =
      some session := fun _ => h
  cases hr : readSupersession .planSupersession p.supersession with
  | error e =>
    simp only [submitPlan, hr]
    exact .planUnread h hr
  | ok su =>
    cases ht : planTables ∅ .empty p.steps with
    | error e =>
      simp only [submitPlan, runOn_bind, hr, runOn_requireTaskScope, ht]
      exact .planDuplicate h hr ht
    | ok tables =>
      simp only [submitPlan, runOn_bind, hr, runOn_lift, runOn_requireTaskScope, ht,
        runOn_claimEpoch, runOn_removeSession (hc _), ensureScopeMatches_ownerScope]
      cases session with
      | awaitPlan base i epoch =>
        by_cases hi : i = p.intentId
        · subst hi
          simp only [ne_eq, not_true_eq_false, if_false, intoExecutable, runOn_bind,
            runOn_lift, runOn_insertSession, SessionStore.drop_put]
          exact .planAccepted h hr ht rfl
        · simp only [ne_eq, hi, not_false_eq_true, if_true, runOn_bind, runOn_insertSession,
            SessionStore.put_drop _ (hc _)]
          exact .planRefused h hr ht (by simp [hi])
      | awaitIntent base | executable e | closed base =>
        simp only [runOn_bind, runOn_insertSession, SessionStore.put_drop _ (hc _)]
        exact .planRefused h hr ht (by simp)

theorem ensureLineageEpochMatches_executable (e : Executable) (ep : LineageEpochs) (taskId : String) :
    ensureLineageEpochMatches (.executable e) ep taskId = .ok () ↔ e.epoch = epochOf ep taskId := by
  simp only [ensureLineageEpochMatches, ExecutionSession.epoch]
  split_ifs with he <;> simp [he]

variable {citations : List String} {ev : StepTransitionEvent} {next : ExecutionSession}

theorem applyStartStep_ok (h : session.applyStartStep si citations = .ok (next, ev)) :
    ∃ e, session = .executable e ∧ e.stepStatus.lookup si = some .pending ∧
      (∀ dep ∈ e.depsOf si, dep ∈ e.completed) ∧ next = .executable (e.started si) ∧
      ev = e.transitionEvent si .pending .inProgress citations := by
  unfold applyStartStep at h
  split at h
  · next e =>
    split at h
    · cases h
    · next hs =>
      split at h
      · cases h
      · next hd =>
        cases h
        exact ⟨e, rfl, hs, (firstUnmetDep_eq_none_iff _ _).mp hd, rfl, rfl⟩
    · cases h
  · cases h

theorem applyCompleteStep_ok (h : session.applyCompleteStep si citations = .ok (next, ev)) :
    ∃ e, session = .executable e ∧ e.stepStatus.lookup si = some .inProgress ∧
      next = .executable (e.stepCompleted si) ∧
      ev = e.transitionEvent si .inProgress .completed citations := by
  unfold applyCompleteStep at h
  split at h
  · next e =>
    split at h
    · cases h
    · next hs =>
      cases h
      exact ⟨e, rfl, hs, rfl, rfl⟩
    · cases h
  · cases h

/-- A step command either drops the session with an error, or passes the epoch
check and stores what the transition returns. -/
theorem runOn_stepCommand (h : s.sessions.lookup sid = some session)
    (apply : ExecutionSession → Except SessionError (ExecutionSession × StepTransitionEvent)) :
    (∃ e, runOn (stepCommand session.base.ownerScope sid apply) s = (.error e, s.drop sid)) ∨
      ∃ next ev, ensureLineageEpochMatches session s.lineageEpoch session.base.ownerTaskId = .ok () ∧
        apply session = .ok (next, ev) ∧
        runOn (stepCommand session.base.ownerScope sid apply) s =
          (.ok (.ok sid, [ev.toPlanning]), s.put sid next) := by
  simp only [stepCommand, runOn_bind, runOn_removeSession h, ensureScopeMatches_ownerScope, runOn_lift,
    runOn_ensureCurrentEpoch, SessionStore.drop_lineageEpoch]
  cases he : ensureLineageEpochMatches session s.lineageEpoch session.base.ownerTaskId with
  | error e => exact .inl ⟨e, rfl⟩
  | ok =>
    cases ha : apply session with
    | error e => exact .inl ⟨e, rfl⟩
    | ok result =>
      obtain ⟨next, ev⟩ := result
      simp [SessionStore.drop_put]

theorem startStep_step (h : s.sessions.lookup sid = some session) (si : String) (citations : List String) :
    CommandStep s ac uuid (.startStep sid si citations)
      (runOn (startStep session.base.ownerScope sid si citations) s).1
      (runOn (startStep session.base.ownerScope sid si citations) s).2 := by
  unfold startStep
  obtain ⟨e, hr⟩ | ⟨next, ev, he, ha, hr⟩ := runOn_stepCommand h (·.applyStartStep si citations)
  · rw [hr]
    exact .startRefused h
  · obtain ⟨e, rfl, hs, hd, rfl, rfl⟩ := applyStartStep_ok ha
    rw [hr]
    exact .started h ((ensureLineageEpochMatches_executable _ _ _).mp he) hs hd

theorem completeStep_step (h : s.sessions.lookup sid = some session) (si : String) (citations : List String) :
    CommandStep s ac uuid (.completeStep sid si citations)
      (runOn (completeStep session.base.ownerScope sid si citations) s).1
      (runOn (completeStep session.base.ownerScope sid si citations) s).2 := by
  unfold completeStep
  obtain ⟨e, hr⟩ | ⟨next, ev, he, ha, hr⟩ := runOn_stepCommand h (·.applyCompleteStep si citations)
  · rw [hr]
    exact .completeRefused h
  · obtain ⟨e, rfl, hs, rfl, rfl⟩ := applyCompleteStep_ok ha
    rw [hr]
    exact .stepCompleted h ((ensureLineageEpochMatches_executable _ _ _).mp he) hs

theorem finish_step (h : s.sessions.lookup sid = some session) :
    CommandStep s ac uuid (.finish sid) (runOn (finish session.base.ownerScope sid) s).1
      (runOn (finish session.base.ownerScope sid) s).2 := by
  simp only [finish, runOn_bind, runOn_getSession h, ensureScopeMatches_ownerScope, runOn_lift,
    runOn_ensureCurrentEpoch]
  cases he : ensureLineageEpochMatches session s.lineageEpoch session.base.ownerTaskId with
  | error e => exact .finishRefused h
  | ok =>
    cases session with
    | closed base => exact .finishedAlready h
    | awaitIntent base | awaitPlan base i epoch =>
      simp only [closeSession, runOn_bind, runOn_removeSession h, runOn_insertSession, SessionStore.put_drop _ h]
      exact .finishRefused h
    | executable e =>
      simp only [closeSession, runOn_bind, runOn_removeSession h]
      split_ifs with hd
      · simp only [runOn_bind, intoClosed, runOn_lift, runOn_insertSession, SessionStore.drop_put]
        exact .finished h ((ensureLineageEpochMatches_executable _ _ _).mp he) hd
      · simp only [runOn_bind, runOn_insertSession, SessionStore.put_drop _ h]
        exact .finishRefused h

theorem applyAbort_fst (session : ExecutionSession) (r : String) :
    (session.applyAbort r).1 = .closed session.base := by
  cases session <;> rfl

theorem abort_step (h : s.sessions.lookup sid = some session) (r : String) :
    CommandStep s ac uuid (.abort sid r)
      (runOn (abort session.base.ownerScope sid r) s).1
      (runOn (abort session.base.ownerScope sid r) s).2 := by
  simp only [abort, runOn_bind, runOn_removeSession h, ensureScopeMatches_ownerScope, runOn_lift,
    runOn_ensureCurrentEpoch, SessionStore.drop_lineageEpoch]
  cases he : ensureLineageEpochMatches session s.lineageEpoch session.base.ownerTaskId with
  | error e => exact .abortRefused h
  | ok =>
    simp only [runOn_insertSession, SessionStore.drop_put, applyAbort_fst]
    exact .aborted h he

theorem submitGrounding_step (h : s.sessions.lookup sid = some session) (ar : String) (p : Option String) :
    CommandStep s ac uuid (.submitGrounding sid ar p)
      (runOn (submitGrounding session.base.ownerScope sid) s).1
      (runOn (submitGrounding session.base.ownerScope sid) s).2 := by
  simp only [submitGrounding, runOn_bind, runOn_getSession h, ensureScopeMatches_ownerScope]
  exact .grounded h

end Handlers

theorem runCommand_step (s : SessionStore) (act : Except String RuntimeScope) (uuid : String)
    (c : ExecutionSessionCommand) :
    CommandStep s act uuid c (runOn (runCommand act uuid c) s).1 (runOn (runCommand act uuid c) s).2 := by
  cases hsi : c.sessionId with
  | none =>
    cases c with
    | «open» =>
      cases ha : act with
      | error r => exact .openNoContext rfl
      | ok sc => exact openSession_step _ uuid sc rfl
    | _ => cases hsi
  | some sid =>
    cases hs : s.sessions.lookup sid with
    | none =>
      simp only [runCommand, invocationScope, hsi, runOn_bind, runOn_getSession_none hs]
      exact .notFound hsi hs
    | some session =>
      simp only [runCommand, invocationScope, hsi, runOn_bind, runOn_getSession hs]
      cases c with
      | «open» => cases hsi
      | submitIntent sid' i => cases hsi; exact submitIntent_step _ _ hs i
      | submitPlan sid' plan => cases hsi; exact submitPlan_step _ _ hs plan
      | startStep sid' st citations => cases hsi; exact startStep_step _ _ hs st citations
      | completeStep sid' st citations =>
        cases hsi; exact completeStep_step _ _ hs st citations
      | finish sid' => cases hsi; exact finish_step _ _ hs
      | abort sid' r => cases hsi; exact abort_step _ _ hs r
      | submitGrounding sid' ar p =>
        cases hsi; exact submitGrounding_step _ _ hs ar p

@[simp] theorem reply_verdict (e : PlanningEvent → Except String Unit)
    (verdict : Except SessionError Accepted) : (reply e verdict).verdict = verdict := by
  cases verdict <;> rfl

/-- Every call is one of the listed outcomes, whatever the emission does. -/
theorem invoke_step (s : SessionStore) (c : Invocation) :
    CommandStep s c.active c.uuid c.command (invoke s c).2.verdict (invoke s c).1 := by
  simpa only [invoke, reply_verdict] using runCommand_step s c.active c.uuid c.command

end AgentiumOs.Session
