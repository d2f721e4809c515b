import AgentiumOs.Session.Step
import AgentiumOs.Lib.Decimal
import AgentiumOs.Lib.Run

/-! One command seen from one session. `SessionMove` lists what a command can do
to the session stored under an id, together with the step status changes the
command reports for it; `CommandStep.move` projects every outcome of a command
to the move of each session. Session ids carry the counter, so an id that was
issued is never issued again. -/

namespace AgentiumOs.Session

open AgentiumOs.Core Lib Lib.Fallible SessionStore

/-- The status change an event reports for a step. -/
def PlanningEvent.statusChange (stepId : String) : PlanningEvent → Option (StepStatus × StepStatus)
  | .stepStatusChanged _ _ _ id old new _ _ => if id = stepId then some (old, new) else none
  | _ => none

/-- The status changes of a step that a verdict on a command for session `sid` reports. -/
def stepChanges (sid stepId : String) (command : ExecutionSessionCommand) :
    Except SessionError Accepted → List (StepStatus × StepStatus)
  | .ok (_, events) =>
      if command.sessionId = some sid then events.filterMap (·.statusChange stepId) else []
  | .error _ => []

/-- What a command can do to the session stored under `sid`. -/
inductive SessionMove (s : SessionStore) (uuid sid : String) :
    ExecutionSessionCommand → Except SessionError Accepted → Option ExecutionSession → Prop
  | unchanged {command : ExecutionSessionCommand} {verdict : Except SessionError Accepted}
      (hquiet : ∀ stepId, stepChanges sid stepId command verdict = []) :
      SessionMove s uuid sid command verdict (s.sessions.lookup sid)
  | dropped {command : ExecutionSessionCommand} {e : SessionError} {session : ExecutionSession}
      (hsession : s.sessions.lookup sid = some session) :
      SessionMove s uuid sid command (.error e) none
  | opened {response : ExecutionSessionResponse} {base : SessionBase}
      (hid : sid = executionSessionId uuid s.counter) :
      SessionMove s uuid sid .open (.ok (response, [])) (some (.awaitIntent base))
  | intentAccepted {intent : IntentSubmissionWire} {base : SessionBase}
      {supersession : Option SupersessionKind} {submission : IntentSubmission} {epoch : ℕ}
      (hsession : s.sessions.lookup sid = some (.awaitIntent base))
      (hread : readSupersession .intentSupersession intent.supersession = .ok supersession)
      (hepoch : epoch = nextEpoch supersession (epochOf s.lineageEpoch base.ownerTaskId)) :
      SessionMove s uuid sid (.submitIntent sid intent)
        (.ok (.phase sid .awaitPlan, [.intentResolved base.ownerScope submission epoch]))
        (some (.awaitPlan base intent.intentId epoch))
  | planAccepted {plan : PlanSubmissionWire} {base : SessionBase} {oldEpoch epoch : ℕ}
      {supersession : Option SupersessionKind} {tables : PlanTables}
      (hsession : s.sessions.lookup sid = some (.awaitPlan base plan.intentId oldEpoch))
      (hread : readSupersession .planSupersession plan.supersession = .ok supersession)
      (htables : planTables ∅ .empty plan.steps = .ok tables)
      (hepoch : epoch = nextEpoch supersession (epochOf s.lineageEpoch base.ownerTaskId)) :
      SessionMove s uuid sid (.submitPlan sid plan)
        (.ok (.phase sid .executable,
          [.planGenerated base.ownerScope plan.intentId plan.planId tables.emitted supersession epoch]))
        (some (.executable
          { base, intentId := plan.intentId, planId := plan.planId, planSteps := tables.ids,
            stepStatus := tables.stepStatus, stepDeps := tables.stepDeps, completed := ∅, epoch,
            currentStepId := none }))
  | started {stepId : String} {citations : List String} {e : Executable}
      (hsession : s.sessions.lookup sid = some (.executable e))
      (hstatus : e.stepStatus.lookup stepId = some .pending)
      (hdeps : ∀ dep ∈ e.depsOf stepId, dep ∈ e.completed) :
      SessionMove s uuid sid (.startStep sid stepId citations)
        (.ok (.ok sid, [(e.transitionEvent stepId .pending .inProgress citations).toPlanning]))
        (some (.executable (e.started stepId)))
  | stepCompleted {stepId : String} {citations : List String} {e : Executable}
      (hsession : s.sessions.lookup sid = some (.executable e))
      (hstatus : e.stepStatus.lookup stepId = some .inProgress) :
      SessionMove s uuid sid (.completeStep sid stepId citations)
        (.ok (.ok sid, [(e.transitionEvent stepId .inProgress .completed citations).toPlanning]))
        (some (.executable (e.stepCompleted stepId)))
  | finished {e : Executable} (hsession : s.sessions.lookup sid = some (.executable e))
      (hdone : ∀ stepId ∈ e.planSteps, stepId ∈ e.completed) :
      SessionMove s uuid sid (.finish sid) (.ok (.closed sid, [])) (some (.closed e.base))
  | aborted {reason : String} {session : ExecutionSession}
      (hsession : s.sessions.lookup sid = some session) :
      SessionMove s uuid sid (.abort sid reason)
        (.ok (.closed sid, (session.applyAbort (abortReason reason)).2.map StepAbortEvent.toPlanning))
        (some (.closed session.base))

variable {s s' : SessionStore} {ac : Except String RuntimeScope} {uuid : String}
  {c : ExecutionSessionCommand} {v : Except SessionError Accepted} {sid : String}

/-- Every session a command is not addressed to stays as it is, an opened one apart. -/
theorem CommandStep.lookup_of_ne (h : CommandStep s ac uuid c v s') (hs : c.sessionId ≠ some sid) :
    s'.sessions.lookup sid = s.sessions.lookup sid ∨ c = .open ∧ sid = executionSessionId uuid s.counter ∧
        (∃ r, v = .ok (r, [])) ∧
        ∃ base, s'.sessions.lookup sid = some (.awaitIntent base) := by
  cases h with
  | opened ha =>
    by_cases hid : sid = executionSessionId uuid s.counter
    · exact .inr ⟨rfl, hid, ⟨_, rfl⟩, _, by rw [hid]; exact lookup_put_self _ _ _⟩
    · exact .inl (lookup_put_of_ne _ hid _)
  | openNoContext | openNoTask | notFound | intentUnread | planUnread | planDuplicate | planRefused
  | finishRefused | finishedAlready | grounded => exact .inl rfl
  | intentRefused | startRefused | completeRefused | abortRefused =>
    exact .inl (Finmap.lookup_erase_ne fun h => hs (by rw [h]; rfl))
  | intentAccepted | planAccepted | started | stepCompleted | finished | aborted =>
    exact .inl (lookup_put_of_ne _ (fun h => hs (by rw [h]; rfl)) _)

theorem CommandStep.move (h : CommandStep s ac uuid c v s') (sid : String) :
    SessionMove s uuid sid c v (s'.sessions.lookup sid) := by
  by_cases hsi : c.sessionId = some sid
  · cases h with
    | openNoContext | openNoTask | opened => cases hsi
    | notFound | intentUnread | planUnread | planDuplicate | planRefused | finishRefused =>
      exact .unchanged fun _ => rfl
    | finishedAlready | grounded =>
      exact .unchanged fun _ => by simp [stepChanges]
    | intentRefused hs | startRefused hs | completeRefused hs
    | abortRefused hs =>
      cases hsi
      rw [lookup_drop_self]
      exact .dropped hs
    | intentAccepted hs hr he =>
      cases hsi
      rw [lookup_put_self]
      exact .intentAccepted hs hr he
    | planAccepted hs hr ht he =>
      cases hsi
      rw [lookup_put_self]
      exact .planAccepted hs hr ht he
    | started hs he hst hd =>
      cases hsi
      rw [lookup_put_self]
      exact .started hs hst hd
    | stepCompleted hs he hst =>
      cases hsi
      rw [lookup_put_self]
      exact .stepCompleted hs hst
    | finished hs he hdo =>
      cases hsi
      rw [lookup_put_self]
      exact .finished hs hdo
    | aborted hs he =>
      cases hsi
      rw [lookup_put_self]
      exact .aborted hs
  · obtain hsa | ⟨rfl, hid, ⟨r, rfl⟩, base, hn⟩ := h.lookup_of_ne hsi
    · rw [hsa]
      -- a verdict on a command for another session reports nothing for this one
      exact .unchanged fun stepId => by cases v <;> simp [stepChanges, hsi]
    · rw [hn]
      exact .opened hid

theorem invoke_move (s : SessionStore) (ca : Invocation) (sid : String) :
    SessionMove s ca.uuid sid ca.command (invoke s ca).2.verdict ((invoke s ca).1.sessions.lookup sid) :=
  (invoke_step s ca).move sid

theorem executionSessionId_inj (h : executionSessionId uuid m = executionSessionId uuid' n) : m = n :=
  (Decimal.append_colon_repr_inj (p := "execution:" ++ uuid) (q := "execution:" ++ uuid') h).2

/-- The id was issued before the counter reached `counter`. -/
def Issued (counter : ℕ) (sid : String) : Prop :=
  ∃ uuid n, n < counter ∧ sid = executionSessionId uuid n

theorem not_issued_next (uuid : String) (c : ℕ) : ¬ Issued c (executionSessionId uuid c) := by
  rintro ⟨uuid', n, hn, hid⟩
  exact absurd (executionSessionId_inj hid) (by omega)

theorem Issued.mono {counter counter' : ℕ} (h : Issued counter sid) (hle : counter ≤ counter') :
    Issued counter' sid := by
  obtain ⟨uuid, n, hn, rfl⟩ := h
  exact ⟨uuid, n, by omega, rfl⟩

theorem CommandStep.counter_le (h : CommandStep s ac uuid c v s') : s.counter ≤ s'.counter := by
  cases h <;> simp

def OnlyIssued (s : SessionStore) : Prop :=
  ∀ sid session, s.sessions.lookup sid = some session → Issued s.counter sid

theorem CommandStep.onlyIssued (h : CommandStep s ac uuid c v s') (hs : OnlyIssued s) : OnlyIssued s' := by
  intro sid se hse
  have hm := h.move sid
  rw [hse] at hm
  generalize hn : some se = new at hm
  cases hm with
  | unchanged => exact (hs sid se hn.symm).mono h.counter_le
  | dropped => cases hn
  | opened hid =>
    cases h
    exact ⟨uuid, s.counter, by simp, hid⟩
  | intentAccepted ho | planAccepted ho | started ho | stepCompleted ho | finished ho
  | aborted ho => exact (hs sid _ ho).mono h.counter_le

theorem onlyIssued_exec (c : List Invocation) : OnlyIssued (Run.exec invoke .init c) := by
  refine Run.exec_invariant invoke OnlyIssued (fun s call hs => (invoke_step s call).onlyIssued hs) .init ?_ c
  intro sid session hse
  cases hse

end AgentiumOs.Session
