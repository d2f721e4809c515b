import AgentiumOs.Session.Lineage

/-! Attribution of tool and model calls to plan steps. A call made in a task's
scope is attributed to the current step of the first executable session of the
task that has one, in whatever order the session map is iterated. Two things can
make that answer wrong: the current step of a session is cleared while another
of its steps is still in progress, and a superseded session keeps its current
step. In runs that avoid both, the answer is always a step in progress under the
task's epoch, and there is an answer whenever there is such a step. -/

namespace AgentiumOs.Session

open AgentiumOs.Core Lib Lib.Fallible ExecutionSession

/-- The plan and the current step of an executable session of the task. -/
def ExecutionSession.planningStep (taskId : String) : ExecutionSession → Option (String × String)
  | .executable e =>
      if e.base.ownerTaskId = taskId then e.currentStepId.map fun stepId => (e.planId, stepId)
      else none
  | _ => none

/-- The entries are those of the session map, in the order of its iteration. -/
def resolvePlanningStep (entries : List (Σ _ : String, ExecutionSession)) (scope : RuntimeScope) :
    Option (String × String) :=
  scope.taskIdOpt.bind fun taskId => (entries.filterMap fun entry => entry.2.planningStep taskId).head?

/-- A step in progress of a session of the task's current epoch. -/
def InProgressAt (s : SessionStore) (taskId : String) (step : String × String) : Prop :=
  ∃ sid e, s.sessions.lookup sid = some (.executable e) ∧ e.base.ownerTaskId = taskId ∧
    e.epoch = epochOf s.lineageEpoch taskId ∧ e.planId = step.1 ∧
    e.stepStatus.lookup step.2 = some .inProgress

/-! ### What a command may do -/

/-- The task a submission moves to a new epoch, if it can be read. -/
def newEpochTask (s : SessionStore) (session : ExecutionSession) :
    Except SessionError (Option SupersessionKind) → Option String
  | .ok supersession =>
      let taskId := session.base.ownerTaskId
      let current := epochOf s.lineageEpoch taskId
      if nextEpoch supersession current = current then none else some taskId
  | .error _ => none

/-- The task for which a command claims a new epoch. The epoch is claimed before
the session is looked at, so a submission that is then refused claims it too. -/
def claimedTask (s : SessionStore) : ExecutionSessionCommand → Option String
  | .submitIntent sid intent =>
      (s.sessions.lookup sid).bind fun session =>
        newEpochTask s session (readSupersession .intentSupersession intent.supersession)
  | .submitPlan sid plan =>
      if (plan.steps.map (·.stepId)).Nodup then
        (s.sessions.lookup sid).bind fun session =>
          newEpochTask s session (readSupersession .planSupersession plan.supersession)
      else none
  | _ => none

/-- The session that does not survive a refusal of the submission. -/
def ExecutionSessionCommand.intentSession : ExecutionSessionCommand → Option String
  | .submitIntent sid _ => some sid
  | _ => none

/-- The session of a completed step, and the step. -/
def ExecutionSessionCommand.completes : ExecutionSessionCommand → Option (String × String)
  | .completeStep sid stepId _ => some (sid, stepId)
  | _ => none

/-- No other step of the session is in progress when its current step completes. -/
def Executable.LastInProgress (e : Executable) (stepId : String) : Prop :=
  e.currentStepId = some stepId →
    ∀ other ∈ e.stepStatus.keys, other ≠ stepId → e.stepStatus.lookup other ≠ some .inProgress

instance (e : Executable) (stepId : String) : Decidable (e.LastInProgress stepId) := by
  unfold Executable.LastInProgress
  infer_instance

/-- A task moves to a new epoch only while none of its sessions has a current
step, and a session's current step completes only as its last step in progress. -/
def KeepsAttribution (s : SessionStore) (call : Invocation) : Prop :=
  (∀ taskId ∈ claimedTask s call.command, ∀ sid ∈ s.sessions.keys, call.command.intentSession ≠ some sid →
    (s.sessions.lookup sid).bind (·.planningStep taskId) = none) ∧
  ∀ target ∈ call.command.completes, ∀ session ∈ s.sessions.lookup target.1, match session with
    | .executable e => e.LastInProgress target.2
    | _ => True

instance (s : SessionStore) (call : Invocation) : Decidable (KeepsAttribution s call) := by
  unfold KeepsAttribution
  refine @instDecidableAnd _ _ inferInstance ?_
  refine @Option.decidableForallMem _ _ (fun target => ?_) _
  refine @Option.decidableForallMem _ _ (fun session => ?_) _
  cases session <;> infer_instance

/-- A current step belongs to the task's epoch, and a session with a step in
progress has a current step. -/
structure Attributed (s : SessionStore) : Prop where
  epoch : ∀ sid e, s.sessions.lookup sid = some (.executable e) → e.currentStepId ≠ none →
    e.epoch = epochOf s.lineageEpoch e.base.ownerTaskId
  current : ∀ sid e stepId, s.sessions.lookup sid = some (.executable e) →
    e.stepStatus.lookup stepId = some .inProgress → e.currentStepId ≠ none

variable {s s' : SessionStore} {call : Invocation} {active : Except String RuntimeScope} {uuid : String}
  {v : Except SessionError Accepted} {session : ExecutionSession} {sid taskId si : String}
  {e e' : Executable}

theorem CommandStep.epochOf_eq {taskId : String} (h : CommandStep s call.active call.uuid call.command v s')
    (hc : claimedTask s call.command ≠ some taskId) :
    epochOf s'.lineageEpoch taskId = epochOf s.lineageEpoch taskId := by
  -- a submission of a session that could be read and did not claim the epoch
  have hse : ∀ (session : ExecutionSession) (su : Option SupersessionKind),
      newEpochTask s session (.ok su) ≠ some taskId →
      epochOf (s.setEpoch session.base.ownerTaskId (nextEpoch su
        (epochOf s.lineageEpoch session.base.ownerTaskId))).lineageEpoch taskId =
          epochOf s.lineageEpoch taskId := by
    intro session su hne
    by_cases hta : taskId = session.base.ownerTaskId
    · subst hta
      rw [SessionStore.epochOf_setEpoch_self]
      by_contra hm
      exact hne (if_neg hm)
    · exact SessionStore.epochOf_setEpoch_of_ne _ hta _
  generalize call.command = c at h hc
  cases h with
  | openNoContext | openNoTask | opened | notFound | intentUnread | planUnread | planDuplicate
  | startRefused | started | completeRefused | stepCompleted | finishRefused | finishedAlready
  | finished | abortRefused | aborted | grounded => rfl
  | intentRefused hs hr _ =>
    refine hse _ _ ?_
    simpa [claimedTask, hs, hr] using hc
  | intentAccepted hs hr he =>
    subst he
    refine hse (.awaitIntent _) _ ?_
    simpa [claimedTask, hs, hr] using hc
  | planRefused hs hr ht _ =>
    refine hse _ _ ?_
    have hn := ((planTables_ok_iff ∅ .empty _).mp ⟨_, ht⟩).1
    simpa [claimedTask, hs, hr, hn] using hc
  | @planAccepted _ p base o _ _ _ hs hr ht he =>
    subst he
    refine hse (.awaitPlan base p.intentId o) _ ?_
    have hn := ((planTables_ok_iff ∅ .empty _).mp ⟨_, ht⟩).1
    simpa [claimedTask, hs, hr, hn] using hc

/-- The session of a submitted intent is not executable afterwards, unless the
submission could not be read and so claimed nothing. -/
theorem CommandStep.intentSession_not_executable (h : CommandStep s call.active call.uuid call.command v s')
    (hc : claimedTask s call.command = some taskId) (hsi : call.command.intentSession = some sid) :
    s'.sessions.lookup sid ≠ some (.executable e) := by
  generalize call.command = c at h hc hsi
  cases h with
  | openNoContext | openNoTask | opened | planUnread | planDuplicate
  | startRefused | started | completeRefused | stepCompleted | finishRefused | finishedAlready
  | finished | abortRefused | aborted | grounded | planRefused | planAccepted => cases hsi
  | notFound hn hs =>
    cases c <;> cases hsi
    cases hn
    simp [claimedTask, hs] at hc
  | intentUnread hs hr => simp [claimedTask, hr, newEpochTask] at hc
  | intentRefused | intentAccepted =>
    cases hsi
    simp

theorem CommandStep.started_epoch (h : CommandStep s active uuid (.startStep sid si c) (.ok ac) s')
    (hs : s.sessions.lookup sid = some (.executable e)) : e.epoch = epochOf s.lineageEpoch e.base.ownerTaskId := by
  cases h with
  | started hs' he =>
    cases hs.symm.trans hs'
    exact he

/-- In a store that keeps the attribution, the epoch of a task with a current
step stays. -/
theorem KeepsAttribution.epochOf_eq
    (hok : KeepsAttribution s call) (h : CommandStep s call.active call.uuid call.command v s')
    (ho : s.sessions.lookup sid = some (.executable e)) (hcu : e.currentStepId ≠ none)
    (hne : s'.sessions.lookup sid = some (.executable e')) :
    epochOf s'.lineageEpoch e.base.ownerTaskId = epochOf s.lineageEpoch e.base.ownerTaskId := by
  refine h.epochOf_eq fun hc => ?_
  have hs : call.command.intentSession ≠ some sid := fun hs =>
    h.intentSession_not_executable hc hs hne
  have hn := hok.1 _ hc sid (Finmap.mem_keys.mpr (Finmap.mem_of_lookup_eq_some ho)) hs
  rw [ho] at hn
  simp [planningStep, hcu] at hn

theorem Attributed.epoch_step (hs : Attributed s) (hok : KeepsAttribution s call)
    (h : CommandStep s call.active call.uuid call.command v s') (sid : String) (e : Executable)
    (hse : s'.sessions.lookup sid = some (.executable e)) (hc : e.currentStepId ≠ none) :
    e.epoch = epochOf s'.lineageEpoch e.base.ownerTaskId := by
  have hm := h.move sid
  rw [hse] at hm
  generalize hne : some (executable e) = new at hm
  have hk := fun ho => hok.epochOf_eq (e := e) h ho hc hse
  have hst : ∀ taskId, claimedTask s call.command ≠ some taskId →
      epochOf s'.lineageEpoch taskId = epochOf s.lineageEpoch taskId := fun _ => h.epochOf_eq
  generalize call.command = c at h hm hst
  cases hm with
  | unchanged =>
    rw [hk hne.symm]
    exact hs.epoch sid e hne.symm hc
  | dropped | opened | intentAccepted | finished | aborted => cases hne
  | planAccepted =>
    cases hne
    exact absurd rfl hc
  | started ho =>
    cases hne
    exact (h.started_epoch ho).trans (hst _ (by simp [claimedTask])).symm
  | @stepCompleted si _ old ho =>
    cases hne
    -- the current step is the one the session had before
    have hb : old.currentStepId ≠ none := by
      intro hn
      simp [Executable.stepCompleted, hn] at hc
    exact (hs.epoch sid old ho hb).trans (hst _ (by simp [claimedTask])).symm

theorem Attributed.current_step (hs : Attributed s) (hok : KeepsAttribution s call)
    (h : CommandStep s call.active call.uuid call.command v s') (sid : String) (e : Executable)
    (si : String) (hse : s'.sessions.lookup sid = some (.executable e))
    (hst : e.stepStatus.lookup si = some .inProgress) : e.currentStepId ≠ none := by
  have hm := h.move sid
  rw [hse] at hm
  generalize hn : some (executable e) = new at hm
  have hc := hok.2
  generalize call.command = c at hm hc
  cases hm with
  | unchanged => exact hs.current sid e si hn.symm hst
  | dropped | opened | intentAccepted | finished | aborted => cases hn
  | planAccepted _ _ ht =>
    cases hn
    have hp := planTables_pending ht si
    simp [hst] at hp
  | started =>
    cases hn
    simp [Executable.started]
  | @stepCompleted done _ old ho _ =>
    cases hn
    have hne : si ≠ done := by
      rintro rfl
      simp at hst
    rw [Executable.lookup_stepCompleted_of_ne _ hne] at hst
    have hl : old.LastInProgress done := hc (sid, done) rfl _ ho
    by_cases hcu : old.currentStepId = some done
    · have hk : si ∈ old.stepStatus.keys := by
        rw [Finmap.mem_keys, ← Finmap.lookup_isSome, hst]
        rfl
      exact absurd hst (hl hcu si hk hne)
    · simpa [Executable.stepCompleted, hcu] using hs.current sid old si ho hst

theorem attributed_init : Attributed .init := by
  refine ⟨fun sid e hs => ?_, fun sid e si hs => ?_⟩ <;> cases hs

variable {entries : List (Σ _ : String, ExecutionSession)}

theorem mem_entries_iff (h : (entries : Multiset (Σ _ : String, ExecutionSession)) = s.sessions.entries)
    (sid : String) (session : ExecutionSession) :
    ⟨sid, session⟩ ∈ entries ↔ s.sessions.lookup sid = some session := by
  rw [← Multiset.mem_coe, h]
  exact Finmap.mem_lookup_iff.symm

variable {scope : RuntimeScope}

theorem resolvePlanningStep_some (he : (entries : Multiset (Σ _ : String, ExecutionSession)) = s.sessions.entries)
    (hsc : scope.taskIdOpt = some taskId) (h : resolvePlanningStep entries scope = some step) :
    ∃ sid e, s.sessions.lookup sid = some (.executable e) ∧ e.base.ownerTaskId = taskId ∧
      e.planId = step.1 ∧ e.currentStepId = some step.2 := by
  simp only [resolvePlanningStep, hsc] at h
  obtain ⟨⟨sid, session⟩, hm, hs⟩ := List.mem_filterMap.mp (List.mem_of_mem_head? h)
  rw [mem_entries_iff he] at hm
  cases session with
  | executable e =>
    simp only [planningStep] at hs
    split_ifs at hs with ht
    obtain ⟨si, hc, rfl⟩ := Option.map_eq_some_iff.mp hs
    exact ⟨sid, e, hm, ht, rfl, hc⟩
  | awaitIntent | awaitPlan | closed => cases hs

theorem resolvePlanningStep_isSome
    (he : (entries : Multiset (Σ _ : String, ExecutionSession)) = s.sessions.entries)
    (hs : scope.taskIdOpt = some taskId) (hse : s.sessions.lookup sid = some (.executable e))
    (ht : e.base.ownerTaskId = taskId) (hc : e.currentStepId ≠ none) :
    ∃ step, resolvePlanningStep entries scope = some step := by
  obtain ⟨si, hst⟩ := Option.ne_none_iff_exists'.mp hc
  simp only [resolvePlanningStep, hs, Option.bind_some]
  have hm : (e.planId, si) ∈ entries.filterMap fun entry => entry.2.planningStep taskId := by
    refine List.mem_filterMap.mpr ⟨⟨sid, .executable e⟩, (mem_entries_iff he _ _).mpr hse, ?_⟩
    simp [planningStep, ht, hst]
  cases hl : entries.filterMap fun entry => entry.2.planningStep taskId with
  | nil => simp [hl] at hm
  | cons step rest => exact ⟨step, rfl⟩

/-- Along runs that keep the attribution, calls in a task's scope are attributed
to a step in progress under the task's epoch whenever there is one, and to
nothing else, whatever the order in which the sessions are visited. -/
theorem planning_step_attributed (calls : List Invocation) (hcalls : Run.Along invoke KeepsAttribution .init calls)
    (entries : List (Σ _ : String, ExecutionSession))
    (hentries : (entries : Multiset (Σ _ : String, ExecutionSession)) =
      (Run.exec invoke .init calls).sessions.entries)
    (scope : RuntimeScope) (taskId : String) (hscope : scope.taskIdOpt = some taskId) :
    (∀ step, resolvePlanningStep entries scope = some step →
      InProgressAt (Run.exec invoke .init calls) taskId step) ∧
    ((∃ step, InProgressAt (Run.exec invoke .init calls) taskId step) →
      ∃ step, resolvePlanningStep entries scope = some step) := by
  have ha := Run.along_invariant invoke KeepsAttribution Attributed
    (fun s call hok hs => ⟨hs.epoch_step hok (invoke_step s call), hs.current_step hok (invoke_step s call)⟩) .init
    attributed_init calls hcalls
  have hco := allConsistent_exec calls
  constructor
  · intro step h
    obtain ⟨sid, e, hse, rfl, hp, hc⟩ := resolvePlanningStep_some hentries hscope h
    refine ⟨sid, e, hse, rfl, ha.epoch sid e hse (by simp [hc]), hp, ?_⟩
    exact (hco sid e hse).current_inProgress step.2 hc
  · rintro ⟨step, sid, e, hse, ht, -, -, hst⟩
    exact resolvePlanningStep_isSome hentries hscope hse ht
      (ha.current sid e step.2 hse hst)

/-- The entries of the given sessions, in that order. -/
def SessionStore.entriesOf (s : SessionStore) (ids : List String) : List (Σ _ : String, ExecutionSession) :=
  ids.filterMap fun sid => (s.sessions.lookup sid).map fun session => ⟨sid, session⟩

/-- A plan of two independent steps for the first session. -/
def twoStepPlan : ExecutionSessionCommand :=
  .submitPlan "execution:uuid:0" ⟨"intent", "plan", [⟨"a", "look", 0, []⟩, ⟨"b", "listen", 1, []⟩], none⟩

/-- The first session with both steps of its plan started. -/
def bothStarted : List Invocation :=
  [callFromTask .open, callFromTask firstIntent, callFromTask twoStepPlan,
    callFromTask (.startStep "execution:uuid:0" "a" []), callFromTask (.startStep "execution:uuid:0" "b" [])]

/-- The step that started first completes: the other one is still the current step. -/
def firstCompleted : List Invocation :=
  bothStarted ++ [callFromTask (.completeStep "execution:uuid:0" "a" [])]

theorem second_step_attributed :
    ∃ step, resolvePlanningStep ((Run.exec invoke .init firstCompleted).entriesOf ["execution:uuid:0"])
      (.taskScope "context" "agent" "message" "task") = some step :=
  (planning_step_attributed firstCompleted (by decide)
    ((Run.exec invoke .init firstCompleted).entriesOf ["execution:uuid:0"]) (by decide)
    (.taskScope "context" "agent" "message" "task") "task" rfl).2
    ⟨("plan", "b"), "execution:uuid:0", _, rfl, rfl, by decide, rfl, by decide⟩

def lastCompleted : SessionStore :=
  Run.exec invoke .init (bothStarted ++ [callFromTask (.completeStep "execution:uuid:0" "b" [])])

/-- A second session supersedes the first, whose step is in progress. -/
def supersededInProgress : SessionStore :=
  Run.exec invoke .init (bothStarted ++ [callFromTask .open, callFromTask replacingIntent])

/-- After the step that started last completed, the other one is in progress but
calls are attributed to no step; and calls are attributed to the step of a
session that was superseded. -/
theorem attribution_lost_and_stale : (InProgressAt lastCompleted "task" ("plan", "a") ∧
      (lastCompleted.entriesOf ["execution:uuid:0"] : Multiset (Σ _ : String, ExecutionSession)) =
        lastCompleted.sessions.entries ∧
      resolvePlanningStep (lastCompleted.entriesOf ["execution:uuid:0"])
        (.taskScope "context" "agent" "message" "task") = none) ∧
    ((supersededInProgress.entriesOf ["execution:uuid:0", "execution:uuid:1"] :
        Multiset (Σ _ : String, ExecutionSession)) = supersededInProgress.sessions.entries ∧
      resolvePlanningStep (supersededInProgress.entriesOf ["execution:uuid:0", "execution:uuid:1"])
        (.taskScope "context" "agent" "message" "task") = some ("plan", "b") ∧
      (supersededInProgress.sessions.lookup "execution:uuid:0").bind (·.epoch) = some 0 ∧
      epochOf supersededInProgress.lineageEpoch "task" = 1) := by
  refine ⟨⟨⟨"execution:uuid:0", _, rfl, rfl, by decide, rfl, by decide⟩, ?_, ?_⟩, ?_, ?_, ?_, ?_⟩
  all_goals decide

end AgentiumOs.Session
