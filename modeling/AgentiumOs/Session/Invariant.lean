import AgentiumOs.Session.Moves

/-! The invariant of executable sessions over whole runs. The status table, the
completed set and the current step of a session agree with each other
(`Consistent`, a step lemma and the run), and they agree with the history of the
run: the reported status changes of a step form a path that ends in its status,
a step that left `pending` was started when its dependencies were completed, and
the declared dependencies are those of the accepted plan. -/

namespace AgentiumOs.Session

open AgentiumOs.Core Lib Lib.Fallible Executable ExecutionSession List

/-! ### The fields of a session agree -/

/-- The redundant fields of an executable session say the same. -/
structure Executable.Consistent (e : Executable) : Prop where
  mem_completed_iff : ∀ id, id ∈ e.completed ↔ e.stepStatus.lookup id = some .completed
  current_inProgress : ∀ id, e.currentStepId = some id → e.stepStatus.lookup id = some .inProgress
  not_aborted : ∀ id, e.stepStatus.lookup id ≠ some .aborted
  mem_planSteps_iff : ∀ id, id ∈ e.planSteps ↔ (e.stepStatus.lookup id).isSome

variable {st : List PlanStepSubmission} {t built : PlanTables}

/-- The tables of a plan: every submitted step is pending with its cleaned
dependencies, and nothing else is added. -/
theorem planTables_spec (h : planTables se t st = .ok built) : built.ids = t.ids ++ st.map (·.stepId) ∧
      (∀ id, built.stepStatus.lookup id =
        if id ∈ st.map (·.stepId) then some .pending else t.stepStatus.lookup id) ∧
      (∀ id ∉ st.map (·.stepId), built.stepDeps.lookup id = t.stepDeps.lookup id) ∧
      ∀ step ∈ st, built.stepDeps.lookup step.stepId = some (cleanDeps step.dependsOn) := by
  induction st generalizing se t with
  | nil =>
    cases h
    simp
  | cons step re ih =>
    obtain ⟨hn, -⟩ := (planTables_ok_iff se t (step :: re)).mp ⟨built, h⟩
    have hne : step.stepId ∉ re.map (·.stepId) := (nodup_cons.mp hn).1
    by_cases hs : step.stepId ∈ se
    · simp [planTables, hs] at h
    · simp only [planTables, hs] at h
      obtain ⟨hi, hst, ho, hd⟩ := ih h
      refine ⟨by simp [hi], fun id => ?_, fun id hid => ?_, fun o hm => ?_⟩
      · rw [hst id]
        by_cases hid : id = step.stepId
        · rw [hid, if_neg hne, if_pos (by simp)]
          exact Finmap.lookup_insert _
        · simp [hid]
      · simp only [map_cons, mem_cons, not_or] at hid
        rw [ho id hid.2]
        exact Finmap.lookup_insert_of_ne _ hid.1
      · rcases mem_cons.mp hm with rfl | hr
        · rw [ho _ hne]
          exact Finmap.lookup_insert _
        · exact hd o hr

theorem planTables_pending (h : planTables ∅ .empty st = .ok t) (id : String) :
    (t.stepStatus.lookup id).getD .pending = .pending := by
  rw [(planTables_spec h).2.1 id]
  split_ifs <;> rfl

theorem consistent_of_plan {plan : PlanSubmissionWire} (base : SessionBase) (epoch : ℕ)
    (h : planTables ∅ .empty plan.steps = .ok t) :
    Executable.Consistent
      { base, intentId := plan.intentId, planId := plan.planId, planSteps := t.ids,
        stepStatus := t.stepStatus, stepDeps := t.stepDeps, completed := ∅, epoch,
        currentStepId := none } := by
  obtain ⟨hi, hs, -, -⟩ := planTables_spec h
  have hp : ∀ id, t.stepStatus.lookup id = if id ∈ t.ids then some .pending else none := by
    intro id
    rw [hs id, hi]
    rfl
  refine ⟨fun id => ?_, by simp, fun id => ?_, fun id => ?_⟩
  all_goals
    simp only [hp]
    split_ifs with hid <;> simp [hid]

variable {e : Executable}

theorem Executable.Consistent.started (h : e.Consistent) {si : String}
    (hs : e.stepStatus.lookup si = some .pending) : (e.started si).Consistent := by
  refine ⟨fun id => ?_, fun id hid => ?_, fun id => ?_, fun id => ?_⟩
  · by_cases hid : id = si
    · subst hid
      simpa [Executable.started] using (h.mem_completed_iff id).not.mpr (by simp [hs])
    · rw [Executable.lookup_started_of_ne e hid]
      exact h.mem_completed_iff id
  · cases hid
    exact e.lookup_started_self si
  · by_cases hid : id = si
    · subst hid
      simp
    · rw [Executable.lookup_started_of_ne e hid]
      exact h.not_aborted id
  · by_cases hid : id = si
    · subst hid
      simpa [Executable.started] using (h.mem_planSteps_iff id).mpr (by simp [hs])
    · rw [Executable.lookup_started_of_ne e hid]
      exact h.mem_planSteps_iff id

theorem Executable.Consistent.stepCompleted (h : e.Consistent) {stepId : String}
    (hs : e.stepStatus.lookup stepId = some .inProgress) :
    (e.stepCompleted stepId).Consistent := by
  refine ⟨fun id => ?_, fun id hid => ?_, fun id => ?_, fun id => ?_⟩
  · by_cases hid : id = stepId
    · subst hid
      simp [Executable.stepCompleted]
    · simpa [Executable.stepCompleted, hid] using h.mem_completed_iff id
  · by_cases hc : e.currentStepId = some stepId
    · simp [Executable.stepCompleted, hc] at hid
    · have hid' : e.currentStepId = some id := by simpa [Executable.stepCompleted, hc] using hid
      have hne : id ≠ stepId := fun heq => hc (heq ▸ hid')
      rw [Executable.lookup_stepCompleted_of_ne e hne]
      exact h.current_inProgress id hid'
  · by_cases hid : id = stepId
    · subst hid
      simp
    · rw [Executable.lookup_stepCompleted_of_ne e hid]
      exact h.not_aborted id
  · by_cases hid : id = stepId
    · subst hid
      simpa [Executable.stepCompleted] using (h.mem_planSteps_iff id).mpr (by simp [hs])
    · rw [Executable.lookup_stepCompleted_of_ne e hid]
      exact h.mem_planSteps_iff id

/-- Every stored executable session is consistent. -/
def AllConsistent (s : SessionStore) : Prop :=
  ∀ sid e, s.sessions.lookup sid = some (.executable e) → e.Consistent

theorem allConsistent_invoke (s : SessionStore) (c : Invocation) (hs : AllConsistent s) :
    AllConsistent (invoke s c).1 := by
  intro sid e hse
  have hm := invoke_move s c sid
  rw [hse] at hm
  generalize hn : some (executable e) = new at hm
  generalize c.command = command, (invoke s c).2.verdict = verdict at hm
  cases hm with
  | unchanged => exact hs sid e hn.symm
  | dropped | opened | intentAccepted | finished | aborted => cases hn
  | planAccepted _ _ ht _ =>
    cases hn
    exact consistent_of_plan _ _ ht
  | started ho hst _ =>
    cases hn
    exact (hs sid _ ho).started hst
  | stepCompleted ho hst =>
    cases hn
    exact (hs sid _ ho).stepCompleted hst

variable (calls : List Invocation)

theorem allConsistent_exec : AllConsistent (Run.exec invoke .init calls) := by
  refine Run.exec_invariant invoke AllConsistent allConsistent_invoke .init ?_ calls
  intro sid e hs
  cases hs

/-! ### The history of a step -/

inductive StatusStep : StepStatus → StepStatus → Prop
  | start : StatusStep .pending .inProgress
  | complete : StatusStep .inProgress .completed
  | abortPending : StatusStep .pending .aborted
  | abortInProgress : StatusStep .inProgress .aborted

/-- The reported changes lead step by step from one status to another. -/
inductive StatusPath : StepStatus → List (StepStatus × StepStatus) → StepStatus → Prop
  | nil (a : StepStatus) : StatusPath a [] a
  | cons {a b c : StepStatus} {rest : List (StepStatus × StepStatus)} (hstep : StatusStep a b)
      (hrest : StatusPath b rest c) : StatusPath a ((a, b) :: rest) c

theorem StatusPath.concat (h : StatusPath a cha b) (hs : StatusStep b c) :
    StatusPath a (cha ++ [(b, c)]) c := by
  induction h with
  | nil a => exact .cons hs (.nil c)
  | cons hf _ ih => exact .cons hf (ih hs)

/-- The status changes of a step of session `sid` reported along a run. -/
def statusChanges (calls : List Invocation) (sid stepId : String) : List (StepStatus × StepStatus) :=
  Run.collect invoke (fun s call => stepChanges sid stepId call.command (invoke s call).2.verdict) .init calls

theorem statusChanges_concat (c : Invocation) (sid si : String) :
    statusChanges (calls ++ [c]) sid si = statusChanges calls sid si ++
      stepChanges sid si c.command (invoke (Run.exec invoke .init calls) c).2.verdict :=
  Run.collect_concat _ _ _ _ _

/-- What an abort reports for a step: its status becomes `aborted` unless the
step is not in the plan, completed or aborted already. -/
theorem filterMap_abortSteps (e : Executable) (re si : String) (ids : List String) (st : StepStatuses) :
    ((abortSteps e re ids st).map StepAbortEvent.toPlanning).filterMap (·.statusChange si) =
      if si ∈ ids ∧ (st.lookup si).getD .pending ≠ .completed ∧
          (st.lookup si).getD .pending ≠ .aborted then
        [((st.lookup si).getD .pending, .aborted)]
      else [] := by
  induction ids generalizing st with
  | nil => simp [abortSteps]
  | cons id rest ih =>
    by_cases hid : id = si
    · subst hid
      by_cases he : (st.lookup id).getD .pending = .completed ∨ (st.lookup id).getD .pending = .aborted
      · rw [abortSteps]
        simp only [he, if_true, ih]
        rcases he with he | he <;> simp [he]
      · have ho := not_or.mp he
        rw [abortSteps]
        simp only [he, if_false, map_cons, filterMap_cons, ih]
        simp [StepAbortEvent.toPlanning, PlanningEvent.statusChange, abortEvent, ho]
    · have hne : si ≠ id := fun h => hid h.symm
      rw [abortSteps]
      by_cases he : (st.lookup id).getD .pending = .completed ∨ (st.lookup id).getD .pending = .aborted
      · simp [he, ih, hne]
      · simp only [he, if_false, map_cons, filterMap_cons, ih]
        simp [StepAbortEvent.toPlanning, PlanningEvent.statusChange, abortEvent, hid, hne]

/-- How the reported changes of a session's steps match the session. -/
def HistoryMatches (changes : String → List (StepStatus × StepStatus)) :
    Option ExecutionSession → Prop
  | some (.awaitIntent _) | some (.awaitPlan _ _ _) => ∀ stepId, changes stepId = []
  | some (.executable e) =>
      ∀ stepId, StatusPath .pending (changes stepId) ((e.stepStatus.lookup stepId).getD .pending)
  | some (.closed _) | none => ∀ stepId, ∃ last, StatusPath .pending (changes stepId) last

theorem HistoryMatches.exists_path (h : HistoryMatches c se) (si : String) :
    ∃ last, StatusPath .pending (c si) last := by
  match se, h with
  | some (.awaitIntent _), h | some (.awaitPlan _ _ _), h => exact ⟨.pending, h si ▸ .nil _⟩
  | some (.executable e), h => exact ⟨_, h si⟩
  | some (.closed _), h | none, h => exact h si

theorem stepChanges_transition (e : Executable) (sid si o : String)
    (com : ExecutionSessionCommand) (hs : com.sessionId = some sid)
    (old new : StepStatus) (c : List String) (r : ExecutionSessionResponse) :
    stepChanges sid o com (.ok (r, [(e.transitionEvent si old new c).toPlanning])) =
      if si = o then [(old, new)] else [] := by
  by_cases h : si = o <;>
    simp [stepChanges, hs, StepTransitionEvent.toPlanning, transitionEvent, PlanningEvent.statusChange, h]

section Move

variable {s : SessionStore} {uuid sid r : String} {co : ExecutionSessionCommand}
  {v : Except SessionError Accepted} {new : Option ExecutionSession}
  {ch : String → List (StepStatus × StepStatus)}

theorem exists_path_abort (h : HistoryMatches ch (some se)) (si : String) :
    ∃ last, StatusPath .pending (ch si ++ stepChanges sid si (.abort sid r)
      (.ok (.closed sid, (se.applyAbort (abortReason r)).2.map StepAbortEvent.toPlanning)))
      last := by
  match se, h with
  | .executable e, h =>
    simp only [stepChanges, ExecutionSessionCommand.sessionId, if_true, applyAbort, filterMap_abortSteps]
    split_ifs with ho
    · refine ⟨.aborted, (h si).concat ?_⟩
      generalize (e.stepStatus.lookup si).getD .pending = st at ho
      cases st with
      | pending => exact .abortPending
      | inProgress => exact .abortInProgress
      | completed | aborted => simp at ho
    · rw [append_nil]
      exact ⟨_, h si⟩
  | .awaitIntent _, h | .awaitPlan _ _ _, h | .closed _, h =>
    simpa [stepChanges, applyAbort] using h.exists_path si

/-- A move extends the history in step with the session. Only an opened session
starts a new history, so its id must have none. -/
theorem HistoryMatches.move (hm : SessionMove s uuid sid co v new)
    (h : HistoryMatches ch (s.sessions.lookup sid))
    (hf : sid = executionSessionId uuid s.counter → ∀ si, ch si = []) :
    HistoryMatches (fun si => ch si ++ stepChanges sid si co v) new := by
  cases hm with
  | unchanged hq => simpa only [hq, append_nil] using h
  | dropped =>
    intro si
    simpa only [stepChanges, append_nil] using h.exists_path si
  | opened hid =>
    intro si
    simp [stepChanges, hf hid]
  | intentAccepted hs =>
    rw [hs] at h
    intro si
    simp [stepChanges, PlanningEvent.statusChange, h si]
  | planAccepted hs _ ht _ =>
    rw [hs] at h
    intro si
    simpa [stepChanges, PlanningEvent.statusChange, h si, planTables_pending ht] using
      StatusPath.nil StepStatus.pending
  | @started si c e hs hst hd =>
    rw [hs] at h
    intro o
    have hp := h o
    simp only [stepChanges_transition e sid si o (.startStep sid si c) rfl]
    by_cases hid : si = o
    · subst hid
      rw [hst] at hp
      simpa using hp.concat .start
    · simpa [hid, lookup_started_of_ne e (Ne.symm hid)] using hp
  | @stepCompleted si c e hs hst =>
    rw [hs] at h
    intro o
    have hp := h o
    simp only [stepChanges_transition e sid si o (.completeStep sid si c) rfl]
    by_cases hid : si = o
    · subst hid
      rw [hst] at hp
      simpa using hp.concat .complete
    · simpa [hid, lookup_stepCompleted_of_ne e (Ne.symm hid)] using hp
  | finished hs hdo =>
    intro si
    simpa [stepChanges] using h.exists_path si
  | aborted hs =>
    rw [hs] at h
    exact exists_path_abort h

theorem stepChanges_of_none (hm : SessionMove s uuid sid co v new)
    (h : s.sessions.lookup sid = none) (si : String) :
    stepChanges sid si co v = [] := by
  cases hm with
  | unchanged hq => exact hq si
  | dropped => rfl
  | opened => simp [stepChanges]
  | intentAccepted ho | planAccepted ho | started ho | stepCompleted ho | finished ho
  | aborted ho => simp [ho] at h

end Move

theorem statusChanges_of_not_issued (sid si : String) (h : ¬ Issued (Run.exec invoke .init calls).counter sid) :
    statusChanges calls sid si = [] := by
  induction calls using reverseRecOn with
  | nil => rfl
  | append_singleton calls call ih =>
    rw [Run.exec_concat] at h
    have hb : ¬ Issued (Run.exec invoke .init calls).counter sid :=
      fun hi => h (hi.mono (invoke_step _ call).counter_le)
    have hn : (Run.exec invoke .init calls).sessions.lookup sid = none := by
      cases hs : (Run.exec invoke .init calls).sessions.lookup sid with
      | none => rfl
      | some se => exact absurd (onlyIssued_exec calls sid se hs) hb
    rw [statusChanges_concat, ih hb, stepChanges_of_none (invoke_move _ call sid) hn]
    rfl

theorem historyMatches_exec (sid : String) :
    HistoryMatches (statusChanges calls sid) ((Run.exec invoke .init calls).sessions.lookup sid) := by
  induction calls using reverseRecOn with
  | nil => exact fun si => ⟨.pending, .nil _⟩
  | append_singleton calls call ih =>
    have hm := invoke_move (Run.exec invoke .init calls) call sid
    have hn := ih.move hm fun hid si =>
      statusChanges_of_not_issued calls sid si (hid ▸ not_issued_next _ _)
    rw [Run.exec_concat]
    simpa only [← statusChanges_concat] using hn

/-! ### Starts and plans in the history of a session -/

/-- The command is accepted in the state it meets. -/
def Accepts (s : SessionStore) (call : Invocation) : Prop :=
  ∃ accepted, (invoke s call).2.verdict = .ok accepted

/-- An accepted start of `stepId` that found all dependencies of the step completed. -/
def StartsReady (sid stepId : String) (deps : StepDeps) (s : SessionStore) (call : Invocation) : Prop :=
  Accepts s call ∧ (∃ citations, call.command = .startStep sid stepId citations) ∧
    ∃ e, s.sessions.lookup sid = some (.executable e) ∧ e.stepDeps = deps ∧
      ∀ dep ∈ e.depsOf stepId, dep ∈ e.completed

/-- An accepted plan with the steps and dependencies of the session. -/
def DeclaresPlan (sid : String) (e : Executable) (s : SessionStore) (call : Invocation) : Prop :=
  Accepts s call ∧ ∃ plan, call.command = .submitPlan sid plan ∧
    e.planSteps = plan.steps.map (·.stepId) ∧
    ∀ step ∈ plan.steps, e.depsOf step.stepId = cleanDeps step.dependsOn

/-- The history of an executable session: its plan was submitted, and each step
that is in progress or completed was started when it was ready. -/
structure Recorded (calls : List Invocation) (sid : String) (e : Executable) : Prop where
  declared : Run.Occurs invoke .init calls (DeclaresPlan sid e)
  started : ∀ id, e.stepStatus.lookup id = some .inProgress ∨ e.stepStatus.lookup id = some .completed →
    Run.Occurs invoke .init calls (StartsReady sid id e.stepDeps)

theorem recorded_exec (sid : String) (e : Executable)
    (h : (Run.exec invoke .init calls).sessions.lookup sid = some (.executable e)) : Recorded calls sid e := by
  induction calls using reverseRecOn generalizing e with
  | nil => cases h
  | append_singleton calls call ih =>
    rw [Run.exec_concat] at h
    have hm := invoke_move (Run.exec invoke .init calls) call sid
    rw [h] at hm
    generalize hn : some (executable e) = new at hm
    generalize hc : call.command = command,
      hv : (invoke (Run.exec invoke .init calls) call).2.verdict = verdict at hm
    cases hm with
    | unchanged =>
      have ho := ih e hn.symm
      exact ⟨ho.declared.concat call, fun id hid => (ho.started id hid).concat call⟩
    | dropped | opened | intentAccepted | finished | aborted => cases hn
    | @planAccepted p _ _ _ _ t hse _ ht _ =>
      cases hn
      obtain ⟨hi, -, -, hd⟩ := planTables_spec ht
      refine ⟨Run.occurs_last _ ⟨⟨_, hv⟩, p, hc, hi, ?_⟩, ?_⟩
      · intro step hs
        simp [depsOf, hd step hs]
      · intro id hid
        have hp := planTables_pending ht id
        rcases hid with hid | hid <;> simp [hid] at hp
    | @started si c e₀ hse hst hr =>
      cases hn
      have ho := ih e₀ hse
      refine ⟨ho.declared.concat call, fun id hid => ?_⟩
      by_cases hs : id = si
      · subst hs
        exact Run.occurs_last _ ⟨⟨_, hv⟩, ⟨c, hc⟩, e₀, hse, rfl, hr⟩
      · rw [lookup_started_of_ne e₀ hs] at hid
        exact (ho.started id hid).concat call
    | @stepCompleted si c e₀ hse hst =>
      cases hn
      have ho := ih e₀ hse
      refine ⟨ho.declared.concat call, fun id hid => ?_⟩
      by_cases hs : id = si
      · subst hs
        exact (ho.started id (.inl hst)).concat call
      · rw [lookup_stepCompleted_of_ne e₀ hs] at hid
        exact (ho.started id hid).concat call

structure Lifecycle (calls : List Invocation) : Prop where
  /-- The completed set is the set of completed steps. -/
  mem_completed_iff : ∀ sid e,
    (Run.exec invoke .init calls).sessions.lookup sid = some (.executable e) →
      ∀ id, id ∈ e.completed ↔ e.stepStatus.lookup id = some .completed
  /-- Steps were started with their declared dependencies completed. -/
  recorded : ∀ sid e,
    (Run.exec invoke .init calls).sessions.lookup sid = some (.executable e) → Recorded calls sid e
  /-- The current step is in progress. -/
  current_inProgress : ∀ sid e,
    (Run.exec invoke .init calls).sessions.lookup sid = some (.executable e) →
      ∀ id, e.currentStepId = some id → e.stepStatus.lookup id = some .inProgress
  /-- The accepted changes of a step are a path. -/
  path : ∀ sid stepId, ∃ last, StatusPath .pending (statusChanges calls sid stepId) last
  /-- The path ends in the status of the step. -/
  path_end : ∀ sid e,
    (Run.exec invoke .init calls).sessions.lookup sid = some (.executable e) →
      ∀ stepId ∈ e.planSteps, ∃ status, e.stepStatus.lookup stepId = some status ∧
        StatusPath .pending (statusChanges calls sid stepId) status
  /-- A finish that closes a session found every step of its plan completed. -/
  finish_closes : ∀ call sid e base, call.command = .finish sid →
    (Run.exec invoke .init calls).sessions.lookup sid = some (.executable e) →
    (Run.exec invoke .init (calls ++ [call])).sessions.lookup sid = some (.closed base) →
      ∀ stepId ∈ e.planSteps, e.stepStatus.lookup stepId = some .completed

theorem finish_closes_completed (c : Invocation) {sid : String} {b : SessionBase} (hf : c.command = .finish sid)
    (hs : (Run.exec invoke .init calls).sessions.lookup sid = some (.executable e))
    (hc : (Run.exec invoke .init (calls ++ [c])).sessions.lookup sid = some (.closed b)) :
    ∀ si ∈ e.planSteps, e.stepStatus.lookup si = some .completed := by
  rw [Run.exec_concat] at hc
  have hm := invoke_move (Run.exec invoke .init calls) c sid
  rw [hc, hf] at hm
  generalize hn : some (closed b) = new at hm
  generalize (invoke (Run.exec invoke .init calls) c).2.verdict = verdict at hm
  cases hm with
  | unchanged => cases hn.trans hs
  | dropped => cases hn
  | finished hs' hd =>
    cases hs.symm.trans hs'
    intro si hme
    exact ((allConsistent_exec calls sid e hs).mem_completed_iff si).mp (hd si hme)

/-- Over every run of commands, the lifecycle of every session holds. -/
theorem lifecycle_exec (calls : List Invocation) : Lifecycle calls where
  mem_completed_iff sid e h := (allConsistent_exec calls sid e h).mem_completed_iff
  recorded sid e h := recorded_exec calls sid e h
  current_inProgress sid e h := (allConsistent_exec calls sid e h).current_inProgress
  path sid stepId := (historyMatches_exec calls sid).exists_path stepId
  path_end sid e h stepId hmem := by
    have hh := historyMatches_exec calls sid
    rw [h] at hh
    have hso := ((allConsistent_exec calls sid e h).mem_planSteps_iff stepId).mp hmem
    obtain ⟨st, hs⟩ := Option.isSome_iff_exists.mp hso
    exact ⟨st, hs, by simpa [hs] using hh stepId⟩
  finish_closes call sid e base hf h hc := finish_closes_completed calls call hf h hc

end AgentiumOs.Session
