import AgentiumOs.Session.Step
import AgentiumOs.Lib.Run

/-! What a command that answers with an error leaves behind. The handlers only
look at a task's epoch through its value, never at whether the task has an
entry, so two stores with the same sessions, counter and epoch values answer
every later call alike (`outputs_eq_of_sameView`). A failed command is without
effect exactly under `KeepsSession`: `finish` always, `submit_intent` only when
its supersession text is unreadable, `submit_plan` when it fails before the
session is taken out or the epoch does not move, and `start_step`,
`complete_step` and `abort` never. -/

namespace AgentiumOs.Session

open AgentiumOs.Core Lib Lib.Fallible SessionStore

/-! ### Stores that answer alike -/

/-- Same sessions, same counter, same epoch values. -/
structure SameView (s t : SessionStore) : Prop where
  sessions : s.sessions = t.sessions
  counter : s.counter = t.counter
  epoch : ∀ taskId, epochOf s.lineageEpoch taskId = epochOf t.lineageEpoch taskId

section Respects

theorem getSession_respects (sid : String) : Respects SameView (getSession sid) := by
  intro s t h
  cases hs : s.sessions.lookup sid with
  | none =>
    rw [runOn_getSession_none hs, runOn_getSession_none (h.sessions ▸ hs)]
    exact ⟨rfl, h⟩
  | some session =>
    rw [runOn_getSession hs, runOn_getSession (h.sessions ▸ hs)]
    exact ⟨rfl, h⟩

theorem insertSession_respects (sid : String) (session : ExecutionSession) :
    Respects SameView (insertSession sid session) := by
  refine respects_modify fun s t h => ⟨?_, h.counter, h.epoch⟩
  simp [SessionStore.put, h.sessions]

theorem removeSession_respects (sid : String) : Respects SameView (removeSession sid) := by
  refine respects_bind (getSession_respects sid) fun session => ?_
  refine respects_bind (respects_modify fun s t h => ⟨?_, h.counter, h.epoch⟩) fun _ =>
    respects_pure session
  simp [SessionStore.drop, h.sessions]

theorem claimEpoch_respects (sup : Option SupersessionKind) (ti : String) :
    Respects SameView (claimEpoch sup ti) := by
  intro s t h
  rw [runOn_claimEpoch, runOn_claimEpoch, h.epoch ti]
  refine ⟨rfl, h.sessions, h.counter, fun o => ?_⟩
  by_cases ho : o = ti
  · rw [ho, epochOf_setEpoch_self, epochOf_setEpoch_self]
  · rw [epochOf_setEpoch_of_ne _ ho, epochOf_setEpoch_of_ne _ ho, h.epoch o]

theorem nextExecutionSessionId_respects (uuid : String) : Respects SameView (nextExecutionSessionId uuid) := by
  intro s t h
  have hr : ∀ u : SessionStore, runOn (nextExecutionSessionId uuid) u =
      (.ok (executionSessionId uuid u.counter), { u with counter := u.counter + 1 }) := fun _ => rfl
  rw [hr, h.counter]
  exact ⟨rfl, h.sessions, rfl, h.epoch⟩

theorem ensureCurrentEpoch_respects (session : ExecutionSession) :
    Respects SameView (ensureCurrentEpoch session) := by
  intro s t h
  refine ⟨?_, h⟩
  simp [ensureLineageEpochMatches, h.epoch]

variable (s : RuntimeScope)

theorem requireTaskScope_respects (m : SessionError) : Respects SameView (requireTaskScope s m) := by
  unfold requireTaskScope
  split
  · exact respects_pure _
  · exact respects_throw _

theorem openSession_respects (uuid : String) : Respects SameView (openSession s uuid) := by
  unfold openSession
  split
  · exact respects_throw _
  · refine respects_bind (nextExecutionSessionId_respects uuid) fun sid => ?_
    exact respects_bind (insertSession_respects sid _) fun _ => respects_pure _

theorem submitIntent_respects (sid : String) (i : IntentSubmissionWire) :
    Respects SameView (submitIntent s sid i) := by
  refine respects_bind (respects_lift _) fun sup => ?_
  refine respects_bind (requireTaskScope_respects _ _) fun taskId => ?_
  refine respects_bind (claimEpoch_respects _ _) fun epoch => ?_
  refine respects_bind (removeSession_respects _) fun session => ?_
  refine respects_bind (respects_lift _) fun _ => ?_
  refine respects_bind (respects_lift _) fun next => ?_
  exact respects_bind (insertSession_respects _ _) fun _ => respects_pure _

theorem insertSession_throw_respects (sid : String) (session : ExecutionSession) (e : SessionError) :
    Respects SameView (do insertSession sid session; throw e : SessionM α) :=
  respects_bind (insertSession_respects sid session) fun _ => respects_throw e

theorem submitPlan_respects (sid : String) (p : PlanSubmissionWire) :
    Respects SameView (submitPlan s sid p) := by
  refine respects_bind (respects_lift _) fun sup => ?_
  refine respects_bind (requireTaskScope_respects _ _) fun taskId => ?_
  refine respects_bind (respects_lift _) fun tables => ?_
  refine respects_bind (claimEpoch_respects _ _) fun epoch => ?_
  refine respects_bind (removeSession_respects _) fun session => ?_
  refine respects_bind (respects_lift _) fun _ => ?_
  cases session with
  | awaitIntent base | executable e | closed base => exact insertSession_throw_respects _ _ _
  | awaitPlan base i o =>
    simp only
    split_ifs with hi
    · exact insertSession_throw_respects _ _ _
    · refine respects_bind (respects_lift _) fun next => ?_
      exact respects_bind (insertSession_respects _ _) fun _ => respects_pure _

theorem stepCommand_respects (sid : String)
    (apply : ExecutionSession → Except SessionError (ExecutionSession × StepTransitionEvent)) :
    Respects SameView (stepCommand s sid apply) := by
  refine respects_bind (removeSession_respects _) fun session => ?_
  refine respects_bind (respects_lift _) fun _ => ?_
  refine respects_bind (ensureCurrentEpoch_respects _) fun _ => ?_
  refine respects_bind (respects_lift _) fun result => ?_
  exact respects_bind (insertSession_respects _ _) fun _ => respects_pure _

theorem closeSession_respects (sid : String) : Respects SameView (closeSession sid) := by
  refine respects_bind (removeSession_respects _) fun session => ?_
  split
  · split_ifs
    · refine respects_bind (respects_lift _) fun next => ?_
      exact respects_bind (insertSession_respects _ _) fun _ => respects_pure _
    · exact insertSession_throw_respects _ _ _
  · exact insertSession_throw_respects _ _ _

theorem finish_respects (sid : String) : Respects SameView (finish s sid) := by
  refine respects_bind (getSession_respects _) fun session => ?_
  refine respects_bind (respects_lift _) fun _ => ?_
  refine respects_bind (ensureCurrentEpoch_respects _) fun _ => ?_
  split
  · exact respects_pure _
  · exact closeSession_respects _

theorem abort_respects (sid r : String) : Respects SameView (abort s sid r) := by
  refine respects_bind (removeSession_respects _) fun session => ?_
  refine respects_bind (respects_lift _) fun _ => ?_
  refine respects_bind (ensureCurrentEpoch_respects _) fun _ => ?_
  exact respects_bind (insertSession_respects _ _) fun _ => respects_pure _

theorem submitGrounding_respects (sid : String) : Respects SameView (submitGrounding s sid) := by
  refine respects_bind (getSession_respects _) fun session => ?_
  exact respects_bind (respects_lift _) fun _ => respects_pure _

theorem runCommand_respects (active : Except String RuntimeScope) (uuid : String)
    (command : ExecutionSessionCommand) : Respects SameView (runCommand active uuid command) := by
  have hs : Respects SameView (invocationScope active command) := by
    unfold invocationScope
    split
    · split
      · exact respects_pure _
      · exact respects_throw _
    · exact respects_bind (getSession_respects _) fun _ => respects_pure _
  refine respects_bind hs fun s => ?_
  cases command with
  | «open» => exact openSession_respects _ _
  | submitIntent sid intent => exact submitIntent_respects _ _ _
  | submitPlan sid plan => exact submitPlan_respects _ _ _
  | startStep sid si c | completeStep sid si c => exact stepCommand_respects _ _ _
  | finish sid => exact finish_respects _ _
  | abort sid reason => exact abort_respects _ _ _
  | submitGrounding sid ar p => exact submitGrounding_respects _ _

end Respects

theorem outputs_eq_of_sameView (h : SameView s t) (later : List Invocation) :
    Run.outputs invoke s later = Run.outputs invoke t later := by
  refine Run.outputs_eq_of_bisim invoke invoke (fun _ => True) SameView (fun s t call _ h => ?_) s t h later
    fun _ _ => trivial
  obtain ⟨hv, hs⟩ := runCommand_respects call.active call.uuid call.command s t h
  exact ⟨hs, by simp [invoke, hv]⟩

/-- The failed call left the session, its task's epoch, and every later answer
as they would have been without it. -/
def WithoutEffect (s s' : SessionStore) (sid taskId : String) : Prop :=
  s'.sessions.lookup sid = s.sessions.lookup sid ∧
    epochOf s'.lineageEpoch taskId = epochOf s.lineageEpoch taskId ∧
    ∀ later : List Invocation, Run.outputs invoke s' later = Run.outputs invoke s later

/-- The text of a supersession field that no kind is read from. -/
def UnreadableSupersession (supersession : Option String) : Prop :=
  supersession.isSome ∧ parseSupersession supersession = none

instance (supersession : Option String) : Decidable (UnreadableSupersession supersession) :=
  inferInstanceAs (Decidable (_ ∧ _))

/-- When a failed command on a session is without effect. A plan is refused
after the epoch was claimed, which only moves it for a superseding plan below
the largest epoch; a plan the session can take is stored before it is emitted. -/
def KeepsSession (s : SessionStore) (session : ExecutionSession) : ExecutionSessionCommand → Prop
  | .submitIntent _ intent => UnreadableSupersession intent.supersession
  | .submitPlan _ plan =>
      UnreadableSupersession plan.supersession ∨ ¬ (plan.steps.map (·.stepId)).Nodup ∨
        (plan.supersession = none ∨ epochOf s.lineageEpoch session.base.ownerTaskId = Word.maxValue 64) ∧
        ∀ base epoch, session ≠ .awaitPlan base plan.intentId epoch
  | .startStep _ _ _ | .completeStep _ _ _ | .abort _ _ => False
  | .finish _ | .submitGrounding _ _ _ | .open => True

theorem readSupersession_error_iff (inv : String → SessionError) (supersession : Option String) :
    (∃ e, readSupersession inv supersession = .error e) ↔ UnreadableSupersession supersession := by
  cases supersession with
  | none => simp [readSupersession, UnreadableSupersession]
  | some text => cases h : parseSupersession (some text) <;>
      simp [readSupersession, UnreadableSupersession, h]

variable {i : String → SessionError} {su : Option SupersessionKind} {events : List PlanningEvent}
  {field : Option String} {e : SessionError}

theorem not_unreadable_of_ok (h : readSupersession i field = .ok su) : ¬ UnreadableSupersession field := by
  intro hu
  obtain ⟨e, he⟩ := (readSupersession_error_iff i field).mpr hu
  simp [h] at he

theorem readSupersession_ok_none_iff (h : readSupersession i field = .ok su) : su = none ↔ field = none := by
  cases field with
  | none =>
    cases h
    simp
  | some text =>
    cases hp : parseSupersession (some text) with
    | none => simp [readSupersession, hp] at h
    | some kind =>
      simp only [readSupersession, hp, Except.ok.injEq] at h
      simp [← h]

theorem nextEpoch_eq_self_iff (su : Option SupersessionKind) (c : ℕ) :
    nextEpoch su c = c ↔ su = none ∨ c = Word.maxValue 64 := by
  cases su with
  | none => simp [nextEpoch]
  | some kind => simp [nextEpoch, Word.saturatingAdd_one_eq_iff]

variable {s s' : SessionStore} {active : Except String RuntimeScope} {uuid sid : String}
  {command : ExecutionSessionCommand} {session : ExecutionSession}

theorem WithoutEffect.refl (s : SessionStore) (sid taskId : String) : WithoutEffect s s sid taskId :=
  ⟨rfl, rfl, fun _ => rfl⟩

theorem not_withoutEffect_drop (h : s.sessions.lookup sid = some session) (t : SessionStore) :
    ¬ WithoutEffect s (t.drop sid) sid taskId := by
  rintro ⟨hs, -, -⟩
  simp [h] at hs

theorem withoutEffect_setEpoch_iff (s : SessionStore) (sid taskId : String) (ep : ℕ) :
    WithoutEffect s (s.setEpoch taskId ep) sid taskId ↔ ep = epochOf s.lineageEpoch taskId := by
  constructor
  · rintro ⟨-, he, -⟩
    simpa using he
  · intro he
    have hv : SameView (s.setEpoch taskId ep) s := by
      refine ⟨rfl, rfl, fun o => ?_⟩
      by_cases ho : o = taskId
      · rw [ho, epochOf_setEpoch_self, he]
      · exact epochOf_setEpoch_of_ne _ ho _
    exact ⟨rfl, hv.epoch taskId, outputs_eq_of_sameView hv⟩

theorem refused_withoutEffect_iff (hst : CommandStep s active uuid command (.error e) s')
    (hsi : command.sessionId = some sid) (hs : s.sessions.lookup sid = some session) :
    WithoutEffect s s' sid session.base.ownerTaskId ↔ KeepsSession s session command := by
  cases hst with
  | openNoContext | openNoTask => cases hsi
  | notFound hsi' hno =>
    rw [hsi] at hsi'
    cases hsi'
    simp [hs] at hno
  | intentUnread _ hr =>
    exact iff_of_true (WithoutEffect.refl _ _ _) ((readSupersession_error_iff _ _).mp ⟨_, hr⟩)
  | intentRefused _ hr _ =>
    cases hsi
    exact iff_of_false (not_withoutEffect_drop hs _) (not_unreadable_of_ok hr)
  | planUnread _ hr =>
    exact iff_of_true (WithoutEffect.refl _ _ _) (.inl ((readSupersession_error_iff _ _).mp ⟨_, hr⟩))
  | planDuplicate _ hr ht =>
    refine iff_of_true (WithoutEffect.refl _ _ _) (.inr (.inl fun hn => ?_))
    obtain ⟨built, hb⟩ := (planTables_ok_iff ∅ .empty _).mpr ⟨hn, by simp⟩
    simp [hb] at ht
  | planRefused hs' hr ht hp =>
    cases hsi
    cases hs.symm.trans hs'
    have hn := ((planTables_ok_iff ∅ .empty _).mp ⟨_, ht⟩).1
    rw [withoutEffect_setEpoch_iff, nextEpoch_eq_self_iff, readSupersession_ok_none_iff hr]
    simp [KeepsSession, not_unreadable_of_ok hr, hn, and_iff_left hp]
  | startRefused | completeRefused | abortRefused =>
    cases hsi
    exact iff_of_false (not_withoutEffect_drop hs _) id
  | finishRefused =>
    exact iff_of_true (WithoutEffect.refl _ _ _) trivial

/-- An accepted command that has something to emit has changed its session, and
`KeepsSession` does not hold of it. -/
theorem accepted_changes (h : CommandStep s active uuid command (.ok (r, events)) s') (he : events ≠ [])
    (hsi : command.sessionId = some sid) (hs : s.sessions.lookup sid = some session) :
    s'.sessions.lookup sid ≠ s.sessions.lookup sid ∧ ¬ KeepsSession s session command := by
  rw [hs]
  cases h with
  | opened | finishedAlready | finished | grounded => exact absurd rfl he
  | intentAccepted hs' hr _ =>
    cases hsi
    cases hs.symm.trans hs'
    exact ⟨by simp, not_unreadable_of_ok hr⟩
  | planAccepted hs' hr ht _ =>
    cases hsi
    cases hs.symm.trans hs'
    refine ⟨by simp, ?_⟩
    rintro (hu | hd | ⟨-, hp⟩)
    · exact not_unreadable_of_ok hr hu
    · exact hd ((planTables_ok_iff ∅ .empty _).mp ⟨_, ht⟩).1
    · exact hp _ _ rfl
  | started hs' _ hst _ =>
    cases hsi
    cases hs.symm.trans hs'
    refine ⟨fun hsa => ?_, id⟩
    simp only [lookup_put_self, Option.some.injEq, ExecutionSession.executable.injEq] at hsa
    rw [← hsa, Executable.lookup_started_self] at hst
    cases hst
  | stepCompleted hs' _ hst =>
    cases hsi
    cases hs.symm.trans hs'
    refine ⟨fun hsa => ?_, id⟩
    simp only [lookup_put_self, Option.some.injEq, ExecutionSession.executable.injEq] at hsa
    rw [← hsa, Executable.lookup_stepCompleted_self] at hst
    cases hst
  | aborted hs' _ =>
    cases hsi
    cases hs.symm.trans hs'
    refine ⟨fun hsa => ?_, id⟩
    -- only an executable session has steps to report
    cases session with
    | executable e => simp at hsa
    | _ => exact absurd rfl he

/-- A command on a stored session that answers with an error, whether refused or
failed in the emission, is without effect exactly under `KeepsSession`. -/
theorem failed_withoutEffect_iff (s : SessionStore) (call : Invocation) (sid : String)
    (session : ExecutionSession) (e : SessionError) (hsid : call.command.sessionId = some sid)
    (hsession : s.sessions.lookup sid = some session) (hfail : (invoke s call).2.result = .error e) :
    WithoutEffect s (invoke s call).1 sid session.base.ownerTaskId ↔ KeepsSession s session call.command := by
  have hst := runCommand_step s call.active call.uuid call.command
  rcases hrun : runOn (runCommand call.active call.uuid call.command) s with ⟨verdict, s'⟩
  simp only [invoke, hrun] at hst hfail ⊢
  cases verdict with
  | error e => exact refused_withoutEffect_iff hst hsid hsession
  | ok ac =>
    obtain ⟨r, events⟩ := ac
    have he : ∃ e, (emitAll call.emit events).2 = .error e := by
      cases h : (emitAll call.emit events).2 with
      | error e => exact ⟨e, rfl⟩
      | ok => simp [reply, h, Except.map] at hfail
    have hev : events ≠ [] := by
      rintro rfl
      cases he.choose_spec
    obtain ⟨hc, hk⟩ := accepted_changes hst hev hsid hsession
    exact iff_of_false (fun hs => hc hs.1) hk

/-- A call from one fixed task scope whose events are all accepted. -/
def callFromTask (command : ExecutionSessionCommand) : Invocation where
  active := .ok (.taskScope "context" "agent" "message" "task")
  uuid := "uuid"
  emit := fun _ => .ok ()
  command := command

/-- A plain first intent for the first session opened by such a call. -/
def firstIntent : ExecutionSessionCommand :=
  .submitIntent "execution:uuid:0" ⟨"intent", "look around", [], none⟩

/-- A session that was opened and has its intent. -/
def storeAwaitingPlan : SessionStore :=
  Run.exec invoke .init [callFromTask .open, callFromTask firstIntent]

theorem finish_before_plan_withoutEffect :
    WithoutEffect storeAwaitingPlan
      (invoke storeAwaitingPlan (callFromTask (.finish "execution:uuid:0"))).1
      "execution:uuid:0" "task" :=
  (failed_withoutEffect_iff storeAwaitingPlan (callFromTask (.finish "execution:uuid:0"))
    "execution:uuid:0"
    (.awaitPlan ⟨.taskScope "context" "agent" "message" "task", "task", "context", rfl, rfl⟩ "intent" 0)
    .cannotFinish rfl (by decide) (by decide)).mpr trivial

/-- The intent is submitted twice: the second submission is refused and the
session is gone from the store. -/
theorem second_intent_loses_session : storeAwaitingPlan.sessions.lookup "execution:uuid:0" =
        some (.awaitPlan ⟨.taskScope "context" "agent" "message" "task", "task", "context", rfl, rfl⟩ "intent" 0) ∧
      (invoke storeAwaitingPlan (callFromTask firstIntent)).2.result = .error .cannotSubmitIntent ∧
      (invoke storeAwaitingPlan (callFromTask firstIntent)).1.sessions.lookup "execution:uuid:0" = none ∧
      ¬ WithoutEffect storeAwaitingPlan (invoke storeAwaitingPlan (callFromTask firstIntent)).1
        "execution:uuid:0" "task" := by
  have hg : (invoke storeAwaitingPlan (callFromTask firstIntent)).1.sessions.lookup
      "execution:uuid:0" = none := by decide
  refine ⟨by decide, by decide, hg, fun hs => ?_⟩
  have hst := hs.1
  revert hst
  decide

end AgentiumOs.Session
