import AgentiumOs.Session.Concurrent
import AgentiumOs.Session.Rejection

/-! Interleavings of commands on one session. The session is the token of the
pool: it is in the map, or with the one handler that took it out. A handler that
looks for it while another holds it answers that it does not exist, or panics;
a handler that is refused while it holds it loses it for all others. Schedules
that avoid both end every command with an answer about the session itself. -/

namespace AgentiumOs.Session

open AgentiumOs.Core Lib Lib.Interleave

/-- The handler has taken the session out and not put it back. -/
def Point.holds : Point → Bool
  | .holding _ _ | .storing _ _ => true
  | _ => false

/-- The next operation of the handler looks for the session in the map. -/
def Point.looksUp : Point → Bool
  | .start | .taking _ | .checking _ | .closing _ | .reading _ => true
  | _ => false

/-- The command accepts the session it holds, or puts it back when it refuses. -/
def Keeps (command : ExecutionSessionCommand) (session : ExecutionSession) (epochs : LineageEpochs) : Bool :=
  let current := (ensureLineageEpochMatches session epochs session.base.ownerTaskId).isOk
  match command with
  | .submitIntent _ _ =>
      match session with
      | .awaitIntent _ => true
      | _ => false
  | .startStep _ stepId citations => current && (session.applyStartStep stepId citations).isOk
  | .completeStep _ stepId citations => current && (session.applyCompleteStep stepId citations).isOk
  | .abort _ _ => current
  | _ => true

variable {sid : String} {ι : Type} [DecidableEq ι]

abbrev SessionPool (sid : String) (ι : Type) := Pool SessionStore (CommandOn sid × Point) ι

def keepsHeld (thread : CommandOn sid × Point) (epochs : LineageEpochs) : Bool :=
  match thread.2 with
  | .holding _ session => Keeps thread.1.1 session epochs
  | _ => true

/-- A handler looks for the session only while no handler holds it, and is not
refused while it holds it itself, unless it puts it back. -/
def Undisturbed (p : SessionPool sid ι) (i : ι) : Prop :=
  ((p.thread i).2.looksUp → ∀ j, ¬ (p.thread j).2.holds) ∧ keepsHeld (p.thread i) p.shared.lineageEpoch

omit [DecidableEq ι] in
instance [Fintype ι] (p : SessionPool sid ι) (i : ι) : Decidable (Undisturbed p i) := by
  unfold Undisturbed
  infer_instance

def SessionPool.begin (s : SessionStore) (commands : ι → CommandOn sid) : SessionPool sid ι :=
  ⟨s, fun i => (commands i, .start)⟩

/-! ### The decision on a held session -/

section Transition

variable {co : ExecutionSessionCommand} {l : Locals} {session : ExecutionSession}
  {ep : LineageEpochs}

/-- The decision puts the session back under its owner, and its verdict is not that it is missing. -/
def PutsBack (session : ExecutionSession)
    (decision : Except SessionError (ExecutionSession × Except SessionError Accepted)) : Prop :=
  ∃ next verdict, decision = .ok (next, verdict) ∧ next.base = session.base ∧ verdict ≠ .error .notFound

/-- A step transition succeeds when the epoch is current and the transition
applies, and it keeps the owner if the transition does. -/
theorem stepTransition_putsBack (sid : String)
    (apply : ExecutionSession → Except SessionError (ExecutionSession × StepTransitionEvent))
    (hs : l.scope = session.base.ownerScope)
    (hb : ∀ n ev, apply session = .ok (n, ev) → n.base = session.base)
    (hc : (ensureLineageEpochMatches session ep session.base.ownerTaskId).isOk)
    (hap : (apply session).isOk) :
    PutsBack session (stepTransition sid l session ep apply) := by
  simp only [stepTransition, hs, ensureScopeMatches_ownerScope]
  cases he : ensureLineageEpochMatches session ep session.base.ownerTaskId with
  | error e => simp [he, Except.toBool] at hc
  | ok =>
    cases ha : apply session with
    | error e => simp [ha, Except.toBool] at hap
    | ok result => exact ⟨_, _, rfl, hb _ _ ha, by simp⟩

theorem applyStartStep_base (si : String) (c : List String) (n : ExecutionSession)
    (ev : StepTransitionEvent) (h : session.applyStartStep si c = .ok (n, ev)) :
    n.base = session.base := by
  obtain ⟨e, rfl, -, -, rfl, -⟩ := applyStartStep_ok h
  rfl

theorem applyCompleteStep_base (si : String) (c : List String) (n : ExecutionSession)
    (ev : StepTransitionEvent) (h : session.applyCompleteStep si c = .ok (n, ev)) :
    n.base = session.base := by
  obtain ⟨e, rfl, -, rfl, -⟩ := applyCompleteStep_ok h
  rfl

theorem transition_putsBack (hs : l.scope = session.base.ownerScope)
    (h : Keeps co session ep) : PutsBack session (transition co l session ep) := by
  cases co with
  | «open» | submitGrounding => exact ⟨_, _, rfl, rfl, by simp⟩
  | submitIntent sid intent =>
    simp only [transition, hs, ensureScopeMatches_ownerScope]
    cases session with
    | awaitIntent base => exact ⟨_, _, rfl, rfl, by simp⟩
    | awaitPlan | executable | closed => cases h
  | submitPlan sid p =>
    simp only [transition, hs, ensureScopeMatches_ownerScope]
    cases session with
    | awaitPlan base i epoch =>
      by_cases hi : i = p.intentId
      · simp only [hi, ne_eq]
        exact ⟨_, _, rfl, rfl, by simp⟩
      · simp only [hi, ne_eq]
        exact ⟨_, _, rfl, rfl, by simp⟩
    | awaitIntent | executable | closed => exact ⟨_, _, rfl, rfl, by simp⟩
  | startStep sid si c =>
    obtain ⟨hc, ha⟩ := Bool.and_eq_true_iff.mp h
    exact stepTransition_putsBack sid (·.applyStartStep si c) hs
      (applyStartStep_base si c) hc ha
  | completeStep sid si c =>
    obtain ⟨hc, ha⟩ := Bool.and_eq_true_iff.mp h
    exact stepTransition_putsBack sid (·.applyCompleteStep si c) hs
      (applyCompleteStep_base si c) hc ha
  | finish sid =>
    cases session with
    | executable e =>
      simp only [transition]
      split_ifs
      all_goals exact ⟨_, _, rfl, rfl, by simp⟩
    | awaitIntent | awaitPlan | closed => exact ⟨_, _, rfl, rfl, by simp⟩
  | abort sid reason =>
    simp only [transition, hs, ensureScopeMatches_ownerScope]
    simp only [Keeps] at h
    cases he : ensureLineageEpochMatches session ep session.base.ownerTaskId with
    | error e => simp [he, Except.toBool] at h
    | ok => exact ⟨_, _, rfl, by rw [applyAbort_fst]; rfl, by simp⟩

end Transition

/-- The handler runs under the owner's scope and has not failed for want of the session. -/
def Point.Sound (base : SessionBase) : Point → Prop
  | .start => True
  | .claiming scope _ _ _ | .checking scope | .closing scope | .reading scope => scope = base.ownerScope
  | .taking locals => locals.scope = base.ownerScope
  | .holding locals session => locals.scope = base.ownerScope ∧ session.base = base
  | .storing session verdict => session.base = base ∧ verdict ≠ .error .notFound
  | .done outcome => outcome ≠ .panicked ∧ outcome ≠ .answered (.error .notFound)

/-- A session stored under the id has this owner. -/
def OwnedBy (sid : String) (base : SessionBase) (s : SessionStore) : Prop :=
  ∀ session, s.sessions.lookup sid = some session → session.base = base

def Stored (sid : String) (s : SessionStore) : Prop := s.sessions.lookup sid ≠ none

variable {base : SessionBase} {e m : SessionError}

theorem rejected_sound (h : e ≠ .notFound) : (Point.rejected e).Sound base := by
  simp [Point.rejected, Point.Sound, h]

theorem readSupersession_ne_notFound (hi : ∀ text, i text ≠ .notFound)
    (h : readSupersession i f = .error e) : e ≠ .notFound := by
  cases f with
  | none => cases h
  | some text =>
    simp only [readSupersession] at h
    split at h
    · cases h
    · cases h
      exact hi text

theorem planTables_ne_notFound (h : planTables seen t st = .error e) : e ≠ .notFound := by
  induction st generalizing seen t with
  | nil => cases h
  | cons step rest ih =>
    simp only [planTables] at h
    split_ifs at h
    · cases h
      simp
    · exact ih h

variable {session : ExecutionSession} {s : SessionStore}

theorem ensureLineageEpochMatches_ne_notFound (h : ensureLineageEpochMatches session epochs taskId = .error e) :
    e ≠ .notFound := by
  unfold ensureLineageEpochMatches at h
  split at h
  · cases h
  · split_ifs at h
    cases h
    simp

theorem submissionPoint_sound (base : SessionBase)
    {r : Except SessionError (Option SupersessionKind)} {t : Except SessionError PlanTables}
    (hr : ∀ e, r = .error e → e ≠ .notFound) (ht : ∀ e, t = .error e → e ≠ .notFound) :
    (submissionPoint base.ownerScope m r t).Sound base := by
  cases r with
  | error e => exact rejected_sound (hr e rfl)
  | ok su =>
    simp only [submissionPoint, base.task_eq]
    cases t with
    | error e => exact rejected_sound (ht e rfl)
    | ok built => rfl

theorem firstPoint_sound (c : ExecutionSessionCommand) (base : SessionBase) :
    (firstPoint c base.ownerScope).Sound base ∧ (firstPoint c base.ownerScope).holds = false := by
  have hh : ∀ m read t, (submissionPoint base.ownerScope m read t).holds = false := by
    intro m read t
    unfold submissionPoint
    split
    · rfl
    · split
      · rfl
      · split <;> rfl
  cases c with
  | submitIntent sid intent =>
    rw [firstPoint]
    refine ⟨submissionPoint_sound base (fun e hr => ?_) (fun e ht => ?_), hh _ _ _⟩
    · exact readSupersession_ne_notFound (by simp) hr
    · cases ht
  | submitPlan sid plan =>
    refine ⟨submissionPoint_sound base (fun e hr => ?_) (fun e ht => ?_), hh _ _ _⟩
    · exact readSupersession_ne_notFound (by simp) hr
    · exact planTables_ne_notFound ht
  | «open» | startStep | completeStep | finish | abort | submitGrounding => exact ⟨rfl, rfl⟩

theorem checkFinish_sound (sid : String) (epo : LineageEpochs) (session : ExecutionSession) :
    (checkFinish sid session.base.ownerScope epo session).Sound session.base ∧
      (checkFinish sid session.base.ownerScope epo session).holds = false := by
  simp only [checkFinish, ensureScopeMatches_ownerScope]
  cases he : ensureLineageEpochMatches session epo session.base.ownerTaskId with
  | error e => exact ⟨rejected_sound (ensureLineageEpochMatches_ne_notFound he), rfl⟩
  | ok =>
    cases session with
    | closed base => exact ⟨by simp [Point.Sound], rfl⟩
    | awaitIntent | awaitPlan | executable => exact ⟨rfl, rfl⟩

/-- The handler goes on soundly, the session keeps its owner and is passed on. -/
def SoundMove (sid : String) (base : SessionBase) (s : SessionStore) (point : Point) (s' : SessionStore)
    (next : Point) : Prop :=
  next.Sound base ∧ OwnedBy sid base s' ∧ Conserves (Stored sid) (fun point : Point => point.holds) s point s' next

theorem soundMove_of_read (ho : OwnedBy sid base s) (hn : next.Sound base ∧ next.holds = false)
    (hb : p.holds = false) : SoundMove sid base s p s next :=
  ⟨hn.1, ho, .keeps Iff.rfl (by simp [hn.2, hb])⟩

theorem soundMove_of_take (p : Point) (ho : OwnedBy sid base s) (hs : s.sessions.lookup sid = some session)
    (hsc : lo.scope = base.ownerScope) : SoundMove sid base s p (s.drop sid) (.holding lo session) := by
  refine ⟨⟨hsc, ho session hs⟩, ?_, .takes (by simp [Stored, hs]) ?_ rfl⟩
  · intro other hot
    simp at hot
  · simp [Stored]

/-- One operation that finds the session when it looks for it, and keeps the
session it holds, is a sound move. -/
theorem operate_sound (hp : p.Sound base) (ho : OwnedBy sid base s) (hf : p.looksUp → Stored sid s)
    (hk : ∀ lo session, p = .holding lo session → Keeps c session s.lineageEpoch) :
    SoundMove sid base s p (operate sid c s p).1 (operate sid c s p).2 := by
  have hlookup : p.looksUp → ∃ session, s.sessions.lookup sid = some session ∧ session.base = base := by
    intro hl
    obtain ⟨session, hs⟩ := Option.ne_none_iff_exists'.mp (hf hl)
    exact ⟨session, hs, ho session hs⟩
  cases p with
  | start =>
    obtain ⟨session, hs, rfl⟩ := hlookup rfl
    simp only [operate, whenFound, hs]
    exact soundMove_of_read ho (firstPoint_sound c session.base) rfl
  | claiming sc taskId su tables =>
    exact ⟨hp, ho, .keeps Iff.rfl Iff.rfl⟩
  | taking lo =>
    obtain ⟨session, hs, -⟩ := hlookup rfl
    simp only [operate, whenFound, hs]
    exact soundMove_of_take _ ho hs hp
  | checking sc =>
    obtain ⟨session, hs, rfl⟩ := hlookup rfl
    cases hp
    simp only [operate, whenFound, hs]
    exact soundMove_of_read ho (checkFinish_sound sid s.lineageEpoch session) rfl
  | closing sc =>
    obtain ⟨session, hs, -⟩ := hlookup rfl
    simp only [operate, hs]
    exact soundMove_of_take _ ho hs hp
  | reading sc =>
    obtain ⟨session, hs, rfl⟩ := hlookup rfl
    cases hp
    simp only [operate, whenFound, hs, ensureScopeMatches_ownerScope]
    exact soundMove_of_read ho ⟨by simp [Point.Sound], rfl⟩ rfl
  | holding lo session =>
    obtain ⟨hsc, rfl⟩ := hp
    obtain ⟨next, verdict, ht, hn⟩ := transition_putsBack hsc (hk _ _ rfl)
    simp only [operate, ht]
    exact ⟨hn, ho, .keeps Iff.rfl Iff.rfl⟩
  | storing session verdict =>
    obtain ⟨hb, hv⟩ := hp
    refine ⟨by simp [operate, Point.Sound, hv], ?_, .returns rfl ?_ (by simp [operate, Point.holds])⟩
    · intro other hot
      rw [operate, SessionStore.lookup_put_self] at hot
      cases hot
      exact hb
    · simp [operate, Stored]
  | done outcome => exact ⟨hp, ho, .keeps Iff.rfl Iff.rfl⟩

/-- What holds in every state of an undisturbed schedule. -/
structure PoolSound (base : SessionBase) (p : SessionPool sid ι) : Prop where
  points : ∀ i, (p.thread i).2.Sound base
  owner : OwnedBy sid base p.shared
  token : Owned (Stored sid) (fun thread : CommandOn sid × Point => thread.2.holds) p

theorem poolSound_turn (p : SessionPool sid ι) (i : ι) (hok : Undisturbed p i) (h : PoolSound base p) :
    PoolSound base (turn advance p i).1 := by
  have hk : ∀ lo session, (p.thread i).2 = .holding lo session →
      Keeps (p.thread i).1.1 session p.shared.lineageEpoch := by
    intro lo session hp
    simpa [keepsHeld, hp] using hok.2
  obtain ⟨hs, ho, hpa⟩ := operate_sound (h.points i) h.owner (fun hl => h.token.free_of_forall (hok.1 hl)) hk
  refine ⟨forall_turn advance (P := fun t => t.2.Sound base) h.points hs, ho, ?_⟩
  refine h.token.after_turn advance ?_
  cases hpa with
  | keeps hf hh => exact .keeps hf hh
  | takes hf hf' hh' => exact .takes hf hf' hh'
  | returns hh hf' hh' => exact .returns hh hf' hh'

/-- Along an undisturbed schedule of any commands on a stored session, no handler
panics and none answers that the session does not exist. -/
theorem undisturbed_commands_answered (s : SessionStore) (session : ExecutionSession)
    (hsession : s.sessions.lookup sid = some session) (commands : ι → CommandOn sid) (schedule : List ι)
    (hok : Run.Along (turn advance) Undisturbed (SessionPool.begin s commands) schedule)
    (i : ι) (outcome : Outcome)
    (hdone : ((Run.exec (turn advance) (SessionPool.begin s commands) schedule).thread i).2 = .done outcome) :
    outcome ≠ .panicked ∧ outcome ≠ .answered (.error .notFound) := by
  have hb : PoolSound session.base (SessionPool.begin s commands) := by
    refine ⟨fun i => trivial, fun other ho => ?_, .inl ⟨by simp [Stored, SessionPool.begin, hsession],
      fun i => by simp [SessionPool.begin, Point.holds]⟩⟩
    cases hsession.symm.trans ho
    rfl
  have hs := (Run.along_invariant (turn advance) Undisturbed (PoolSound session.base) poolSound_turn _
    hb schedule hok).points i
  rw [hdone] at hs
  exact hs

/-- Commands on the first session: `finish`, `abort` and `submit_grounding`. -/
def threeCommands : Fin 3 → CommandOn "execution:uuid:0"
  | 0 => ⟨.finish "execution:uuid:0", rfl⟩
  | 1 => ⟨.abort "execution:uuid:0" "", rfl⟩
  | 2 => ⟨.submitGrounding "execution:uuid:0" "artifact" none, rfl⟩

/-- One command after the other. -/
theorem finish_answered_in_turn :
    ∃ outcome, ((Run.exec (turn advance) (SessionPool.begin storeAwaitingPlan threeCommands)
        [0, 0, 0, 0, 0, 2, 2, 1, 1, 1, 1]).thread 0).2 = .done outcome ∧
      outcome ≠ .panicked ∧ outcome ≠ .answered (.error .notFound) :=
  ⟨.answered (.error .cannotFinish), rfl, undisturbed_commands_answered storeAwaitingPlan
    (.awaitPlan ⟨.taskScope "context" "agent" "message" "task", "task", "context", rfl, rfl⟩ "intent" 0)
    (by decide) threeCommands [0, 0, 0, 0, 0, 2, 2, 1, 1, 1, 1] (by decide) 0 _ rfl⟩

/-- The abort takes the session between the check and the removal of the finish:
the finish panics, and the grounding is told that there is no session. -/
theorem finish_panics_during_abort :
    let p := Run.exec (turn advance) (SessionPool.begin storeAwaitingPlan threeCommands) [0, 0, 1, 1, 0, 2, 1, 1]
    (p.thread 0).2 = .done .panicked ∧ (p.thread 2).2 = .done (.answered (.error .notFound)) ∧
      (p.thread 1).2 = .done (.answered (.ok (.closed "execution:uuid:0", []))) ∧
      p.shared.sessions.lookup "execution:uuid:0" =
        some (.closed ⟨.taskScope "context" "agent" "message" "task", "task", "context", rfl, rfl⟩) := by
  refine ⟨rfl, rfl, rfl, by decide⟩

end AgentiumOs.Session
