import AgentiumOs.Session.Invariant
import AgentiumOs.Session.Rejection

/-! Lineage epochs over whole runs. A task's epoch never falls, a session never
carries an epoch above its task's, and only an accepted plan gives a session with
an intent a new epoch. So once another session's superseding submission has moved
the task's epoch, the session stays behind it, and every step command on it is
rejected, as is every finish that would close it. -/

namespace AgentiumOs.Session

open AgentiumOs.Core Lib Lib.Fallible

variable {current : ℕ} {ac : Accepted} {p q : ℕ → Prop}

theorem nextEpoch_le (su : Option SupersessionKind) (h : current ≤ Word.maxValue 64) :
    nextEpoch su current ≤ Word.maxValue 64 := by
  unfold nextEpoch
  split_ifs
  · exact Word.saturatingAdd_le 64 current 1
  · exact h

theorem le_nextEpoch (su : Option SupersessionKind) (h : current ≤ Word.maxValue 64) :
    current ≤ nextEpoch su current := by
  unfold nextEpoch
  split_ifs
  · exact Word.le_saturatingAdd 1 h
  · exact Nat.le_refl current

/-- Epochs fit their word, and no session is ahead of its task. -/
structure EpochsBounded (s : SessionStore) : Prop where
  le_max : ∀ taskId, epochOf s.lineageEpoch taskId ≤ Word.maxValue 64
  session_le : ∀ sid session epoch, s.sessions.lookup sid = some session →
    session.epoch = some epoch → epoch ≤ epochOf s.lineageEpoch session.base.ownerTaskId

variable {s s' : SessionStore} {act : Except String RuntimeScope} {uuid : String}
  {command : ExecutionSessionCommand} {v : Except SessionError Accepted}

theorem CommandStep.lineageEpoch_cases (h : CommandStep s act uuid command v s') :
    s'.lineageEpoch = s.lineageEpoch ∨ ∃ taskId su,
      s'.lineageEpoch = (s.setEpoch taskId (nextEpoch su (epochOf s.lineageEpoch taskId))).lineageEpoch := by
  cases h with
  | openNoContext | openNoTask | opened | notFound | intentUnread | planUnread | planDuplicate
  | startRefused | started | completeRefused | stepCompleted | finishRefused | finishedAlready
  | finished | abortRefused | aborted | grounded => exact .inl rfl
  | intentRefused | planRefused => exact .inr ⟨_, _, rfl⟩
  | intentAccepted _ _ he | planAccepted _ _ _ he =>
    subst he
    exact .inr ⟨_, _, rfl⟩

theorem CommandStep.epochOf_le (h : CommandStep s act uuid command v s')
    (hs : EpochsBounded s) (taskId : String) :
    epochOf s.lineageEpoch taskId ≤ epochOf s'.lineageEpoch taskId ∧
      epochOf s'.lineageEpoch taskId ≤ Word.maxValue 64 := by
  obtain hsa | ⟨c, su, hse⟩ := h.lineageEpoch_cases
  · rw [hsa]
    exact ⟨Nat.le_refl _, hs.le_max taskId⟩
  · rw [hse]
    by_cases ht : taskId = c
    · subst ht
      rw [SessionStore.epochOf_setEpoch_self]
      exact ⟨le_nextEpoch su (hs.le_max taskId), nextEpoch_le su (hs.le_max taskId)⟩
    · rw [SessionStore.epochOf_setEpoch_of_ne _ ht]
      exact ⟨Nat.le_refl _, hs.le_max taskId⟩

variable {sid taskId : String}

theorem CommandStep.intent_accepted (h : CommandStep s act uuid (.submitIntent sid i) (.ok ac) s') :
    ∃ base su, s.sessions.lookup sid = some (.awaitIntent base) ∧
      readSupersession .intentSupersession i.supersession = .ok su ∧
      epochOf s'.lineageEpoch base.ownerTaskId = nextEpoch su (epochOf s.lineageEpoch base.ownerTaskId) := by
  cases h with
  | intentAccepted hs hr he =>
    exact ⟨_, _, hs, hr, by rw [← he]; exact SessionStore.epochOf_setEpoch_self _ _ _⟩

theorem CommandStep.plan_accepted (h : CommandStep s act uuid (.submitPlan sid pl) (.ok ac) s') : ∃ base o su,
      s.sessions.lookup sid = some (.awaitPlan base pl.intentId o) ∧
      readSupersession .planSupersession pl.supersession = .ok su ∧
      epochOf s'.lineageEpoch base.ownerTaskId = nextEpoch su (epochOf s.lineageEpoch base.ownerTaskId) := by
  cases h with
  | planAccepted hs hr ht he =>
    exact ⟨_, _, _, hs, hr, by rw [← he]; exact SessionStore.epochOf_setEpoch_self _ _ _⟩

theorem CommandStep.epochsBounded (h : CommandStep s act uuid command v s')
    (hs : EpochsBounded s) : EpochsBounded s' := by
  refine ⟨fun taskId => (h.epochOf_le hs taskId).2, fun sid se epoch hse he => ?_⟩
  have hm := h.move sid
  rw [hse] at hm
  generalize hn : some se = new at hm
  cases hm with
  | unchanged => exact (hs.session_le sid se epoch hn.symm he).trans (h.epochOf_le hs _).1
  | dropped => cases hn
  | opened | finished | aborted =>
    cases hn
    cases he
  | intentAccepted ho hr hc =>
    cases hn
    cases he
    obtain ⟨base, su, ho', hr', hcu⟩ := h.intent_accepted
    cases ho.symm.trans ho'
    cases hr.symm.trans hr'
    exact (hc.trans hcu.symm).le
  | planAccepted ho hr ht hc =>
    cases hn
    cases he
    obtain ⟨base, o, su, ho', hr', hcu⟩ := h.plan_accepted
    cases ho.symm.trans ho'
    cases hr.symm.trans hr'
    exact (hc.trans hcu.symm).le
  | started ho | stepCompleted ho =>
    cases hn
    exact (hs.session_le sid _ epoch ho he).trans (h.epochOf_le hs _).1

theorem epochsBounded_init : EpochsBounded .init := by
  refine ⟨fun taskId => Nat.zero_le _, fun sid session epoch hs => ?_⟩
  cases hs

/-! ### Sessions with an intent -/

/-- A session of the task that is past its intent: gone, closed, or carrying an
epoch with the property `p`. -/
def PastIntent (taskId : String) (p : ℕ → Prop) : Option ExecutionSession → Prop
  | none | some (.closed _) => True
  | some (.awaitIntent _) => False
  | some (.awaitPlan base _ epoch) => base.ownerTaskId = taskId ∧ p epoch
  | some (.executable e) => e.base.ownerTaskId = taskId ∧ p e.epoch

/-- An accepted plan for session `sid`. -/
def AcceptsPlan (sid : String) (s : SessionStore) (call : Invocation) : Prop :=
  Accepts s call ∧ ∃ plan, call.command = .submitPlan sid plan

theorem PastIntent.imp {taskId : String} (hpq : ∀ n, p n → q n)
    {session : Option ExecutionSession} (h : PastIntent taskId p session) :
    PastIntent taskId q session := by
  match session, h with
  | none, _ | some (.closed _), _ => trivial
  | some (.awaitPlan _ _ _), h | some (.executable _), h => exact ⟨h.1, hpq _ h.2⟩

/-- Only an accepted plan changes the epoch a session carries. The id is issued,
so no later session is opened under it. -/
theorem PastIntent.move (hm : SessionMove s uuid sid command v new)
    (h : PastIntent taskId p (s.sessions.lookup sid)) (hi : Issued s.counter sid)
    (hp : (∀ n, p n) ∨ ∀ plan ac, command = .submitPlan sid plan → v ≠ .ok ac) :
    PastIntent taskId p new := by
  cases hm with
  | unchanged => exact h
  | dropped | finished | aborted => trivial
  | opened hid => exact absurd (hid ▸ hi) (not_issued_next _ _)
  | intentAccepted hs =>
    rw [hs] at h
    exact h.elim
  | planAccepted hs =>
    rw [hs] at h
    rcases hp with ha | hn
    · exact ⟨h.1, ha _⟩
    · exact absurd rfl (hn _ _ rfl)
  | started hs | stepCompleted hs =>
    rw [hs] at h
    exact h

theorem PastIntent.exec (s : SessionStore) (c : List Invocation) (h : PastIntent taskId p (s.sessions.lookup sid))
    (hi : Issued s.counter sid)
    (hp : (∀ n, p n) ∨ Run.Along invoke (fun s call => ¬ AcceptsPlan sid s call) s c) :
    PastIntent taskId p ((Run.exec invoke s c).sessions.lookup sid) ∧
      Issued (Run.exec invoke s c).counter sid := by
  induction c generalizing s with
  | nil => exact ⟨h, hi⟩
  | cons call c ih =>
    refine ih (invoke s call).1 (h.move (invoke_move s call sid) hi ?_)
      (hi.mono (invoke_step s call).counter_le) (hp.imp id fun ha => ha.2)
    refine hp.imp id fun ha plan ac hc hv => ?_
    exact ha.1 ⟨⟨ac, hv⟩, plan, hc⟩

theorem epochOf_le_exec (hs : EpochsBounded s) (c : List Invocation) (taskId : String) :
    epochOf s.lineageEpoch taskId ≤ epochOf (Run.exec invoke s c).lineageEpoch taskId := by
  induction c generalizing s with
  | nil => exact Nat.le_refl _
  | cons call c ih =>
    have hst := invoke_step s call
    exact (hst.epochOf_le hs taskId).1.trans (ih (hst.epochsBounded hs))

/-- The accepted intent of a session of the task. -/
def AcceptsIntent (sid taskId : String) (s : SessionStore) (call : Invocation) : Prop :=
  Accepts s call ∧ (∃ intent, call.command = .submitIntent sid intent) ∧
    ∃ session, s.sessions.lookup sid = some session ∧ session.base.ownerTaskId = taskId

/-- An accepted submission with a supersession, for the task and by session `sid`. -/
def Supersedes (sid taskId : String) (s : SessionStore) (call : Invocation) : Prop :=
  Accepts s call ∧
    ((∃ intent, call.command = .submitIntent sid intent ∧ intent.supersession ≠ none) ∨
      ∃ plan, call.command = .submitPlan sid plan ∧ plan.supersession ≠ none) ∧
    ∃ session, s.sessions.lookup sid = some session ∧ session.base.ownerTaskId = taskId

theorem nextEpoch_of_supersession (hf : f ≠ none) (hr : readSupersession i f = .ok su)
    (current : ℕ) : nextEpoch su current = Word.saturatingAdd 64 current 1 := by
  cases su with
  | none => exact absurd ((readSupersession_ok_none_iff hr).mp rfl) hf
  | some kind => rfl

variable {call : Invocation}

/-- A superseding submission moves its task to a later epoch, and touches no
other session. -/
theorem Supersedes.step (h : Supersedes sid taskId s call)
    (hro : epochOf s.lineageEpoch taskId < Word.maxValue 64) :
    epochOf s.lineageEpoch taskId < epochOf (invoke s call).1.lineageEpoch taskId ∧
      ∀ other ≠ sid, (invoke s call).1.sessions.lookup other = s.sessions.lookup other := by
  obtain ⟨⟨ac, hv⟩, hsb, session, hs, rfl⟩ := h
  have hst := invoke_step s call
  rw [hv] at hst
  have ho : call.command.sessionId = some sid → call.command ≠ .open →
      ∀ other ≠ sid, (invoke s call).1.sessions.lookup other = s.sessions.lookup other := by
    intro hsi hop other hne
    have ha : call.command.sessionId ≠ some other :=
      fun hid => hne (Option.some.inj (hid.symm.trans hsi))
    obtain hsa | ⟨hc, -⟩ := hst.lookup_of_ne ha
    · exact hsa
    · exact absurd hc hop
  have hn := Word.lt_saturatingAdd_one hro
  rcases hsb with ⟨intent, hc, hsu⟩ | ⟨plan, hc, hsu⟩
  · refine ⟨?_, ho (by rw [hc]; rfl) (by rw [hc]; simp)⟩
    rw [hc] at hst
    obtain ⟨base, su, hs', hr, hcl⟩ := hst.intent_accepted
    cases hs.symm.trans hs'
    rw [nextEpoch_of_supersession hsu hr] at hcl
    exact hn.trans_eq hcl.symm
  · refine ⟨?_, ho (by rw [hc]; rfl) (by rw [hc]; simp)⟩
    rw [hc] at hst
    obtain ⟨base, o, su, hs', hr, hcl⟩ := hst.plan_accepted
    cases hs.symm.trans hs'
    rw [nextEpoch_of_supersession hsu hr] at hcl
    exact hn.trans_eq hcl.symm

/-- `start_step`, `complete_step`, a `finish` of a session that is not closed, or a `submit_plan` for
one that does not await its plan. -/
def TooLate (sid : String) (s : SessionStore) (command : ExecutionSessionCommand) : Prop :=
  (∃ stepId citations, command = .startStep sid stepId citations) ∨
    (∃ stepId citations, command = .completeStep sid stepId citations) ∨
    (command = .finish sid ∧ ∀ base, s.sessions.lookup sid ≠ some (.closed base)) ∨
    ∃ plan, command = .submitPlan sid plan ∧
      ∀ base intentId epoch, s.sessions.lookup sid ≠ some (.awaitPlan base intentId epoch)

theorem stale_rejected (h : PastIntent taskId (· < epochOf s.lineageEpoch taskId) (s.sessions.lookup sid))
    (hca : TooLate sid s call.command) : ∃ e, (invoke s call).2.verdict = .error e := by
  have hb : ∀ e, s.sessions.lookup sid = some (.executable e) →
      e.epoch ≠ epochOf s.lineageEpoch e.base.ownerTaskId := by
    intro e hs
    rw [hs] at h
    rw [h.1]
    exact h.2.ne
  have hst := invoke_step s call
  generalize (invoke s call).2.verdict = v at hst ⊢
  generalize (invoke s call).1 = s' at hst
  rcases hca with ⟨si, c, hc⟩ | ⟨si, c, hc⟩ | ⟨hc, ho⟩ | ⟨plan, hc, ho⟩
  · rw [hc] at hst
    cases hst with
    | notFound | startRefused => exact ⟨_, rfl⟩
    | started hs he => exact absurd he (hb _ hs)
  · rw [hc] at hst
    cases hst with
    | notFound | completeRefused => exact ⟨_, rfl⟩
    | stepCompleted hs he => exact absurd he (hb _ hs)
  · rw [hc] at hst
    cases hst with
    | notFound | finishRefused => exact ⟨_, rfl⟩
    | finishedAlready hs => exact absurd hs (ho _)
    | finished hs he => exact absurd he (hb _ hs)
  · rw [hc] at hst
    cases hst with
    | planAccepted hs => exact absurd hs (ho _ _ _)
    | _ => exact ⟨_, rfl⟩

theorem AcceptsIntent.pastIntent (h : AcceptsIntent sid taskId s call) :
    PastIntent taskId (fun _ => True) ((invoke s call).1.sessions.lookup sid) := by
  obtain ⟨⟨ac, hv⟩, ⟨intent, hc⟩, session, hs, rfl⟩ := h
  have hst := invoke_step s call
  rw [hv, hc] at hst
  generalize (invoke s call).1 = s' at hst ⊢
  cases hst with
  | intentAccepted hs' =>
    cases hs.symm.trans hs'
    rw [SessionStore.lookup_put_self]
    exact ⟨rfl, trivial⟩

/-- Once session `b` has superseded the task, a session `a` of the task that had
its intent before and gets no plan afterwards has its step commands rejected, every
finish unless it is closed already, and every plan unless it awaits one. -/
theorem superseded_session_rejected (pre mid post : List Invocation)
    (intentCall superCall call : Invocation) (a b taskId : String)
    (hintent : AcceptsIntent a taskId (Run.exec invoke .init pre) intentCall)
    (hsuper : Supersedes b taskId (Run.exec invoke .init (pre ++ intentCall :: mid)) superCall)
    (hab : a ≠ b)
    (hroom : epochOf (Run.exec invoke .init (pre ++ intentCall :: mid)).lineageEpoch taskId < Word.maxValue 64)
    (hplan : Run.Along invoke (fun s c => ¬ AcceptsPlan a s c)
      (Run.exec invoke .init (pre ++ intentCall :: mid ++ [superCall])) post)
    (hcall : TooLate a (Run.exec invoke .init (pre ++ intentCall :: mid ++ superCall :: post)) call.command) :
    ∃ e, (invoke (Run.exec invoke .init (pre ++ intentCall :: mid ++ superCall :: post)) call).2.verdict =
      .error e := by
  have hb := Run.exec_invariant invoke EpochsBounded (fun s call hs => (invoke_step s call).epochsBounded hs)
    .init epochsBounded_init (pre ++ intentCall :: mid)
  have hsp : pre ++ intentCall :: mid ++ superCall :: post =
      (pre ++ intentCall :: mid ++ [superCall]) ++ post := by simp
  -- session `a` from its intent up to the supersession
  have hi : Issued (invoke (Run.exec invoke .init pre) intentCall).1.counter a := by
    obtain ⟨-, -, session, hse, -⟩ := hintent
    exact (onlyIssued_exec pre a session hse).mono (invoke_step _ _).counter_le
  obtain ⟨hp, hi⟩ := hintent.pastIntent.exec _ mid hi (.inl fun _ => trivial)
  have hmid : Run.exec invoke (invoke (Run.exec invoke .init pre) intentCall).1 mid =
      Run.exec invoke .init (pre ++ intentCall :: mid) := by
    rw [Run.exec_append, Run.exec_cons]
  rw [hmid] at hp hi
  -- the supersession leaves it behind
  obtain ⟨hm, ho⟩ := hsuper.step hroom
  rw [Run.exec_concat] at hplan
  rw [hsp, Run.exec_append, Run.exec_concat] at hcall ⊢
  generalize Run.exec invoke .init (pre ++ intentCall :: mid) = s at *
  have hst : PastIntent taskId (· < epochOf (invoke s superCall).1.lineageEpoch taskId)
      ((invoke s superCall).1.sessions.lookup a) := by
    rw [ho a hab]
    match hse : s.sessions.lookup a, hp with
    | none, _ | some (.closed _), _ => trivial
    | some (.awaitPlan base i epoch), hp =>
      refine ⟨hp.1, lt_of_le_of_lt ?_ hm⟩
      exact hp.1 ▸ hb.session_le a _ epoch hse rfl
    | some (.executable e), hp =>
      refine ⟨hp.1, lt_of_le_of_lt ?_ hm⟩
      exact hp.1 ▸ hb.session_le a _ e.epoch hse rfl
  have hi' := hi.mono (invoke_step s superCall).counter_le
  -- and nothing in `post` lets it catch up
  obtain ⟨hl, -⟩ := hst.exec _ post hi' (.inr hplan)
  have hg := epochOf_le_exec ((invoke_step s superCall).epochsBounded hb) post taskId
  exact stale_rejected (hl.imp fun n hn => lt_of_lt_of_le hn hg) hcall

/-- Two sessions of one task: the first has its intent and a plan of one step,
then the second supersedes it. -/
def oneStepPlan : ExecutionSessionCommand :=
  .submitPlan "execution:uuid:0" ⟨"intent", "plan", [⟨"step", "look", 0, []⟩], none⟩

def replacingIntent : ExecutionSessionCommand :=
  .submitIntent "execution:uuid:1" ⟨"other", "start over", [], some "replaced"⟩

theorem superseded_start_rejected :
    ∃ e, (invoke (Run.exec invoke .init
        ([callFromTask .open] ++ callFromTask firstIntent :: [callFromTask oneStepPlan, callFromTask .open] ++
          callFromTask replacingIntent :: []))
      (callFromTask (.startStep "execution:uuid:0" "step" []))).2.verdict = .error e :=
  superseded_session_rejected [callFromTask .open] [callFromTask oneStepPlan, callFromTask .open] []
    (callFromTask firstIntent) (callFromTask replacingIntent)
    (callFromTask (.startStep "execution:uuid:0" "step" [])) "execution:uuid:0" "execution:uuid:1" "task"
    ⟨⟨_, rfl⟩, ⟨_, rfl⟩, _, rfl, rfl⟩
    ⟨⟨_, rfl⟩, .inl ⟨_, rfl, by decide⟩, _, rfl, rfl⟩
    (by decide) (by decide) trivial (.inl ⟨_, _, rfl⟩)

/-- A session that had its intent and was closed, then superseded by another:
finishing it is accepted. -/
theorem superseded_finish_accepted :
    AcceptsIntent "execution:uuid:0" "task" (Run.exec invoke .init [callFromTask .open])
        (callFromTask firstIntent) ∧
      Supersedes "execution:uuid:1" "task" (Run.exec invoke .init [callFromTask .open, callFromTask firstIntent,
          callFromTask (.abort "execution:uuid:0" ""), callFromTask .open]) (callFromTask replacingIntent) ∧
      (invoke (Run.exec invoke .init [callFromTask .open, callFromTask firstIntent,
          callFromTask (.abort "execution:uuid:0" ""), callFromTask .open, callFromTask replacingIntent])
        (callFromTask (.finish "execution:uuid:0"))).2.verdict = .ok (.closed "execution:uuid:0", []) :=
  ⟨⟨⟨_, rfl⟩, ⟨_, rfl⟩, _, rfl, rfl⟩, ⟨⟨_, rfl⟩, .inl ⟨_, rfl, by decide⟩, _, rfl, rfl⟩, by decide⟩

/-- A stored session stays as it is as long as no command is addressed to it. -/
theorem unaddressed_session_kept (before after : List Invocation) (sid : String) {session : ExecutionSession}
    (hs : (Run.exec invoke .init before).sessions.lookup sid = some session)
    (ha : ∀ call ∈ after, call.command.sessionId ≠ some sid) :
    (Run.exec invoke .init (before ++ after)).sessions.lookup sid = some session := by
  induction after using List.reverseRecOn with
  | nil => rwa [List.append_nil]
  | append_singleton after call ih =>
    have hb := ih fun c hc => ha c (List.mem_append_left _ hc)
    rw [← List.append_assoc, Run.exec_concat]
    rcases (invoke_step _ call).lookup_of_ne (ha call (by simp)) with heq | ⟨-, hid, -⟩
    · exact heq.trans hb
    · -- an id in use is not the next one to be issued
      exact absurd (hid ▸ onlyIssued_exec _ _ _ hb) (not_issued_next _ _)

theorem superseded_session_kept : (Run.exec invoke .init ([callFromTask .open, callFromTask firstIntent] ++
        [callFromTask .open, callFromTask replacingIntent])).sessions.lookup "execution:uuid:0" =
      (Run.exec invoke .init [callFromTask .open, callFromTask firstIntent]).sessions.lookup "execution:uuid:0" :=
  unaddressed_session_kept [callFromTask .open, callFromTask firstIntent] _ _ rfl (by decide)

end AgentiumOs.Session
