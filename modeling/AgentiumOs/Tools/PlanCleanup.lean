import AgentiumOs.Tools.PlanRun

/-! The sessions that a plan opens for its sends. A session is closed at the end of the plan or
with the failure that the tool reports; the plan that returns an error leaves it. -/

namespace AgentiumOs.Tools

open List SessionHandle AgentiumOs.Core Lib Lib.Program
open Lib.Json (Value)

variable {ω : Type} {E : Surroundings ω} {s : Runtime ω} {id : ToolSessionId}

/-! ### What an operation does to the sessions -/

def FailsOn (id : ToolSessionId) (event : PlanEvent ω) : Prop :=
  ∃ a, sent? event = some a ∧ a.sessionId = id ∧ a.ToolFailed

/-- An operation leaves the sessions, adds one that was never there, or removes one. -/
inductive Changes (event : PlanEvent ω) (h : SessionHandle) : SessionHandle → Prop
  | same : Changes event h h
  | opened (id : ToolSessionId) (scope : ToolSessionScope) (hnew : id ∉ h.issued) : Changes event h (h.add id scope)
  | removed (id : ToolSessionId) (hwhy : closed? event = some id ∨ FailsOn id event) : Changes event h (h.remove id)

theorem serve_changes (E : Surroundings ω) (op : PlanOp) (s : Runtime ω) :
    Changes ⟨s, op, (serve E op s).1⟩ s.handle (serve E op s).2.handle := by
  cases op with
  | metadata t | findSession sc t | findDuplicate contextId si | openInput sessionId
  | readArchive contextId read => exact .same
  | openSession sc t inp =>
    rcases serve_openSession (E := E) (s := s) sc t inp with ⟨id, w, hn, hse⟩ | ⟨e, w, hse⟩
    · rw [hse]
      exact .opened id _ hn
    · rw [hse]
      exact .same
  | send sessionId inp =>
    have hsn := serve_send (E := E) (s := s) sessionId inp
    generalize serve E (.send sessionId inp) s = se at hsn
    obtain ⟨answer, handle, w⟩ := se
    cases hsn with
    | toolFailed f hid => exact .removed sessionId (.inr ⟨_, rfl, rfl, f, rfl⟩)
    | _ => exact .same
  | finish sessionId =>
    change Changes _ _ (s.handle.toolSessionFinish sessionId (E.onFinish sessionId s.world).1).2
    cases hs : s.handle.scope? sessionId with
    | none =>
      rw [finish_of_none hs]
      exact .same
    | some sc =>
      rw [finish_of_scope (Option.isSome_of_eq_some hs)]
      exact .removed sessionId (.inl rfl)
  | abort sessionId re =>
    change Changes _ _ (s.handle.toolSessionAbort sessionId (E.onAbort sessionId re s.world).1).2
    cases hs : s.handle.scope? sessionId with
    | none =>
      rw [toolSessionAbort, hs]
      exact .same
    | some sc =>
      rw [abort_of_scope (Option.isSome_of_eq_some hs)]
      exact .removed sessionId (.inl rfl)

structure SessionHandle.Gone (id : ToolSessionId) (h : SessionHandle) : Prop where
  issued : id ∈ h.issued
  notMem : id ∉ h.registry.sessions

variable {e : PlanEvent ω} {a : Sent ω} {h h' : SessionHandle}

theorem Changes.gone (hc : Changes e h h') (hg : h.Gone id) : h'.Gone id := by
  cases hc with
  | same => exact hg
  | opened new scope hn =>
    refine ⟨Finset.mem_insert_of_mem hg.issued, fun hm => ?_⟩
    rcases mem_sessions_add.mp hm with rfl | hm
    · exact hn hg.issued
    · exact hg.notMem hm
  | removed other hw => exact ⟨hg.issued, fun hm => hg.notMem (mem_sessions_remove.mp hm).2⟩

theorem Changes.kept (hc : Changes e h h') (hcl : closed? e ≠ some id)
    (hf : ¬ FailsOn id e) (hid : id ∈ h.registry.sessions) : id ∈ h'.registry.sessions := by
  cases hc with
  | same => exact hid
  | opened new scope hn => exact mem_sessions_add.mpr (.inr hid)
  | removed other hw =>
    refine mem_sessions_remove.mpr ⟨?_, hid⟩
    rintro rfl
    exact hw.elim hcl hf

theorem gone_of_fails (op : PlanOp) (hfa : FailsOn id ⟨s, op, (serve E op s).1⟩) : (serve E op s).2.handle.Gone id := by
  obtain ⟨a, hse, rfl, f, hf⟩ := hfa
  cases op with
  | send sessionId inp =>
    cases hse
    have hs := serve_send (E := E) (s := s) sessionId inp
    generalize serve E (.send sessionId inp) s = se at hs hf
    obtain ⟨answer, handle, world⟩ := se
    cases hs with
    | toolFailed f hid =>
      exact ⟨s.handle.drawn (mem_sessions_of_scope hid), fun hm => (mem_sessions_remove.mp hm).1 rfl⟩
    | _ => cases hf
  | _ => cases hse

theorem mem_of_opened (op : PlanOp) (ho : opened? (⟨s, op, (serve E op s).1⟩ : PlanEvent ω) = some id) :
    id ∈ (serve E op s).2.handle.registry.sessions := by
  cases op with
  | openSession sc t input =>
    rcases serve_openSession (E := E) (s := s) sc t input with ⟨new, w, hn, hs⟩ | ⟨e, w, hs⟩
    · rw [hs] at ho ⊢
      cases ho
      exact mem_sessions_add.mpr (.inl rfl)
    · rw [hs] at ho
      cases ho
  | _ => cases ho

/-! ### What a run does to the sessions -/

variable {J : JsonTexts} {c : PlanCall}

theorem notMem_final_of_toolFailed (ha : a ∈ sends (c.events E J s)) (hf : a.ToolFailed) :
    a.sessionId ∉ (c.final E J s).handle.registry.sessions := by
  obtain ⟨e, he, hs⟩ := mem_filterMap.mp ha
  have hg : (c.final E J s).handle.Gone a.sessionId :=
    ensures_reaches (fun s => s.handle.Gone a.sessionId) (P := fun _ => True) (R := FailsOn a.sessionId)
      (fun op s hfa => gone_of_fails op hfa) (fun op s _ hg => (serve_changes E op s).gone hg)
      (c.program J) s (fun _ _ => trivial) ⟨e, he, a, hs, rfl, hf⟩
  exact hg.notMem

theorem mem_final_of_opened (hid : id ∈ opens (c.events E J s)) (hc : id ∉ closes (c.events E J s))
    (hf : ∀ a ∈ sends (c.events E J s), a.sessionId = id → ¬ a.ToolFailed) :
    id ∈ (c.final E J s).handle.registry.sessions := by
  obtain ⟨e, he, ho⟩ := mem_filterMap.mp hid
  refine ensures_reaches (fun s => id ∈ s.handle.registry.sessions)
    (P := fun e => closed? e ≠ some id ∧ ¬ FailsOn id e) (R := fun e => opened? e = some id)
    (fun op s ho => mem_of_opened op ho)
    (fun op s hop hid => (serve_changes E op s).kept hop.1 hop.2 hid) (c.program J) s ?_ ⟨e, he, ho⟩
  refine fun e he => ⟨fun h => hc (mem_filterMap.mpr ⟨e, he, h⟩), ?_⟩
  rintro ⟨a, hs, hid, hfa⟩
  exact hf a (mem_filterMap.mpr ⟨e, he, hs⟩) hid hfa

/-- What the attempts of a send come to: only sessions of sends that came to an end are closed,
what is opened is sent to, and the send that is done is the last one and its session the one
that the plan ends with. -/
structure Attempted (active : ToolSessionId) (r : Except BamlRtError PlanVars) (s' : Runtime ω)
    (l : List (PlanEvent ω)) : Prop where
  sent : ∃ a ∈ sends l, a.sessionId = active
  closed : ∀ id ∈ closes l, ∃ a ∈ sends l, a.sessionId = id ∧ a.Answered
  opened : ∀ id ∈ opens l, ∃ a ∈ sends l, a.sessionId = id
  completed : ∀ a ∈ sends l, a.Completed → (sends l).getLast? = some a ∧ ∃ vars, r = .ok vars ∧
    vars.sessionId = some a.sessionId ∧ vars.sendCompleted = true ∧ (s'.handle.scope? a.sessionId).isSome
  returned : ∀ vars, r = .ok vars → ∃ a ∈ sends l, vars.sessionId = some a.sessionId ∧ a.Answered

section

variable {r : Except BamlRtError PlanVars} {s' : Runtime ω} {l l' : List (PlanEvent ω)} {active fresh : ToolSessionId}

/-- The attempts before do not matter if none was done and what they opened is sent to after. -/
theorem Attempted.after (h : Attempted fresh r s' l') (hs : ∃ a ∈ sends l, a.sessionId = active)
    (hc : ∀ id ∈ closes l, ∃ a ∈ sends l, a.sessionId = id ∧ a.Answered) (ho : ∀ id ∈ opens l, id = fresh)
    (hn : ∀ a ∈ sends l, ¬ a.Completed) : Attempted active r s' (l ++ l') := by
  have hl : ∀ {a}, a ∈ sends l → a ∈ sends (l ++ l') := fun ha => by
    rw [sends_append]
    exact mem_append_left _ ha
  have hr : ∀ {a}, a ∈ sends l' → a ∈ sends (l ++ l') := fun ha => by
    rw [sends_append]
    exact mem_append_right _ ha
  refine ⟨?_, fun id hid => ?_, fun id hid => ?_, fun a ha hd => ?_, fun vars hv => ?_⟩
  · obtain ⟨a, ha, hid⟩ := hs
    exact ⟨a, hl ha, hid⟩
  · rw [closes_append] at hid
    rcases mem_append.mp hid with hid | hid
    · obtain ⟨a, ha, h⟩ := hc id hid
      exact ⟨a, hl ha, h⟩
    · obtain ⟨a, ha, h⟩ := h.closed id hid
      exact ⟨a, hr ha, h⟩
  · rw [opens_append] at hid
    rcases mem_append.mp hid with hid | hid
    · obtain ⟨a, ha, h⟩ := h.sent
      exact ⟨a, hr ha, h.trans (ho id hid).symm⟩
    · obtain ⟨a, ha, h⟩ := h.opened id hid
      exact ⟨a, hr ha, h⟩
  · rw [sends_append] at ha ⊢
    rcases mem_append.mp ha with ha | ha
    · exact absurd hd (hn a ha)
    · obtain ⟨hla, hv⟩ := h.completed a ha hd
      refine ⟨?_, hv⟩
      rw [getLast?_append, hla]
      rfl
  · obtain ⟨a, ha, h⟩ := h.returned vars hv
    exact ⟨a, hr ha, h⟩

variable {i : Value} {answer : Except BamlRtError SendOutcome}

theorem attempted_last (hr : ∀ vars, r = .ok vars → vars.sessionId = some active ∧ ∃ outcome, answer = .ok outcome)
    (hc : ∀ result, answer = .ok (.completed result) → ∃ vars, r = .ok vars ∧
      vars.sessionId = some active ∧ vars.sendCompleted = true ∧ (s'.handle.scope? active).isSome) :
    Attempted active r s' [(⟨s, .send active i, answer⟩ : PlanEvent ω)] := by
  refine ⟨⟨_, mem_singleton_self _, rfl⟩, forall_mem_nil _, forall_mem_nil _, fun a ha hd => ?_, fun vars hv => ?_⟩
  · obtain rfl := mem_singleton.mp ha
    obtain ⟨result, hre⟩ := hd
    exact ⟨rfl, hc result hre⟩
  · obtain ⟨hid, han⟩ := hr vars hv
    exact ⟨_, mem_singleton_self _, hid, han⟩

/-- A send that was not done, with what follows it, if that is no send and closes no other session. -/
structure Unfinished (active : ToolSessionId) (answer : Except BamlRtError SendOutcome) (l : List (PlanEvent ω)) :
    Prop where
  notCompleted : ∀ result, answer ≠ .ok (.completed result)
  noSend : sends l = []
  closed : ∀ id ∈ closes l, id = active ∧ ∃ outcome, answer = .ok outcome

theorem Unfinished.sends_cons (h : Unfinished active answer l) :
    sends ((⟨s, .send active i, answer⟩ : PlanEvent ω) :: l) = [⟨s, active, i, answer⟩] :=
  congrArg (List.cons _) h.noSend

theorem Unfinished.not_completed (h : Unfinished active answer l) :
    ∀ a ∈ sends ((⟨s, .send active i, answer⟩ : PlanEvent ω) :: l), ¬ a.Completed := by
  rw [h.sends_cons]
  exact forall_mem_singleton.mpr fun ⟨result, hr⟩ => h.notCompleted result hr

theorem Unfinished.closed_answered (h : Unfinished active answer l) :
    ∀ id ∈ closes ((⟨s, .send active i, answer⟩ : PlanEvent ω) :: l),
      ∃ a ∈ sends ((⟨s, .send active i, answer⟩ : PlanEvent ω) :: l), a.sessionId = id ∧ a.Answered := by
  intro id hid
  obtain ⟨rfl, ha⟩ := h.closed id hid
  exact ⟨_, mem_cons_self, rfl, ha⟩

theorem Unfinished.again (h : Unfinished active answer l) (ho : ∀ id ∈ opens l, id = fresh)
    (hr : Attempted fresh r s' l') :
    Attempted active r s' ((⟨s, .send active i, answer⟩ : PlanEvent ω) :: (l ++ l')) :=
  hr.after (l := ⟨s, .send active i, answer⟩ :: l) ⟨_, mem_cons_self, rfl⟩ h.closed_answered ho h.not_completed

theorem Unfinished.stops (h : Unfinished active answer l) (ho : opens l = []) (e : BamlRtError) :
    Attempted active (.error e) s' ((⟨s, .send active i, answer⟩ : PlanEvent ω) :: l) := by
  refine ⟨⟨_, mem_cons_self, rfl⟩, h.closed_answered, ?_, fun a ha hd => absurd hd (h.not_completed a ha),
    fun _ h => by cases h⟩
  change ∀ id ∈ opens l, _
  rw [ho]
  exact forall_mem_nil _

theorem unfinished_error (e : BamlRtError) (hq : Quiet l) : Unfinished active (.error e) l where
  notCompleted _ h := by cases h
  noSend := hq.noSend
  closed := by
    rw [hq.noClose]
    exact forall_mem_nil _

variable {ctx : PlanContext} {vars : PlanVars}

theorem reportFailure_ensures (hv : vars.sessionId = some active) (f : ToolFailure) (s₁ : Runtime ω) :
    Ensures (serve E) (reportFailure ctx vars active f) s₁ fun r s' l =>
      Attempted active r s' ((⟨s, .send active i, .ok (.toolFailed f)⟩ : PlanEvent ω) :: l) := by
  have hr : ∀ output vars', Except.ok (ε := BamlRtError) { vars with lastOutput := output } = .ok vars' →
      vars'.sessionId = some active ∧
        ∃ outcome, Except.ok (ε := BamlRtError) (SendOutcome.toolFailed f) = .ok outcome := by
    rintro output _ ⟨⟩
    exact ⟨hv, _, rfl⟩
  unfold reportFailure
  split
  · exact ensures_throw (attempted_last (fun _ h => by cases h) fun _ h => by cases h)
  all_goals exact ensures_pure (attempted_last (hr _) fun _ h => by cases h)

theorem settleSend_completed_ensures (hv : vars.sessionId = some active) (ret : ℕ) (re : SendResult)
    (hid : (s₁.handle.scope? active).isSome) :
    Ensures (serve E) (settleSend ctx i ret vars active (.ok (.completed re))) s₁ fun r s' l =>
      Attempted active r s' ((⟨s, .send active i, .ok (.completed re)⟩ : PlanEvent ω) :: l) := by
  rw [settleSend]
  refine ensures_pure (attempted_last ?_ fun _ _ => ⟨_, rfl, hv, rfl, hid⟩)
  rintro _ ⟨⟩
  exact ⟨hv, _, rfl⟩

theorem attempt_ensures (ctx : PlanContext) (i : Value) (re : ℕ) (vars : PlanVars) (active : ToolSessionId)
    (s : Runtime ω) (hv : vars.sessionId = some active) :
    Ensures (serve E)
      (do let outcome : Except BamlRtError SendOutcome ← ask (.send active i)
          settleSend ctx i re vars active outcome) s fun r s' l => Attempted active r s' l := by
  induction re generalizing vars active s with
  | zero =>
    have hs := serve_send (E := E) (s := s) active i
    refine ensures_ask (.send active i) ?_
    generalize serve E (.send active i) s = se at hs
    obtain ⟨answer, handle, w⟩ := se
    cases hs with
    | completed result hid => exact settleSend_completed_ensures hv 0 result hid
    | toolFailed f hid => exact reportFailure_ensures hv f _
    | error e hid => exact ensures_throw ((unfinished_error e ⟨rfl, rfl, rfl⟩).stops rfl e)
    | notFound hid => exact ensures_throw ((unfinished_error _ ⟨rfl, rfl, rfl⟩).stops rfl _)
  | succ re ih =>
    have hs := serve_send (E := E) (s := s) active i
    refine ensures_ask (.send active i) ?_
    generalize serve E (.send active i) s = se at hs
    obtain ⟨answer, handle, w⟩ := se
    cases hs with
    | completed result hid => exact settleSend_completed_ensures hv _ result hid
    | notFound hid => exact ensures_throw ((unfinished_error _ ⟨rfl, rfl, rfl⟩).stops rfl _)
    | error e hid =>
      have hu : Unfinished active (.error e) ([] : List (PlanEvent ω)) := unfinished_error e ⟨rfl, rfl, rfl⟩
      rw [settleSend]
      split
      · exact (ih vars active _ hv).imp fun r s' l h => hu.again (forall_mem_nil _) h
      · exact ensures_throw (hu.stops rfl e)
    | toolFailed f hid =>
      rw [settleSend]
      split
      · split
        · rw [ensures_bind]
          refine (reopen_ensures ctx scope?_remove_self).imp ?_
          rintro _ s₂ l ⟨hn, hc, hr⟩
          have hu : Unfinished active (.ok (.toolFailed f)) l := by
            refine ⟨fun _ h => (by cases h), hn, ?_⟩
            rw [hc]
            exact forall_mem_singleton.mpr ⟨rfl, _, rfl⟩
          rcases hr with ⟨e, rfl, ho⟩ | ⟨fresh, rfl, ho, -⟩
          · exact hu.stops ho e
          · refine (ih { vars with sessionId := some fresh } fresh s₂ rfl).imp fun r s' l' h => hu.again ?_ h
            rw [ho]
            exact forall_mem_singleton.mpr rfl
        · have hu : Unfinished active (.ok (.toolFailed f)) ([] : List (PlanEvent ω)) :=
            ⟨fun _ h => (by cases h), rfl, forall_mem_nil _⟩
          exact (ih vars active _ hv).imp fun r s' l h => hu.again (forall_mem_nil _) h
      · exact reportFailure_ensures hv f _

theorem recoverStaleSession_ensures (ctx : PlanContext) (st : ToolSessionId) (s : Runtime ω) :
    Ensures (serve E) (recoverStaleSession ctx st) s fun _ _ l => Quiet l := by
  refine ensures_ask (.findSession ctx.scope ctx.toolName) ?_
  rcases (serve E (.findSession ctx.scope ctx.toolName) s).1 with _ | fresh
  · exact ensures_throw ⟨rfl, rfl, rfl⟩
  · dsimp only
    split
    · exact ensures_pure ⟨rfl, rfl, rfl⟩
    · exact ensures_throw ⟨rfl, rfl, rfl⟩

/-- The outcome of the first send is settled, or its session is looked up again. -/
theorem settleFirst_cases (ctx : PlanContext) (vars : PlanVars) (cur : ToolSessionId) (i : Value)
    (answer : Except BamlRtError SendOutcome) :
    settleFirst ctx vars cur i answer = settleSend ctx i maxHostRetries vars cur answer ∨
      ∃ e, answer = .error e ∧ settleFirst ctx vars cur i answer = (do
        let fresh ← recoverStaleSession ctx cur
        let outcome : Except BamlRtError SendOutcome ← ask (.send fresh i)
        settleSend ctx i maxHostRetries { vars with sessionId := some fresh } fresh outcome) := by
  unfold settleFirst
  split
  · exact .inr ⟨_, rfl, rfl⟩
  · exact .inl rfl

theorem sendOn_attempted (hv : vars.sessionId = some active) :
    Ensures (serve E) (sendOn ctx vars active i) s fun r s' l => Attempted active r s' l := by
  have ha := attempt_ensures (E := E) ctx i maxHostRetries vars active s hv
  refine ensures_ask (.send active i) ?_
  rcases settleFirst_cases ctx vars active i (serve E (.send active i) s).1 with hs | ⟨e, han, hs⟩
  · rw [hs]
    exact ha
  · rw [hs, han, ensures_bind]
    refine (recoverStaleSession_ensures ctx active _).imp ?_
    rintro (e' | fresh) s₂ l hq
    · exact (unfinished_error e hq).stops hq.noOpen e'
    · refine (attempt_ensures ctx i maxHostRetries { vars with sessionId := some fresh } fresh s₂ rfl).imp
        fun r s' l' h => (unfinished_error e hq).again ?_ h
      rw [hq.noOpen]
      exact forall_mem_nil _

variable {n : Value}

theorem sendStep_attempted (hn : normalizePlanInput J i = .ok n) (hv : vars.sessionId = some active) :
    Ensures (serve E) (sendStep J ctx vars i) s fun r s' l => Attempted active r s' l ∨
      Quiet l ∧ s'.handle = s.handle ∧
        ∃ vars', r = .ok vars' ∧ vars'.sessionId = some active ∧ vars'.sendCompleted = true := by
  rw [sendStep, hv, hn]
  refine ensures_ask (.findDuplicate ctx.scope.contextId (sendSignature J ctx.toolName n)) ?_
  rcases (serve E (.findDuplicate ctx.scope.contextId (sendSignature J ctx.toolName n)) s).1 with
    _ | ⟨ar, header⟩
  · refine (sendOn_attempted hv).imp fun r s' l h => .inl ?_
    exact ⟨h.sent, h.closed, h.opened, h.completed, h.returned⟩
  · exact ensures_pure (.inr ⟨⟨rfl, rfl, rfl⟩, rfl, _, rfl, rfl, rfl⟩)

structure Tidied (oneShotStrict : Bool) (s' : Runtime ω) (l : List (PlanEvent ω)) : Prop where
  closed : ∀ id ∈ closes l, (∃ a ∈ sends l, a.sessionId = id ∧ a.Answered) ∨ oneShotStrict = true ∧ sends l = []
  last : ∀ a ∈ sends l, a.Completed → (sends l).getLast? = some a
  finished : oneShotStrict = true → ∀ id ∈ opens l,
    (∃ a ∈ sends l, a.sessionId = id ∧ a.Completed) ∨ (∀ a ∈ sends l, a.sessionId ≠ id) →
      id ∉ s'.handle.registry.sessions

theorem Quiet.tidied (h : Quiet l) (o : Bool) (s' : Runtime ω) : Tidied o s' l := by
  refine ⟨?_, ?_, fun _ => ?_⟩
  · rw [h.noClose]
    exact forall_mem_nil _
  · rw [h.noSend]
    exact forall_mem_nil _
  · rw [h.noOpen]
    exact forall_mem_nil _

/-- The attempts of a send, with what was done before and after them. -/
theorem Attempted.tidied (h : Attempted active r s₂ l') (hse : sends l = sends l')
    (ho : ∀ id ∈ opens l, id = active ∨ id ∈ opens l')
    (hc : ∀ id ∈ closes l, id ∈ closes l' ∨ ∃ vars, r = .ok vars ∧ vars.sessionId = some id)
    (hf : o = true → ∀ vars, r = .ok vars → vars.sendCompleted = true → ∀ id, vars.sessionId = some id →
      (s₂.handle.scope? id).isSome → id ∉ s'.handle.registry.sessions) :
    Tidied o s' l := by
  refine ⟨fun id hid => .inl ?_, fun a ha hd => ?_, fun hsh id hid hsn => ?_⟩
  · rw [hse]
    rcases hc id hid with hid | ⟨vars, hr, hid⟩
    · exact h.closed id hid
    · obtain ⟨a, ha, hs, han⟩ := h.returned vars hr
      exact ⟨a, ha, Option.some_injective _ (hs.symm.trans hid), han⟩
  · rw [hse] at ha ⊢
    exact (h.completed a ha hd).1
  · rw [hse] at hsn
    rcases hsn with ⟨a, ha, rfl, hd⟩ | hn
    · obtain ⟨-, vars, hr, hs, hco, hsc⟩ := h.completed a ha hd
      exact hf hsh vars hr hco _ hs hsc
    · -- what the plan opened it has sent to
      obtain ⟨a, ha, hs⟩ : ∃ a ∈ sends l', a.sessionId = id := by
        rcases ho id hid with rfl | hid
        · exact h.sent
        · exact h.opened id hid
      exact absurd hs (hn a ha)

variable {cu : ToolSessionId} {l₁ : List (PlanEvent ω)} {s₁ : Runtime ω}

theorem sendAndConclude_tidied (hno : normalizePlanInput J i = .ok n) (hr : Ready c s ctx vars cu s₁ l₁) :
    Ensures (serve E) (sendAndConclude J ctx vars i) s₁ fun _ s' l =>
      Tidied ctx.oneShotStrict s' (l₁ ++ l) := by
  rw [sendAndConclude, ensures_bind]
  refine (sendStep_attempted hno hr.session).imp ?_
  rintro r s₂ l₂ (ha | ⟨hq, hh, vars', rfl, hse, hco⟩)
  · have ho : ∀ id ∈ opens (l₁ ++ l₂), id = cu ∨ id ∈ opens l₂ := by
      intro id hid
      rw [opens_append] at hid
      exact (mem_append.mp hid).imp (hr.opened id) fun h => h
    cases r with
    | error e =>
      refine ha.tidied ?_ ho (fun id hid => .inl ?_) fun _ vars h => by cases h
      · rw [sends_append, hr.noSend, nil_append]
      · rwa [closes_append, hr.noClose] at hid
    | ok vars' =>
      refine (conclude_ensures ctx vars').imp ?_
      rintro r' s' l₃ ⟨-, hc⟩
      refine ha.tidied ?_ (fun id hid => ho id ?_) (fun id hid => ?_) ?_
      · rw [sends_append, sends_append, hr.noSend, hc.noSend, nil_append, append_nil]
      · rwa [opens_append, opens_append, hc.noOpen, append_nil, ← opens_append] at hid
      · rw [closes_append, closes_append, hr.noClose, nil_append] at hid
        exact (mem_append.mp hid).imp (fun h => h) fun h => ⟨vars', rfl, (hc.closes id h).1⟩
      · rintro hs _ ⟨⟩ hco id hid hsc
        exact hc.finished hs hco id hid hsc
  · refine (conclude_ensures ctx vars').imp ?_
    rintro r' s' l₃ ⟨-, hc⟩
    have hn : sends (l₁ ++ (l₂ ++ l₃)) = [] := by
      rw [sends_append, sends_append, hr.noSend, hq.noSend, hc.noSend, append_nil, append_nil]
    refine ⟨fun id hid => .inr ⟨?_, hn⟩, ?_, fun hs id hid _ => ?_⟩
    · rw [closes_append, closes_append, hr.noClose, hq.noClose] at hid
      exact (hc.closes id hid).2 hco
    · rw [hn]
      exact forall_mem_nil _
    · rw [opens_append, opens_append, hq.noOpen, hc.noOpen, append_nil, append_nil] at hid
      obtain rfl := hr.opened id hid
      obtain ⟨scope, hsc, -⟩ := hr.held
      refine hc.finished hs hco id hse ?_
      rw [hh, hsc]
      rfl

end

theorem plan_tidied (hs : c.step = .send input reason) (E : Surroundings ω) (J : JsonTexts) (s : Runtime ω) :
    Tidied (c.oneShotStrict s) (c.final E J s) (c.events E J s) := by
  suffices h : Ensures (serve E) (c.program J) s fun _ s' l => Tidied (c.oneShotStrict s) s' l from h
  refine send_plan_ensures hs (fun r s' l hq => hq.tidied _ s') fun ctx vars current s₁ l₁ normalized hr hn => ?_
  rw [← hr.oneShotStrict]
  exact sendAndConclude_tidied hn hr

/-- The sessions that a plan opened without an open in it. -/
def implicitOpens (step : ToolSessionOp) (l : List (PlanEvent ω)) : List ToolSessionId :=
  match step with
  | .open _ _ => []
  | _ => opens l

def LastSendCompleted (id : ToolSessionId) (l : List (PlanEvent ω)) : Prop :=
  ∃ a, (sends l).reverse.find? (fun a => a.sessionId = id) = some a ∧ a.Completed

variable {l : List (PlanEvent ω)}

theorem LastSendCompleted.answered (h : LastSendCompleted id l) : ∃ a ∈ sends l, a.sessionId = id ∧ a.Answered := by
  obtain ⟨a, hf, result, hr⟩ := h
  exact ⟨a, mem_reverse.mp (mem_of_find?_eq_some hf), by simpa using find?_some hf, _, hr⟩

theorem lastSendCompleted_of_last (hl : (sends l).getLast? = some a) (hd : a.Completed) :
    LastSendCompleted a.sessionId l := by
  refine ⟨a, ?_, hd⟩
  obtain ⟨e, hs⟩ := getLast?_eq_some_iff.mp hl
  rw [hs]
  simp

theorem step_of_implicitOpens (hid : id ∈ implicitOpens c.step (c.events E J s)) :
    id ∈ opens (c.events E J s) ∧ ∃ inp reason, c.step = .send inp reason := by
  by_cases hs : ∃ inp reason, c.step = .send inp reason
  · obtain ⟨inp, reason, hs⟩ := hs
    rw [hs] at hid
    exact ⟨hid, inp, reason, hs⟩
  · push Not at hs
    by_cases ho : ∃ i reason, c.step = .open i reason
    · obtain ⟨i, reason, ho⟩ := ho
      rw [ho] at hid
      cases hid
    · push Not at ho
      have hn := opens_of_not_send hs ho E J s
      unfold implicitOpens at hid
      split at hid
      · cases hid
      · rw [hn] at hid
        cases hid

/-- A session that a plan opened without an open in it is closed when the plan returns, or its last
send was done and the tool is not one-shot strict, exactly when a send on it came to an end, or
the tool is one-shot strict and nothing was sent on it. -/
theorem implicit_session_closed_iff (E : Surroundings ω) (J : JsonTexts) (c : PlanCall) (s : Runtime ω)
    (id : ToolSessionId) (hid : id ∈ implicitOpens c.step (c.events E J s)) :
    (id ∉ (c.final E J s).handle.registry.sessions ∨
        LastSendCompleted id (c.events E J s) ∧ c.oneShotStrict s = false) ↔
      (∃ a ∈ sends (c.events E J s), a.sessionId = id ∧ a.Answered) ∨
        c.oneShotStrict s = true ∧ ∀ a ∈ sends (c.events E J s), a.sessionId ≠ id := by
  obtain ⟨ho, input, reason, hst⟩ := step_of_implicitOpens hid
  have ht := plan_tidied hst E J s
  constructor
  · intro h
    by_contra hnot
    rw [not_or] at hnot
    obtain ⟨hu, hn⟩ := hnot
    -- nothing closes the session
    have hmem : id ∈ (c.final E J s).handle.registry.sessions := by
      refine mem_final_of_opened ho (fun hc => ?_) fun a ha hse ⟨f, hf⟩ =>
        hu ⟨a, ha, hse, _, hf⟩
      rcases ht.closed id hc with hans | ⟨hs, he⟩
      · exact hu hans
      · refine hn ⟨hs, ?_⟩
        rw [he]
        exact forall_mem_nil _
    rcases h with hm | ⟨hl, -⟩
    · exact hm hmem
    · exact hu hl.answered
  · rintro (⟨a, ha, rfl, outcome, han⟩ | ⟨hs, hn⟩)
    · cases outcome with
      | toolFailed f => exact .inl (notMem_final_of_toolFailed ha ⟨f, han⟩)
      | completed result =>
        have hd : a.Completed := ⟨result, han⟩
        cases hs : c.oneShotStrict s with
        | true => exact .inl (ht.finished hs _ ho (.inl ⟨a, ha, rfl, hd⟩))
        | false => exact .inr ⟨lastSendCompleted_of_last (ht.last a ha hd) hd, rfl⟩
    · exact .inl (ht.finished hs id ho (.inr hn))

def doneFirst : Runtime (List SendAnswers) := notifyRuntime .strict [steps (.done none)]

theorem done_send_closes_session :
    (⟨"s"⟩ : ToolSessionId) ∈ implicitOpens notifyCall.step (notifyCall.events scripted noJson doneFirst) ∧
      ((⟨"s"⟩ : ToolSessionId) ∉ (notifyCall.final scripted noJson doneFirst).handle.registry.sessions ∨
        LastSendCompleted ⟨"s"⟩ (notifyCall.events scripted noJson doneFirst) ∧
          notifyCall.oneShotStrict doneFirst = false) :=
  ⟨mem_singleton_self _, (implicit_session_closed_iff scripted noJson notifyCall doneFirst ⟨"s"⟩
    (mem_singleton_self _)).mpr (.inl ⟨_, mem_singleton_self _, rfl, _, rfl⟩)⟩

def refusedFirst : Runtime (List SendAnswers) := notifyRuntime .strict [refuses (.invalidArgument "bad input")]

/-- The plan returns the error of its send and leaves the session that it opened. -/
theorem refused_send_leaks_session :
    notifyCall.result scripted noJson refusedFirst = .error (.invalidArgument "bad input") ∧
      implicitOpens notifyCall.step (notifyCall.events scripted noJson refusedFirst) = [⟨"s"⟩] ∧
      (⟨"s"⟩ : ToolSessionId) ∈ (notifyCall.final scripted noJson refusedFirst).handle.registry.sessions ∧
      (sends (notifyCall.events scripted noJson refusedFirst)).map Sent.answer =
        [.error (.invalidArgument "bad input")] :=
  ⟨rfl, rfl, Finset.mem_insert_self _ _, rfl⟩

end AgentiumOs.Tools
