import AgentiumOs.Tools.PlanRun

/-! The retry of a send that failed. An error leaves the session, and the send is made again
on it. A failure that the tool reports has removed the session: only when the tool says that
the session was closed is another one opened, and its input is no longer known. -/

namespace AgentiumOs.Tools

open SessionHandle List AgentiumOs.Core Lib Lib.Program
open Lib.Json (Value)

variable {ω : Type}

/-- The failure of a send is one that the host retries. -/
def HostRetriable : Except BamlRtError SendOutcome → Prop
  | .ok (.completed _) => False
  | .ok (.toolFailed failure) => shouldHostRetry failure.classified
  | .error e => shouldHostRetryBamlError e

/-- What a plan returns for the answer to a send that is not retried. -/
def verdict (toolName : String) (a : Sent ω) : Except BamlRtError Value :=
  match a.answer with
  | .ok (.completed result) => .ok (sendDoneJson result)
  | .ok (.toolFailed failure) =>
      match failure.classified.disposition with
      | .fatal => .error (toolFailureToBamlToolExecutionError failure)
      | _ => .ok (planSendToolErrorValue toolName a.sessionId failure)
  | .error e => .error e

def afterFirstSend : List (PlanEvent ω) → List (PlanEvent ω)
  | [] => []
  | event :: l => if (sent? event).isSome then l else afterFirstSend l

/-- The input with which the session of a send was opened. -/
def Sent.openInput? (a : Sent ω) : Option Value := a.before.handle.openInputForSession a.sessionId

/-- A send is made again on a live session of the tool, opened with the input of the first. -/
structure Sent.MadeAgain (toolName : String) (first again : Sent ω) : Prop where
  input : again.input = first.input
  live : again.sessionId ∈ again.before.handle.registry.sessions
  tool : ∃ scope, again.before.handle.scope? again.sessionId = some scope ∧ scope.toolName = toolName
  openInput : again.openInput? = first.openInput?

/-- After the first send there is one more, and what the plan returns is what it returns for that. -/
def Retried (toolName : String) (first : Sent ω) (result : Except BamlRtError Value) (l : List (PlanEvent ω)) :
    Prop :=
  ∃ again, sends l = [again] ∧ first.MadeAgain toolName again ∧ result = verdict toolName again

/-- The first send ended with an error, or the tool said that its session, opened without input,
was closed, and another one was opened. -/
def Recoverable (first : Sent ω) (l : List (PlanEvent ω)) : Prop :=
  (∃ e, first.answer = .error e) ∨
    ∃ failure, first.answer = .ok (.toolFailed failure) ∧
      failure.classified.code = "mcp_logical_session_closed" ∧ first.openInput? = some emptyOpenInput ∧ opens l ≠ []

variable {l : List (PlanEvent ω)}

theorem afterFirstSend_append (h : sends l = []) (l' : List (PlanEvent ω)) :
    afterFirstSend (l ++ l') = afterFirstSend l' := by
  induction l with
  | nil => rfl
  | cons e l ih =>
    cases hs : sent? e with
    | none =>
      rw [sends, filterMap_cons_none hs] at h
      rw [cons_append, afterFirstSend, hs]
      exact ih h
    | some a =>
      rw [sends, filterMap_cons_some hs] at h
      cases h

theorem afterFirstSend_append_right (h : (sends l).head? = some first) (l' : List (PlanEvent ω)) :
    afterFirstSend (l ++ l') = afterFirstSend l ++ l' := by
  induction l with
  | nil => cases h
  | cons e l ih =>
    cases hs : sent? e with
    | none =>
      rw [sends, filterMap_cons_none hs] at h
      rw [cons_append, afterFirstSend, afterFirstSend, hs]
      exact ih h
    | some a =>
      rw [cons_append, afterFirstSend, afterFirstSend, hs]
      rfl

section

variable {E : Surroundings ω} {J : JsonTexts} {s : Runtime ω} {ctx : PlanContext} {vars : PlanVars} {i : Value}

/-- A send that is not retried leaves its verdict as the output of the plan. -/
theorem settleSend_zero_ensures (a : Sent ω) : Ensures (serve E) (settleSend ctx i 0 vars a.sessionId a.answer) s
    fun r _ l => r.map PlanVars.lastOutput = (verdict ctx.toolName a).map some ∧ l = [] := by
  unfold verdict
  rcases a.answer with e | ⟨result⟩ | ⟨f⟩
  · exact ⟨rfl, rfl⟩
  · exact ⟨rfl, rfl⟩
  · rw [settleSend, reportFailure]
    dsimp only
    cases f.classified.disposition with
    | fatal => exact ⟨rfl, rfl⟩
    | _ => exact ⟨rfl, rfl⟩

theorem resend_ensures (vars : PlanVars) (act : ToolSessionId) : Ensures (serve E)
      (do let outcome : Except BamlRtError SendOutcome ← ask (.send act i)
          settleSend ctx i 0 vars act outcome) s fun r _ l =>
      ∃ again : Sent ω, again.before = s ∧ again.sessionId = act ∧ again.input = i ∧ sends l = [again] ∧
        opens l = [] ∧ r.map PlanVars.lastOutput = (verdict ctx.toolName again).map some := by
  refine ensures_ask (.send act i) ?_
  refine (settleSend_zero_ensures ⟨s, act, i, _⟩).imp ?_
  rintro r s' l ⟨hr, rfl⟩
  exact ⟨_, rfl, rfl, rfl, rfl, rfl, hr⟩

variable {ac : ToolSessionId} {sc : ToolSessionScope} {answer : Except BamlRtError SendOutcome}
  {han : SessionHandle} {w : ω}

/-- What follows a first send that failed with a retriable failure. -/
structure Settled (toolName : String) (first : Sent ω) (r : Except BamlRtError PlanVars) (l : List (PlanEvent ω)) :
    Prop where
  madeAgain : (∃ again, sends l = [again] ∧ first.MadeAgain toolName again) ↔ Recoverable first l
  output : ∀ again, sends l = [again] → r.map PlanVars.lastOutput = (verdict toolName again).map some

/-- What is done after that, if it is no send and no open, does not matter. -/
theorem Settled.retried_iff (h : Settled t f r l) (hs : sends l' = []) (ho : opens l' = [])
    (hr : ∀ v, r.map PlanVars.lastOutput = v.map some → re = v) :
    Retried t f re (l ++ l') ↔ Recoverable f (l ++ l') := by
  unfold Retried Recoverable
  rw [sends_append, opens_append, hs, ho, append_nil, append_nil]
  refine Iff.trans ⟨fun ⟨again, ha, hm, _⟩ => ⟨again, ha, hm⟩, fun ⟨again, ha, hm⟩ => ?_⟩ h.madeAgain
  exact ⟨again, ha, hm, hr _ (h.output again ha)⟩

/-- A retriable failure is settled by one more send, on the session or on another one. -/
theorem settleSend_one_ensures (hsc : s.handle.scope? ac = some sc) (ht : sc.toolName = ctx.toolName)
    (hs : s.handle.Sends ac answer han) (hre : HostRetriable answer) :
    Ensures (serve E) (settleSend ctx i 1 vars ac answer) ⟨han, w⟩ fun r _ l =>
      Settled ctx.toolName (⟨s, ac, i, answer⟩ : Sent ω) r l := by
  cases hs with
  | completed result hid => exact hre.elim
  | notFound hid =>
    rw [hid] at hsc
    cases hsc
  | error e hid =>
    have hrt : shouldHostRetryBamlError e = true := hre
    rw [settleSend, if_pos hrt]
    refine (resend_ensures vars ac).imp ?_
    rintro r s' l ⟨again, hb, ha, hi, hs, hop, hr⟩
    refine ⟨iff_of_true ⟨again, hs, hi, ?_, ?_, ?_⟩ (.inl ⟨e, rfl⟩), fun other ho => ?_⟩
    · rw [hb, ha]
      exact mem_sessions_of_scope hid
    · rw [hb, ha]
      exact ⟨sc, hsc, ht⟩
    · rw [Sent.openInput?, hb, ha, Sent.openInput?]
    · rwa [← singleton_injective (hs.symm.trans ho)]
  | toolFailed failure hid =>
    have hrt : shouldHostRetry failure.classified = true := hre
    rw [settleSend, if_pos hrt]
    split
    · rename_i hc
      rw [ensures_bind]
      refine (reopen_ensures ctx scope?_remove_self).imp ?_
      rintro _ s₂ l ⟨hn, -, ⟨e, rfl, hop⟩ | ⟨fresh, rfl, hop, hh⟩⟩
      · have hnv : ∀ again, sends l ≠ [again] := fun again h => by cases hn.symm.trans h
        refine ⟨iff_of_false (fun ⟨again, h, _⟩ => hnv again h) ?_, fun again h => absurd h (hnv again)⟩
        rintro (⟨e, he⟩ | ⟨-, -, -, -, hne⟩)
        · cases he
        · exact hne hop
      · refine (resend_ensures _ fresh).imp ?_
        rintro r s' l' ⟨again, hb, ha, hi, hs, -, hr⟩
        have hl : sends (l ++ l') = [again] := by rw [sends_append, hn, hs, nil_append]
        have hf : again.before.handle.scope? again.sessionId = some ⟨ctx.toolName, ctx.scope, emptyOpenInput⟩ := by
          rw [hb, ha, hh, scope?_add, if_pos rfl]
        have hope : again.openInput? = some emptyOpenInput := by
          rw [Sent.openInput?, openInputForSession, hf]
          rfl
        refine ⟨⟨?_, ?_⟩, fun other ho => ?_⟩
        · rintro ⟨other, ho, hm⟩
          obtain rfl : again = other := singleton_injective (hl.symm.trans ho)
          refine .inr ⟨failure, rfl, hc, hm.openInput.symm.trans hope, ?_⟩
          rw [opens_append, hop]
          exact cons_ne_nil _ _
        · rintro (⟨e, he⟩ | ⟨-, -, -, hem, -⟩)
          · cases he
          · exact ⟨again, hl, hi, mem_sessions_of_scope (Option.isSome_of_eq_some hf),
              ⟨_, hf, rfl⟩, hope.trans hem.symm⟩
        · rwa [← singleton_injective (hl.symm.trans ho)]
    · rename_i hc
      refine (resend_ensures vars ac).imp ?_
      rintro r s' l ⟨again, hb, ha, hi, hs, hop, hr⟩
      refine ⟨iff_of_false ?_ ?_, fun other ho => ?_⟩
      · rintro ⟨other, ho, hm⟩
        obtain rfl : again = other := singleton_injective (hs.symm.trans ho)
        obtain ⟨sc, hsc, -⟩ := hm.tool
        rw [hb, ha, scope?_remove_self] at hsc
        cases hsc
      · rintro (⟨e, he⟩ | ⟨failure', hfa, hc', -⟩)
        · cases he
        · cases hfa
          exact hc hc'
      · rwa [← singleton_injective (hs.symm.trans ho)]

theorem settleFirst_of_retriable (hr : HostRetriable answer) :
    settleFirst ctx vars ac i answer = settleSend ctx i maxHostRetries vars ac answer := by
  unfold settleFirst
  split
  · cases hr
  · rfl

/-- What follows the first send, if that fails with a retriable failure. -/
theorem sendOn_ensures (hsc : s.handle.scope? ac = some sc) (ht : sc.toolName = ctx.toolName) :
    Ensures (serve E) (sendOn ctx vars ac i) s fun r _ l => ∀ f, (sends l).head? = some f →
      HostRetriable f.answer → Settled ctx.toolName f r (afterFirstSend l) := by
  have hs := serve_send (E := E) (s := s) ac i
  refine ensures_ask (.send ac i) ?_
  generalize serve E (.send ac i) s = se at hs
  obtain ⟨answer, han, w⟩ := se
  by_cases hr : HostRetriable answer
  · refine Ensures.imp (Q := fun r _ l => Settled ctx.toolName ⟨s, ac, i, answer⟩ r l) ?_ ?_
    · rw [settleFirst_of_retriable hr]
      exact settleSend_one_ensures hsc ht hs hr
    · rintro r s' l hse f ⟨⟩ -
      exact hse
  · rintro f ⟨⟩ h
    exact absurd h hr

theorem sendStep_ensures (hn : normalizePlanInput J i = .ok n) (hs : vars.sessionId = some ac)
    (hsc : s.handle.scope? ac = some sc) (ht : sc.toolName = ctx.toolName) :
    Ensures (serve E) (sendStep J ctx vars i) s fun r _ l => ∀ f, (sends l).head? = some f →
      HostRetriable f.answer → Settled ctx.toolName f r (afterFirstSend l) := by
  rw [sendStep, hs, hn]
  refine ensures_ask (.findDuplicate ctx.scope.contextId (sendSignature J ctx.toolName n)) ?_
  rcases (serve E (.findDuplicate ctx.scope.contextId (sendSignature J ctx.toolName n)) s).1 with
    _ | ⟨ar, header⟩
  · exact sendOn_ensures hsc ht
  · refine ensures_pure fun f hf => ?_
    cases hf

theorem sendAndConclude_ensures (hn : normalizePlanInput J i = .ok n)
    (hse : vars.sessionId = some ac) (hsc : s.handle.scope? ac = some sc)
    (ht : sc.toolName = ctx.toolName) :
    Ensures (serve E) (sendAndConclude J ctx vars i) s fun r _ l => ∀ f, (sends l).head? = some f →
      HostRetriable f.answer →
        (Retried ctx.toolName f r (afterFirstSend l) ↔ Recoverable f (afterFirstSend l)) := by
  rw [sendAndConclude, ensures_bind]
  refine (sendStep_ensures hn hse hsc ht).imp ?_
  rintro (e | vars) s₁ l hs
  · intro f hf hr
    rw [← append_nil (afterFirstSend l)]
    refine (hs f hf hr).retried_iff rfl rfl ?_
    rintro (e' | value) heq
    · cases heq
      rfl
    · cases heq
  · refine (conclude_ensures ctx vars).imp ?_
    rintro r s' l' ⟨hv, hc⟩ f hf hr
    rw [sends_append, hc.noSend, append_nil] at hf
    rw [afterFirstSend_append_right hf]
    refine (hs f hf hr).retried_iff hc.noSend hc.noOpen ?_
    rintro (e' | value) heq
    · cases heq
    · exact hv value (Except.ok.inj heq)

end

/-- When the first send of a plan fails and the failure is one that the host retries, it is made
again exactly once, on a live session of the tool opened with the same input, and the plan
returns what it returns for that, exactly when the failure was an error, or the closing of a
session that was opened without input and could be opened again. -/
theorem host_retry_iff (E : Surroundings ω) (J : JsonTexts) (c : PlanCall) (s : Runtime ω) (first : Sent ω)
    (hfirst : (sends (c.events E J s)).head? = some first) (hretriable : HostRetriable first.answer) :
    Retried c.tool.display first (c.result E J s) (afterFirstSend (c.events E J s)) ↔
      Recoverable first (afterFirstSend (c.events E J s)) := by
  by_cases hs : ∃ input re, c.step = .send input re
  · obtain ⟨input, re, hs⟩ := hs
    suffices h : Ensures (serve E) (c.program J) s fun r _ l => (sends l).head? = some first →
        (Retried c.tool.display first r (afterFirstSend l) ↔ Recoverable first (afterFirstSend l)) from h hfirst
    refine send_plan_ensures hs (fun r s' l hq hfirst => ?_) fun ctx vars current s₁ l₁ normalized hr hn => ?_
    · rw [hq.noSend] at hfirst
      cases hfirst
    · obtain ⟨scope, hsc, ht⟩ := hr.held
      refine (sendAndConclude_ensures hn hr.session hsc ht).imp fun r s' l h hfirst => ?_
      rw [sends_append, hr.noSend] at hfirst
      rw [afterFirstSend_append hr.noSend, ← hr.toolName]
      exact h first hfirst hretriable
  · push Not at hs
    rw [sends_of_not_send hs] at hfirst
    cases hfirst

def ioErrorFirst : Runtime (List SendAnswers) :=
  notifyRuntime .strict [refuses (.io "connection reset"), steps (.done none)]

theorem io_error_retried : ∃ first, (sends (notifyCall.events scripted noJson ioErrorFirst)).head? = some first ∧
    HostRetriable first.answer ∧ Retried notifyCall.tool.display first (notifyCall.result scripted noJson ioErrorFirst)
      (afterFirstSend (notifyCall.events scripted noJson ioErrorFirst)) :=
  ⟨_, rfl, rfl, (host_retry_iff scripted noJson notifyCall ioErrorFirst _ rfl rfl).mpr (.inl ⟨_, rfl⟩)⟩

def rateLimited : ToolFailure :=
  ⟨.rateLimited, "slow down", true, ⟨"rate_limited", .hostRetriable, "slow down", none, some 1000⟩⟩

def rateLimitedFirst : Runtime (List SendAnswers) :=
  notifyRuntime .strict [steps (.error rateLimited), steps (.done none)]

/-- The tool would answer the retry, but the first send has removed the session. -/
theorem rate_limited_retry_not_found : ∃ first,
    (sends (notifyCall.events scripted noJson rateLimitedFirst)).head? = some first ∧
      first.answer = .ok (.toolFailed rateLimited) ∧ HostRetriable first.answer ∧
      notifyCall.result scripted noJson rateLimitedFirst =
        .error (.sessionLifecycle (.toolSessionNotFound first.sessionId.text)) :=
  ⟨_, rfl, rfl, rfl, rfl⟩

end AgentiumOs.Tools
