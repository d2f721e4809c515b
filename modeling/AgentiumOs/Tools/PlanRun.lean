import AgentiumOs.Tools.SessionPlan

/-! The executor in its surroundings. The interceptors, the tools, the archive and the
random ids are whatever they are; they answer from a world they share, and an id is new
each time. -/

namespace AgentiumOs.Tools

open List AgentiumOs.Core Lib Lib.Program
open Lib.Json (Value)

structure Surroundings (ω : Type) where
  freshId : Finset ToolSessionId → ω → ToolSessionId
  freshId_notMem : ∀ used w, freshId used w ∉ used
  /-- The order in which the map of scopes is gone through. -/
  order : List ToolSessionId → ω → List ToolSessionId
  order_perm : ∀ ids w, (order ids w).Perm ids
  onOpen : RuntimeScope → String → Value → ω → OpenAnswers × ω
  onSend : ToolSessionId → Value → ω → SendAnswers × ω
  onFinish : ToolSessionId → ω → Except ToolSessionError Unit × ω
  onAbort : ToolSessionId → Option String → ω → Except ToolSessionError Unit × ω
  onFindDuplicate : String → String → ω → Option (ShortRef × String) × ω
  onReadArchive : String → ArchiveRead → ω → Except BamlRtError ArchivePage × ω

structure Runtime (ω : Type) where
  handle : SessionHandle
  world : ω

variable {ω : Type}

def serve (E : Surroundings ω) : (op : PlanOp) → Runtime ω → op.Answer × Runtime ω
  | .metadata toolName, s => (s.handle.registry.getMetadata toolName, s)
  | .findSession scope toolName, s =>
      (s.handle.findExistingSessionForScopeAndTool (E.order (s.handle.scopes.rows.map Prod.fst) s.world) scope
        toolName, s)
  | .findDuplicate contextId signature, s =>
      let (duplicate, world) := E.onFindDuplicate contextId signature s.world
      (duplicate, ⟨s.handle, world⟩)
  | .openInput sessionId, s => (s.handle.openInputForSession sessionId, s)
  | .openSession scope toolName input, s =>
      let (answers, world) := E.onOpen scope toolName input s.world
      let (opened, handle) := s.handle.openToolSession scope toolName input (E.freshId s.handle.issued s.world) answers
      (opened, ⟨handle, world⟩)
  | .send sessionId input, s =>
      let (answers, world) := E.onSend sessionId input s.world
      let (outcome, handle) := s.handle.toolSessionSendBlocking sessionId answers
      (outcome, ⟨handle, world⟩)
  | .finish sessionId, s =>
      let (answer, world) := E.onFinish sessionId s.world
      let (finished, handle) := s.handle.toolSessionFinish sessionId answer
      (finished, ⟨handle, world⟩)
  | .abort sessionId reason, s =>
      let (answer, world) := E.onAbort sessionId reason s.world
      let (aborted, handle) := s.handle.toolSessionAbort sessionId answer
      (aborted, ⟨handle, world⟩)
  | .readArchive contextId read, s =>
      let (page, world) := E.onReadArchive contextId read s.world
      (page, ⟨s.handle, world⟩)

abbrev PlanEvent (ω : Type) := Event (Runtime ω) PlanOp.Answer

structure Sent (ω : Type) where
  before : Runtime ω
  sessionId : ToolSessionId
  input : Value
  answer : Except BamlRtError SendOutcome

def sent? : PlanEvent ω → Option (Sent ω)
  | ⟨before, .send sessionId input, answer⟩ => some ⟨before, sessionId, input, answer⟩
  | _ => none

def opened? : PlanEvent ω → Option ToolSessionId
  | ⟨_, .openSession _ _ _, answer⟩ => Except.toOption answer
  | _ => none

/-- The session that an operation was to finish or abort. -/
def closed? : PlanEvent ω → Option ToolSessionId
  | ⟨_, .finish sessionId, _⟩ | ⟨_, .abort sessionId _, _⟩ => some sessionId
  | _ => none

def sends (l : List (PlanEvent ω)) : List (Sent ω) := l.filterMap sent?

def opens (l : List (PlanEvent ω)) : List ToolSessionId := l.filterMap opened?

def closes (l : List (PlanEvent ω)) : List ToolSessionId := l.filterMap closed?

namespace Sent

def Completed (a : Sent ω) : Prop := ∃ result, a.answer = .ok (.completed result)

def ToolFailed (a : Sent ω) : Prop := ∃ failure, a.answer = .ok (.toolFailed failure)

/-- The send came to an end: it was done, or the tool reported a failure. -/
def Answered (a : Sent ω) : Prop := ∃ outcome, a.answer = .ok outcome

end Sent

variable (l : List (PlanEvent ω)) (l' : List (PlanEvent ω))

@[simp] theorem sends_append : sends (l ++ l') = sends l ++ sends l' :=
  filterMap_append

@[simp] theorem opens_append : opens (l ++ l') = opens l ++ opens l' :=
  filterMap_append

@[simp] theorem closes_append : closes (l ++ l') = closes l ++ closes l' :=
  filterMap_append

structure PlanCall where
  scope : RuntimeScope
  tool : ToolName
  step : ToolSessionOp
  sourceBamlFunction : Option String

namespace PlanCall

def program (J : JsonTexts) (c : PlanCall) : PlanM Value :=
  executeToolSessionPlan J c.scope c.tool c.step c.sourceBamlFunction

def result (E : Surroundings ω) (J : JsonTexts) (c : PlanCall) (s : Runtime ω) : Except BamlRtError Value :=
  (perform (serve E) (c.program J) s).1

def final (E : Surroundings ω) (J : JsonTexts) (c : PlanCall) (s : Runtime ω) : Runtime ω :=
  (perform (serve E) (c.program J) s).2

def events (E : Surroundings ω) (J : JsonTexts) (c : PlanCall) (s : Runtime ω) : List (PlanEvent ω) :=
  trace (serve E) (c.program J).run s

/-- The tool is one shot with a strict lifecycle. -/
def oneShotStrict (c : PlanCall) (s : Runtime ω) : Bool :=
  (s.handle.registry.getMetadata c.tool.display).any fun m => m.OneShotStrict

end PlanCall

section

variable {E : Surroundings ω} {J : JsonTexts} {s s₁ : Runtime ω}

theorem serve_send (id : ToolSessionId) (inp : Value) :
    s.handle.Sends id (serve E (.send id inp) s).1 (serve E (.send id inp) s).2.handle :=
  s.handle.sendBlocking_sends id _

variable (scope : RuntimeScope) (toolName : String)

theorem serve_openSession (inp : Value) :
    (∃ id w, id ∉ s.handle.issued ∧ serve E (.openSession scope toolName inp) s =
        (.ok id, ⟨s.handle.add id ⟨toolName, scope, inp⟩, w⟩)) ∨
      ∃ e w, serve E (.openSession scope toolName inp) s = (.error e, ⟨s.handle, w⟩) := by
  have ho := s.handle.openToolSession_opens scope toolName inp (E.freshId s.handle.issued s.world)
    (E.onOpen scope toolName inp s.world).1
  have hs : serve E (.openSession scope toolName inp) s = (
      (s.handle.openToolSession scope toolName inp (E.freshId s.handle.issued s.world)
        (E.onOpen scope toolName inp s.world).1).1,
      ⟨(s.handle.openToolSession scope toolName inp (E.freshId s.handle.issued s.world)
        (E.onOpen scope toolName inp s.world).1).2, (E.onOpen scope toolName inp s.world).2⟩) := rfl
  rw [hs]
  generalize s.handle.openToolSession scope toolName inp (E.freshId s.handle.issued s.world)
    (E.onOpen scope toolName inp s.world).1 = opened at ho
  obtain ⟨answer, handle⟩ := opened
  cases ho with
  | opened => exact .inl ⟨_, _, E.freshId_notMem _ _, rfl⟩
  | error e => exact .inr ⟨e, _, rfl⟩

theorem ensures_ask {α : Type} (op : PlanOp) {n : op.Answer → PlanM α}
    {Q : Except BamlRtError α → Runtime ω → List (PlanEvent ω) → Prop}
    (h : Ensures (serve E) (n (serve E op s).1) (serve E op s).2 fun r s' l =>
      Q r s' (⟨s, op, (serve E op s).1⟩ :: l)) :
    Ensures (serve E) (ask op >>= n) s Q := h

variable {ctx : PlanContext}

theorem executeSteps_send_ensures
    (h : Ensures (serve E) (sendStep J ctx vars input) s fun r s' l => Q (r.map .next) s' l) :
    Ensures (serve E) (executeSteps J ctx vars [.send input reason]) s Q := by
  rw [executeSteps, ensures_bind, executeStep, ensures_bind]
  refine h.imp fun r s' l h => ?_
  cases r with
  | error e => exact h
  | ok vars =>
    change Q (.ok (.next vars)) s' (l ++ [] ++ [])
    rw [append_nil, append_nil]
    exact h

/-- A send on a session: the step and the end of the plan. -/
def sendAndConclude (J : JsonTexts) (ctx : PlanContext) (vars : PlanVars) (input : Value) : PlanM Value := do
  conclude ctx (← sendStep J ctx vars input)

theorem executeFrom_send_ensures {id : ToolSessionId} {inp : Value} {rea : Option String}
    {Q : Except BamlRtError Value → Runtime ω → List (PlanEvent ω) → Prop} (ha : ctx.autoOpened = false)
    (h : Ensures (serve E) (sendAndConclude J ctx ⟨some id, none, false⟩ inp) s Q) :
    Ensures (serve E) (executeFrom J ctx (some id) (.send inp rea)) s Q := by
  rw [sendAndConclude, ensures_bind] at h
  rw [executeFrom, ha, ensures_bind]
  refine executeSteps_send_ensures (h.imp fun r s' l h => ?_)
  cases r with
  | error e | ok vars => exact h

/-- Without a session the plan opens one, or ends with the failure to open it. -/
theorem executeFrom_autoOpen_ensures {inp : Value} {rea : Option String}
    {Q : Except BamlRtError Value → Runtime ω → List (PlanEvent ω) → Prop} (ha : ctx.autoOpened = true)
    (hf : ∀ e s', Q (.ok (sendUnavailableResult ctx.toolName e.display)) s'
      [⟨s, .openSession ctx.scope ctx.toolName emptyOpenInput, .error e⟩])
    (ho : ∀ id w, id ∉ s.handle.issued →
      Ensures (serve E) (sendAndConclude J ctx ⟨some id, some (openJson id ctx.toolName), false⟩ inp)
      ⟨s.handle.add id ⟨ctx.toolName, ctx.scope, emptyOpenInput⟩, w⟩ fun r s' l =>
      Q r s' (⟨s, .openSession ctx.scope ctx.toolName emptyOpenInput, .ok id⟩ :: l)) :
    Ensures (serve E) (executeFrom J ctx none (.send inp rea)) s Q := by
  rw [executeFrom, ha, ensures_bind]
  simp only [if_true]
  rw [executeSteps, ensures_bind]
  refine ensures_ask (.openSession ctx.scope ctx.toolName emptyOpenInput) ?_
  rcases serve_openSession (E := E) (s := s) ctx.scope ctx.toolName emptyOpenInput with
    ⟨id, w, hid, hs⟩ | ⟨e, w, hs⟩
  · rw [hs]
    have h := ho id w hid
    rw [sendAndConclude, ensures_bind] at h
    refine ensures_pure (executeSteps_send_ensures (h.imp fun r s' l h => ?_))
    cases r with
    | error e => exact h
    | ok vars => exact h
  · rw [hs]
    dsimp only
    rw [if_pos ha]
    exact hf e _

/-- The plan has come to its send: what it did so far is to open the session, if it did, and the
session is one of the tool. -/
structure Ready (c : PlanCall) (s : Runtime ω) (ctx : PlanContext) (vars : PlanVars) (current : ToolSessionId)
    (s₁ : Runtime ω) (l : List (PlanEvent ω)) : Prop where
  toolName : ctx.toolName = c.tool.display
  oneShotStrict : ctx.oneShotStrict = c.oneShotStrict s
  session : vars.sessionId = some current
  held : ∃ scope, s₁.handle.scope? current = some scope ∧ scope.toolName = ctx.toolName
  noSend : sends l = []
  noClose : closes l = []
  opened : ∀ id ∈ opens l, id = current

/-- Nothing that a run did was a send, an open or a close. -/
structure Quiet (l : List (PlanEvent ω)) : Prop where
  noSend : sends l = []
  noOpen : opens l = []
  noClose : closes l = []

theorem Quiet.append {l l' : List (PlanEvent ω)} (h : Quiet l) (h' : Quiet l') : Quiet (l ++ l') where
  noSend := by rw [sends_append, h.noSend, h'.noSend, append_nil]
  noOpen := by rw [opens_append, h.noOpen, h'.noOpen, append_nil]
  noClose := by rw [closes_append, h.noClose, h'.noClose, append_nil]

theorem initialSession_ensures (so : Option String) (input : Value) (rea : Option String) :
    Ensures (serve E) (initialSession scope toolName so (.send input rea)) s fun r s' l =>
      s' = s ∧ Quiet l ∧ ∃ sessionId, r = .ok sessionId ∧
        ∀ id, sessionId = some id → ∃ held, s.handle.scope? id = some held ∧ held.toolName = toolName := by
  unfold initialSession
  cases (so.map fun n => Text.endsWith n "__entry").getD false with
  | true =>
    refine ensures_pure ⟨rfl, ⟨rfl, rfl, rfl⟩, none, rfl, ?_⟩
    rintro id ⟨⟩
  | false =>
    refine ⟨rfl, ⟨rfl, rfl, rfl⟩, _, rfl, fun id hid => ?_⟩
    have hm := find?_some hid
    obtain ⟨held, hh, hm⟩ := (Option.any_eq_true _ _).mp hm
    refine ⟨held, hh, ?_⟩
    simp only [SessionHandle.matchesScope, Bool.and_eq_true, decide_eq_true_eq] at hm
    exact hm.1.1

theorem firstDuplicate_ensures (inp : Value) (rea : Option String) :
    Ensures (serve E) (firstDuplicate J scope toolName (.send inp rea)) s fun r s' l =>
      s'.handle = s.handle ∧ Quiet l ∧
        ((∃ e, r = .error e) ∨ ∃ d, r = .ok d ∧ ∃ normalized, normalizePlanInput J inp = .ok normalized) := by
  rw [firstDuplicate]
  cases hn : normalizePlanInput J inp with
  | error e => exact ⟨rfl, ⟨rfl, rfl, rfl⟩, .inl ⟨e, rfl⟩⟩
  | ok normalized => exact ⟨rfl, ⟨rfl, rfl, rfl⟩, .inr ⟨_, rfl, normalized, rfl⟩⟩

/-- The session is gone already: it is not finished, and its input is not known. -/
theorem reopen_ensures (ctx : PlanContext) {st : ToolSessionId} (hst : s.handle.scope? st = none) :
    Ensures (serve E) (reopenLogicalSessionAfterStaleClose ctx st) s fun r s' l =>
      sends l = [] ∧ closes l = [st] ∧ ((∃ e, r = .error e ∧ opens l = []) ∨ ∃ fresh, r = .ok fresh ∧
        opens l = [fresh] ∧ s'.handle = s.handle.add fresh ⟨ctx.toolName, ctx.scope, emptyOpenInput⟩) := by
  have hk : serve E (.openInput st) s = (none, s) := by
    change ((s.handle.scope? st).map _, s) = (none, s)
    rw [hst]
    rfl
  refine ensures_ask (.openInput st) ?_
  rw [hk]
  refine ensures_ask (.finish st) ?_
  have hh : (serve E (.finish st) s).2.handle = s.handle := SessionHandle.finish_of_none hst _
  refine ensures_ask (.openSession ctx.scope ctx.toolName emptyOpenInput) ?_
  generalize (serve E (.finish st) s).2 = s₁ at hh
  rw [← hh]
  rcases serve_openSession (E := E) (s := s₁) ctx.scope ctx.toolName emptyOpenInput with
    ⟨fresh, w, -, hs⟩ | ⟨e, w, hs⟩
  · rw [hs]
    exact ⟨rfl, rfl, .inr ⟨fresh, rfl, rfl, rfl⟩⟩
  · rw [hs]
    exact ⟨rfl, rfl, .inl ⟨e, rfl, rfl⟩⟩

/-- What the end of a plan does: it sends nothing and opens nothing, closes at most the session of
the plan, and finishes it after a send that was done on a one-shot strict tool. -/
structure CleanedUp (ctx : PlanContext) (vars : PlanVars) (s s' : Runtime ω) (l : List (PlanEvent ω)) : Prop where
  noSend : sends l = []
  noOpen : opens l = []
  closes : ∀ id ∈ closes l, vars.sessionId = some id ∧ (vars.sendCompleted = true → ctx.oneShotStrict = true)
  finished : ctx.oneShotStrict = true → vars.sendCompleted = true → ∀ id, vars.sessionId = some id →
    (s.handle.scope? id).isSome → id ∉ s'.handle.registry.sessions

theorem cleanUp_ensures (ctx : PlanContext) (vars : PlanVars) :
    Ensures (serve E) (cleanUp ctx vars) s fun r s' l => r = .ok () ∧ CleanedUp ctx vars s s' l := by
  obtain ⟨sessionId, lo, sc⟩ := vars
  cases sessionId with
  | none => exact ⟨rfl, rfl, rfl, forall_mem_nil _, fun _ _ id hid => by cases hid⟩
  | some session =>
    obtain ⟨scope, toolName, oneShotStrict, ao⟩ := ctx
    have hf : ∀ id, some session = some id → (s.handle.scope? id).isSome →
        id ∉ (serve E (.finish session) s).2.handle.registry.sessions := by
      rintro id ⟨⟩ hs
      have hh : (serve E (.finish session) s).2.handle = s.handle.remove session :=
        SessionHandle.finish_of_scope hs _
      rw [hh, SessionHandle.mem_sessions_remove]
      exact fun h => h.1 rfl
    have hc : ∀ (sh completed : Bool), (completed = true → sh = true) → ∀ id ∈ [session],
        some session = some id ∧ (completed = true → sh = true) :=
      fun _ _ h id hid => ⟨congrArg some (mem_singleton.mp hid).symm, h⟩
    cases sc with
    | true =>
      cases oneShotStrict with
      | true =>
        have he : CleanedUp ⟨scope, toolName, true, ao⟩ ⟨some session, lo, true⟩ s
            (serve E (.finish session) s).2 [⟨s, .finish session, (serve E (.finish session) s).1⟩] :=
          ⟨rfl, rfl, hc true true fun _ => rfl, fun _ _ => hf⟩
        cases ao with
        | true | false => exact ⟨rfl, he⟩
      | false =>
        cases ao with
        | true | false => exact ⟨rfl, rfl, rfl, forall_mem_nil _, fun h => by cases h⟩
    | false =>
      cases ao with
      | true => exact ⟨rfl, rfl, rfl, hc oneShotStrict false (fun h => by cases h), fun _ h => by cases h⟩
      | false =>
        cases oneShotStrict with
        | true | false => exact ⟨rfl, rfl, rfl, forall_mem_nil _, fun _ h => by cases h⟩

theorem conclude_ensures (ctx : PlanContext) (vars : PlanVars) :
    Ensures (serve E) (conclude ctx vars) s fun r s' l =>
      (∀ v, vars.lastOutput = some v → r = .ok v) ∧ CleanedUp ctx vars s s' l := by
  rw [conclude, ensures_bind]
  refine (cleanUp_ensures ctx vars).imp ?_
  rintro _ s' l ⟨rfl, hc⟩
  rw [← append_nil l] at hc
  cases vars.lastOutput with
  | none => exact ensures_throw ⟨fun v h => (by cases h), hc⟩
  | some output =>
    refine ensures_pure ⟨fun v h => ?_, hc⟩
    cases h
    rfl

variable {c : PlanCall} {i : Value} {re : Option String}
  {Q : Except BamlRtError Value → Runtime ω → List (PlanEvent ω) → Prop} {si : Option ToolSessionId}

theorem autoOpened_of_opening {toolName : String} {m : Option ToolFunctionMetadata} {ao : Bool}
    (h : opening toolName m si (.send i re) = .steps ao) :
    ao = si.isNone := by
  cases si with
  | none =>
    dsimp only [opening] at h
    split at h
    · cases h
      rfl
    · cases h
  | some id =>
    cases h
    rfl

/-- The steps of a plan that sends: the open fails, or the plan comes to its send. -/
theorem executeFrom_ensures {l₁ : List (PlanEvent ω)} (ht : ctx.toolName = c.tool.display)
    (hs : ctx.oneShotStrict = c.oneShotStrict s) (ha : ctx.autoOpened = si.isNone) (hq : Quiet l₁)
    (hh : ∀ id, si = some id → ∃ held, s₁.handle.scope? id = some held ∧ held.toolName = c.tool.display)
    (he : ∀ r s' l, Quiet l → Q r s' l)
    (hr : ∀ vars current s₂ l₂, Ready c s ctx vars current s₂ l₂ →
      Ensures (serve E) (sendAndConclude J ctx vars i) s₂ fun r s' l => Q r s' (l₂ ++ l)) :
    Ensures (serve E) (executeFrom J ctx si (.send i re)) s₁ fun r s' l => Q r s' (l₁ ++ l) := by
  cases si with
  | some id =>
    have hn : ∀ k ∈ opens l₁, k = id := by
      rw [hq.noOpen]
      exact forall_mem_nil _
    exact executeFrom_send_ensures ha (hr _ id s₁ l₁ ⟨ht, hs, rfl, ht ▸ hh id rfl, hq.noSend, hq.noClose, hn⟩)
  | none =>
    refine executeFrom_autoOpen_ensures ha (fun e s' => he _ s' _ (hq.append ⟨rfl, rfl, rfl⟩))
      fun id world hid => ?_
    refine (hr _ id _ (l₁ ++ [⟨s₁, .openSession ctx.scope ctx.toolName emptyOpenInput, .ok id⟩])
      ⟨ht, hs, rfl, ⟨⟨ctx.toolName, ctx.scope, emptyOpenInput⟩, by simp, rfl⟩, ?_, ?_, ?_⟩).imp
      fun r s' l h => ?_
    · rw [sends_append, hq.noSend]
      rfl
    · rw [closes_append, hq.noClose]
      rfl
    · rw [opens_append, hq.noOpen]
      exact fun k hk => mem_singleton.mp hk
    · rwa [append_assoc] at h

/-- A plan that sends either ends before it does, having opened and closed nothing, or comes to its
send. -/
theorem send_plan_ensures (hs : c.step = .send i re) (he : ∀ r s' l, Quiet l → Q r s' l)
    (hr : ∀ ctx vars current s₁ l₁ normalized, Ready c s ctx vars current s₁ l₁ →
      normalizePlanInput J i = .ok normalized →
      Ensures (serve E) (sendAndConclude J ctx vars i) s₁ fun r s' l => Q r s' (l₁ ++ l)) :
    Ensures (serve E) (c.program J) s Q := by
  rw [PlanCall.program, hs]
  refine ensures_ask (.metadata c.tool.display) ?_
  have hq : Quiet [⟨s, .metadata c.tool.display, (serve E (.metadata c.tool.display) s).1⟩] :=
    ⟨rfl, rfl, rfl⟩
  rw [ensures_bind]
  refine (initialSession_ensures _ _ _ _ _).imp ?_
  rintro _ _ l₁ ⟨rfl, hq₁, si, rfl, hh⟩
  dsimp only
  rw [ensures_bind]
  refine (firstDuplicate_ensures _ _ _ _).imp ?_
  rintro _ s₂ l₂ ⟨hha, hq₂, ⟨e, rfl⟩ | ⟨d, rfl, normalized, hn⟩⟩
  · exact he _ _ _ (hq.append (hq₁.append hq₂))
  · have hb := hq.append (hq₁.append hq₂)
    have he' : ∀ r s', Q r s' (_ :: (l₁ ++ (l₂ ++ []))) :=
      fun r s' => he r s' _ (hq.append (hq₁.append (hq₂.append ⟨rfl, rfl, rfl⟩)))
    rcases d with _ | ⟨ar, header⟩
    · dsimp only
      split
      · exact ensures_pure (he' _ _)
      · rename_i ao ho
        simp only [← append_assoc]
        exact executeFrom_ensures rfl rfl (autoOpened_of_opening ho) hb
          (fun id hid => hha ▸ hh id hid) he
          fun vars current s₃ l₃ h => hr _ vars current s₃ l₃ normalized h hn
    · exact ensures_pure (he' _ _)

end

/-! ### Plans that do not send -/

/-- What a plan whose step is no send may ask: only an open opens a session. -/
def PlanOp.Permitted (step : ToolSessionOp) : PlanOp → Prop
  | send _ _ => False
  | openSession _ _ _ => ∃ initialInput reason, step = .open initialInput reason
  | _ => True

section

variable {P : PlanOp → Prop} {step : ToolSessionOp}

theorem uses_ask (h : P op) : Uses P (ask op) := ⟨h, fun _ => trivial⟩

theorem uses_ofExcept (x : Except BamlRtError α) : Uses P (ofExcept x : PlanM α) := by
  cases x with
  | error e => exact uses_throw e
  | ok a => exact uses_pure a

variable (ctx : PlanContext) (vars : PlanVars)

theorem uses_openStep (i : Option Value) (r : Option String) :
    Uses (PlanOp.Permitted (.open i r)) (openStep ctx vars i) := by
  have hf : Uses (PlanOp.Permitted (.open i r)) (openFresh ctx vars i) := by
    refine (uses_ask ⟨_, _, rfl⟩).bind fun o => ?_
    rcases o with e | session
    · dsimp only
      split
      · exact uses_pure _
      · exact uses_throw _
    · exact uses_pure _
  unfold openStep
  split
  · split
    · exact uses_pure _
    · exact (uses_ask trivial).bind fun aborted => (uses_ofExcept _).bind fun _ => hf
  · exact hf

theorem uses_readStep (op : String) (r : ArchiveRead) :
    Uses (PlanOp.Permitted step) (readStep ctx vars op r) := by
  refine (uses_ask trivial).bind fun page => ?_
  split
  · exact uses_pure _
  · exact uses_pure _
  · exact uses_throw _

theorem uses_finishStep : Uses (PlanOp.Permitted step) (finishStep vars) := by
  unfold finishStep
  split
  · exact (uses_ask trivial).bind fun _ => (uses_ofExcept _).bind fun _ => uses_pure _
  · exact uses_pure _

theorem uses_abortStep (r : Option String) : Uses (PlanOp.Permitted step) (abortStep vars r) := by
  unfold abortStep
  split
  · exact (uses_ask trivial).bind fun _ => (uses_ofExcept _).bind fun _ => uses_pure _
  · exact uses_pure _

theorem uses_cleanUp : Uses (PlanOp.Permitted step) (cleanUp ctx vars) := by
  unfold cleanUp
  dsimp only
  split
  · exact uses_pure _
  · split
    · split
      · split
        · exact (uses_ask trivial).bind fun _ => uses_pure _
        · exact uses_pure _
      · exact (uses_ask trivial).bind fun _ => uses_pure _
    · exact uses_pure _

theorem uses_conclude : Uses (PlanOp.Permitted step) (conclude ctx vars) := by
  refine (uses_cleanUp ctx vars).bind fun _ => ?_
  split
  · exact uses_pure _
  · exact uses_throw _

theorem uses_executeStep (hs : ∀ inp r, step ≠ .send inp r) (J : JsonTexts) (ctx : PlanContext)
    (vars : PlanVars) : Uses (PlanOp.Permitted step) (executeStep J ctx vars step) := by
  cases step with
  | «open» i r => exact uses_openStep ctx vars i r
  | send inp r => exact absurd rfl (hs inp r)
  | searchRead read r | pageRead read r => exact (uses_readStep ctx vars _ read).bind fun _ => uses_pure _
  | finish r => exact (uses_finishStep vars).bind fun _ => uses_pure _
  | abort r => exact (uses_abortStep vars r).bind fun _ => uses_pure _

theorem autoOpened_of_not_send (hs : ∀ inp r, step ≠ .send inp r)
    (h : opening toolName m se step = .steps ao) : ao = false := by
  cases step with
  | send inp r => exact absurd rfl (hs inp r)
  | finish r | abort r =>
    dsimp only [opening] at h
    split at h
    · cases h
    · cases h
      rfl
  | «open» i r | searchRead read r | pageRead read r =>
    cases h
    rfl

theorem uses_initialSession (hs : ∀ inp r, step ≠ .send inp r) (scope : RuntimeScope)
    (toolName : String) (so : Option String) :
    Uses (PlanOp.Permitted step) (initialSession scope toolName so step) := by
  cases step with
  | send inp r => exact absurd rfl (hs inp r)
  | _ => exact ⟨trivial, fun _ => trivial⟩

theorem uses_firstDuplicate (hs : ∀ inp r, step ≠ .send inp r) (J : JsonTexts)
    (scope : RuntimeScope) (toolName : String) :
    Uses (PlanOp.Permitted step) (firstDuplicate J scope toolName step) := by
  cases step with
  | send inp r => exact absurd rfl (hs inp r)
  | _ => exact uses_pure _

variable {c : PlanCall}

theorem uses_program (hs : ∀ input r, c.step ≠ .send input r) (J : JsonTexts) :
    Uses (PlanOp.Permitted c.step) (c.program J) := by
  refine (uses_ask trivial).bind fun m => (uses_initialSession hs _ _ _).bind fun sessionId =>
    (uses_firstDuplicate hs J _ _).bind fun d => ?_
  rcases d with _ | ⟨ar, header⟩
  · dsimp only
    split
    · exact uses_pure _
    · rename_i ao ho
      obtain rfl := autoOpened_of_not_send hs ho
      refine Uses.bind ?_ fun f => ?_
      · refine (uses_executeStep hs J _ _).bind fun f => ?_
        rcases f with vars | value
        · exact uses_pure _
        · exact uses_pure _
      · rcases f with vars | value
        · exact uses_conclude _ vars
        · exact uses_pure _
  · exact uses_pure _

theorem sends_of_not_send (hs : ∀ inp r, c.step ≠ .send inp r) (E : Surroundings ω) (J : JsonTexts)
    (s : Runtime ω) : sends (c.events E J s) = [] := by
  have hu : ∀ e ∈ c.events E J s, e.op.Permitted c.step := (uses_program hs J).ensures s
  refine filterMap_eq_nil_iff.mpr fun e he => ?_
  have hop := hu e he
  rcases e with ⟨before, op, answer⟩
  cases op with
  | send sessionId inp => exact hop.elim
  | _ => rfl

theorem opens_of_not_send (hs : ∀ inp r, c.step ≠ .send inp r)
    (ho : ∀ i r, c.step ≠ .open i r) (E : Surroundings ω) (J : JsonTexts)
    (s : Runtime ω) : opens (c.events E J s) = [] := by
  have hu : ∀ e ∈ c.events E J s, e.op.Permitted c.step := (uses_program hs J).ensures s
  refine filterMap_eq_nil_iff.mpr fun e he => ?_
  have hop := hu e he
  rcases e with ⟨before, op, answer⟩
  cases op with
  | openSession scope toolName inp =>
    obtain ⟨i, r, heq⟩ := hop
    exact absurd heq (ho i r)
  | _ => rfl

end

/-! ### A tool that follows a script -/

def nextId (used : Finset ToolSessionId) : ToolSessionId :=
  ⟨String.ofList (List.replicate (used.sup (fun id => id.text.length) + 1) 's')⟩

theorem nextId_notMem (used : Finset ToolSessionId) : nextId used ∉ used := by
  intro hm
  have hle := Finset.le_sup (f := fun id : ToolSessionId => id.text.length) hm
  simp only [nextId, String.length_ofList, length_replicate] at hle
  omega

/-- The answers to the sends are given in advance; what is not given does not come in time. -/
def scripted : Surroundings (List SendAnswers) where
  freshId used _ := nextId used
  freshId_notMem used _ := nextId_notMem used
  order ids _ := ids
  order_perm ids _ := .refl ids
  onOpen _ _ _ script := (⟨.ok .allow, .ok ()⟩, script)
  onSend _ _ script :=
    match script with
    | answers :: script => (answers, script)
    | [] => (⟨.ok .allow, .ok (), [], .ok (), fun _ => .ok (⟨1, 1⟩, "")⟩, [])
  onFinish _ script := (.ok (), script)
  onAbort _ _ script := (.ok (), script)
  onFindDuplicate _ _ script := (none, script)
  onReadArchive _ _ script := (.error (.invalidArgument ""), script)

/-- A send to which the tool answers with a step. -/
def steps (step : ToolStep) : SendAnswers := ⟨.ok .allow, .ok (), [.ok step], .ok (), fun _ => .ok (⟨1, 1⟩, "")⟩

def refuses (e : BamlRtError) : SendAnswers :=
  ⟨.ok .allow, .error (.transport e), [], .ok (), fun _ => .ok (⟨1, 1⟩, "")⟩

/-- A one-shot tool that is opened without input. -/
def notifyTool (policy : SessionPolicy) : ToolFunctionMetadata :=
  ⟨⟨"support", "slack_notify"⟩, .guest, .oneShot, policy, .null⟩

def notifyRuntime (policy : SessionPolicy) (script : List SendAnswers) : Runtime (List SendAnswers) :=
  ⟨⟨⟨[notifyTool policy], none, ∅⟩, .empty, ∅, fun _ h => (by cases h), Finset.Subset.refl _⟩, script⟩

def notifyCall : PlanCall :=
  ⟨.messageScope "ctx" "agent" "msg", ⟨"support", "slack_notify"⟩, .send (.object []) none, none⟩

def noJson : JsonTexts := ⟨fun _ => .error "", fun _ => ""⟩

end AgentiumOs.Tools
