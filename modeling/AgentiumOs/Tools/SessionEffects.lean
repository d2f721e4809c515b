import AgentiumOs.Tools.SessionHandle
import AgentiumOs.Lib.Run

/-! The effects that the sends and reads of tool sessions emit. A start leaves a token in a map, and
completing takes the token out: between two calls, a session has one start more than completions
exactly while its token is in the map. -/

namespace AgentiumOs.Tools

open Function AgentiumOs.Core Lib
open Lib.Json (Value)
open Semiotic (InterceptorDecision)

inductive Outcome where
  | success
  | failure

inductive EffectPhase where
  | opening
  | send
  | read

structure ToolEffectMetadata where
  toolName : String
  args : Value
  phase : EffectPhase

inductive EffectEvent where
  | toolStarted (metadata : ToolEffectMetadata)
  | toolCompleted (metadata : ToolEffectMetadata) (outcome : Outcome) (result : Option Value)

def EffectEvent.isStart : EffectEvent → Bool
  | toolStarted _ => true
  | toolCompleted .. => false

/-- The handle with its calls under way, its tokens, and what was emitted for which session; what an
open emits is for none. Emitting succeeds if there is an emitter. -/
structure EffectHandle where
  handle : SessionHandle
  hasEmitter : Bool
  states : Finset ToolSessionId
  tokens : ToolSessionId → Option ToolEffectMetadata
  emitted : List (Option ToolSessionId × EffectEvent)

open EffectHandle

namespace EffectHandle

def startTool (h : EffectHandle) (id : ToolSessionId) (metadata : ToolEffectMetadata) : EffectHandle :=
  if h.hasEmitter then
    { h with tokens := Function.update h.tokens id (some metadata)
             emitted := h.emitted ++ [(some id, .toolStarted metadata)] }
  else h

/-- The token leaves the map also if there is no emitter. -/
def completeToken (h : EffectHandle) (id : ToolSessionId) (outcome : Outcome) (result : Option Value) : EffectHandle :=
  match h.tokens id with
  | none => h
  | some metadata =>
      { h with tokens := Function.update h.tokens id none
               emitted :=
                 if h.hasEmitter then h.emitted ++ [(some id, .toolCompleted metadata outcome result)]
                 else h.emitted }

def insertState (h : EffectHandle) (id : ToolSessionId) : EffectHandle := { h with states := insert id h.states }

def removeState (h : EffectHandle) (id : ToolSessionId) : EffectHandle := { h with states := h.states.erase id }

/-- A call that is not made starts and fails at once. -/
def emitFailed (h : EffectHandle) (owner : Option ToolSessionId) (metadata : ToolEffectMetadata) : EffectHandle :=
  if h.hasEmitter then
    { h with emitted := h.emitted ++
        [(owner, .toolStarted metadata), (owner, .toolCompleted metadata .failure none)] }
  else h

/-- A call that an interceptor stops is emitted, one whose interceptor fails is not. -/
def emitGateBlockedEffect (h : EffectHandle) (owner : Option ToolSessionId) (metadata : ToolEffectMetadata)
    (decision : Except BamlRtError (InterceptorDecision Value)) : EffectHandle :=
  match decision with
  | .ok (.requireAuthorization _) | .ok (.block _) => h.emitFailed owner metadata
  | _ => h

def openToolSession (h : EffectHandle) (scope : RuntimeScope) (toolName : String) (openInput : Value)
    (sessionId : ToolSessionId) (answers : OpenAnswers) : Except BamlRtError ToolSessionId × EffectHandle :=
  let metadata := ⟨toolName, openInput, .opening⟩
  match interceptionError answers.decision with
  | some e => (.error e, h.emitGateBlockedEffect none metadata answers.decision)
  | none =>
      match h.handle.openToolSession scope toolName openInput sessionId answers with
      | (.error e, handle) => (.error e, { h.emitFailed none metadata with handle := handle })
      | (.ok sessionId, handle) => (.ok sessionId, { h with handle := handle })

def sentResult : Value := .object [("status", .string "sent")]

/-- There is one call under way at a time: a send during it shares its state and token. -/
def beginSend (h : EffectHandle) (sessionId : ToolSessionId) (metadata : ToolEffectMetadata) : EffectHandle :=
  if sessionId ∈ h.states then h else (h.insertState sessionId).startTool sessionId metadata

/-- The state stays after a send that succeeds, the scope also after one that fails. -/
def toolSessionSend (h : EffectHandle) (sessionId : ToolSessionId) (input : Value) (answers : SendAnswers) :
    Except BamlRtError Unit × EffectHandle :=
  match h.handle.scope? sessionId with
  | none => (.error (SessionHandle.scopeNotFoundError sessionId), h)
  | some scope =>
      let metadata := ⟨scope.toolName, input, .send⟩
      match interceptionError answers.decision with
      | some e => (.error e, h.emitGateBlockedEffect (some sessionId) metadata answers.decision)
      | none =>
          let h := h.beginSend sessionId metadata
          match h.handle.registry.sessionSend sessionId answers.send with
          | .ok () => (.ok (), h.completeToken sessionId .success (some sentResult))
          | .error e => (.error e, (h.removeState sessionId).completeToken sessionId .failure none)

/-- Before the session is asked, a read sees to it that there are a token and a state. -/
def beginRead (h : EffectHandle) (sessionId : ToolSessionId) (input : Value) : EffectHandle :=
  match h.handle.scope? sessionId, h.tokens sessionId with
  | some scope, none => (h.startTool sessionId ⟨scope.toolName, input, .read⟩).insertState sessionId
  | _, _ => h

def readCompletion : Except BamlRtError ToolStep → Option (Outcome × Option Value)
  | .ok (.done output) => some (.success, some (output.getD .null))
  | .ok (.error _) | .error _ => some (.failure, none)
  | .ok (.streaming _) | .ok (.suspended _) => none

def endRead (h : EffectHandle) (sessionId : ToolSessionId) (result : Except BamlRtError ToolStep) : EffectHandle :=
  match readCompletion result with
  | none => h
  | some (outcome, output) =>
      if sessionId ∈ h.states then (h.removeState sessionId).completeToken sessionId outcome output else h

def toolSessionRead (h : EffectHandle) (sessionId : ToolSessionId) (input : Value)
    (answer : Except ToolSessionError ToolStep) : Except BamlRtError ToolStep × EffectHandle :=
  match h.handle.scope? sessionId with
  | none => (.error (SessionHandle.scopeNotFoundError sessionId), h)
  | some _ =>
      let result := h.handle.registry.sessionRead sessionId answer
      (result, (h.beginRead sessionId input).endRead sessionId result)

/-- Token, state and scope are removed, whatever the session answered. -/
def completeSessionLifecycle (h : EffectHandle) (sessionId : ToolSessionId) (outcome : Outcome) : EffectHandle :=
  let h := (h.completeToken sessionId outcome none).removeState sessionId
  { h with handle := h.handle.remove sessionId }

def toolSessionFinish (h : EffectHandle) (sessionId : ToolSessionId) (answer : Except ToolSessionError Unit) :
    Except BamlRtError Unit × EffectHandle :=
  match h.handle.scope? sessionId with
  | none => (.error (SessionHandle.scopeNotFoundError sessionId), h)
  | some _ =>
      let result := (h.handle.registry.sessionFinish sessionId answer).1
      (result, h.completeSessionLifecycle sessionId (if result.isOk then .success else .failure))

def toolSessionAbort (h : EffectHandle) (sessionId : ToolSessionId) (answer : Except ToolSessionError Unit) :
    Except BamlRtError Unit × EffectHandle :=
  match h.handle.scope? sessionId with
  | none => (.error (SessionHandle.scopeNotFoundError sessionId), h)
  | some _ => ((h.handle.registry.sessionAbort sessionId answer).1, h.completeSessionLifecycle sessionId .failure)

/-- A read that does not come back in time is dropped while the session is asked. -/
def poll (h : EffectHandle) (sessionId : ToolSessionId) (answers : SendAnswers) :
    List (Except ToolSessionError ToolStep) → Except BamlRtError SendOutcome × EffectHandle
  | [] =>
      (.error (.invalidArgument "tool session send_blocking: no chunk received within 300s; aborting"),
        h.beginRead sessionId (.object []))
  | answer :: polls =>
      match h.toolSessionRead sessionId (.object []) answer with
      | (.error e, h) => (.error e, h)
      | (.ok (.streaming _), h) | (.ok (.suspended _), h) => h.poll sessionId answers polls
      | (.ok (.done output), h) =>
          match answers.archive (output.getD .null) with
          | .error e => (.error e, h)
          | .ok (archiveRef, header) => (.ok (.completed ⟨archiveRef, header, output.getD .null⟩), h)
      | (.ok (.error failure), h) => (.ok (.toolFailed failure), (h.toolSessionAbort sessionId answers.abort).2)

/-- After the send, state and token are removed without being completed. -/
def toolSessionSendBlocking (h : EffectHandle) (sessionId : ToolSessionId) (input : Value) (answers : SendAnswers) :
    Except BamlRtError SendOutcome × EffectHandle :=
  match h.toolSessionSend sessionId input answers with
  | (.error e, h) => (.error e, h)
  | (.ok (), h) =>
      let h := { h.removeState sessionId with tokens := Function.update h.tokens sessionId none }
      h.poll sessionId answers answers.polls

/-! ### The handle without its effects -/

section

variable (h : EffectHandle) (id : ToolSessionId)

@[simp] theorem handle_startTool (m : ToolEffectMetadata) : (h.startTool id m).handle = h.handle := by
  rw [startTool]
  split <;> rfl

@[simp] theorem handle_completeToken (o : Outcome) (r : Option Value) :
    (h.completeToken id o r).handle = h.handle := by
  rw [completeToken]
  split <;> rfl

@[simp] theorem handle_insertState : (h.insertState id).handle = h.handle := rfl

@[simp] theorem handle_removeState : (h.removeState id).handle = h.handle := rfl

@[simp] theorem handle_emitFailed (o : Option ToolSessionId) (m : ToolEffectMetadata) :
    (h.emitFailed o m).handle = h.handle := by
  rw [emitFailed]
  split <;> rfl

@[simp] theorem handle_emitGateBlockedEffect (o : Option ToolSessionId) (m : ToolEffectMetadata)
    (d : Except BamlRtError (InterceptorDecision Value)) :
    (h.emitGateBlockedEffect o m d).handle = h.handle := by
  unfold emitGateBlockedEffect
  split <;> simp

@[simp] theorem handle_beginSend (m : ToolEffectMetadata) : (h.beginSend id m).handle = h.handle := by
  rw [beginSend]
  split <;> simp

variable (i : Value)

@[simp] theorem handle_beginRead : (h.beginRead id i).handle = h.handle := by
  unfold beginRead
  split <;> simp

@[simp] theorem handle_endRead (r : Except BamlRtError ToolStep) : (h.endRead id r).handle = h.handle := by
  rw [endRead]
  split
  · rfl
  · split <;> simp

theorem openToolSession_refines (s : RuntimeScope) (t : String) (o : Value) (answers : OpenAnswers) :
    let opened := h.openToolSession s t o id answers
    (opened.1, opened.2.handle) = h.handle.openToolSession s t o id answers := by
  cases he : interceptionError answers.decision with
  | some e => simp [openToolSession, SessionHandle.openToolSession, he]
  | none =>
    simp only [openToolSession, he]
    split
    all_goals
      rename_i heq
      exact heq.symm

variable (answers : SendAnswers)

theorem toolSessionSend_refines : (h.toolSessionSend id i answers).1 = h.handle.toolSessionSend id answers ∧
      (h.toolSessionSend id i answers).2.handle = h.handle := by
  cases hs : h.handle.scope? id with
  | none => simp [toolSessionSend, SessionHandle.toolSessionSend, hs]
  | some scope =>
    cases he : interceptionError answers.decision with
    | some e => simp [toolSessionSend, SessionHandle.toolSessionSend, hs, he]
    | none =>
      cases hse : h.handle.registry.sessionSend id answers.send <;>
        simp [toolSessionSend, SessionHandle.toolSessionSend, hs, he, hse]

theorem toolSessionRead_refines (an : Except ToolSessionError ToolStep) :
    (h.toolSessionRead id i an).1 = h.handle.toolSessionRead id an ∧
      (h.toolSessionRead id i an).2.handle = h.handle := by
  cases hs : h.handle.scope? id <;> simp [toolSessionRead, SessionHandle.toolSessionRead, hs]

@[simp] theorem handle_completeSessionLifecycle (o : Outcome) :
    (h.completeSessionLifecycle id o).handle = h.handle.remove id := by
  simp [completeSessionLifecycle]

theorem toolSessionAbort_refines (answer : Except ToolSessionError Unit) :
    ((h.toolSessionAbort id answer).1, (h.toolSessionAbort id answer).2.handle) =
      h.handle.toolSessionAbort id answer := by
  cases hs : h.handle.scope? id <;> simp [toolSessionAbort, SessionHandle.toolSessionAbort, hs]

theorem poll_refines (polls : List (Except ToolSessionError ToolStep)) :
    ((h.poll id answers polls).1, (h.poll id answers polls).2.handle) = h.handle.poll id answers polls := by
  induction polls generalizing h with
  | nil => simp [poll, SessionHandle.poll]
  | cons answer polls ih =>
    obtain ⟨hr, hh⟩ := h.toolSessionRead_refines id (.object []) answer
    rw [SessionHandle.poll, ← hr, poll]
    cases hre : h.toolSessionRead id (.object []) answer with
    | mk result h' =>
    replace hh : h'.handle = h.handle := by rw [hre] at hh; exact hh
    rcases result with e | output | output | output | failure
    · exact congrArg _ hh
    · rw [← hh, ← ih h']
    · rw [← hh, ← ih h']
    · cases ha : answers.archive (output.getD .null) <;> simp only [ha, hh]
    · exact congrArg _ ((congrArg Prod.snd (h'.toolSessionAbort_refines id answers.abort)).trans (by rw [hh]))

theorem toolSessionSendBlocking_refines :
    ((h.toolSessionSendBlocking id i answers).1, (h.toolSessionSendBlocking id i answers).2.handle) =
      h.handle.toolSessionSendBlocking id answers := by
  obtain ⟨hr, hh⟩ := h.toolSessionSend_refines id i answers
  rw [SessionHandle.toolSessionSendBlocking, ← hr, toolSessionSendBlocking]
  cases hs : h.toolSessionSend id i answers with
  | mk result h' =>
  replace hh : h'.handle = h.handle := by rw [hs] at hh; exact hh
  cases result with
  | error e => exact congrArg _ hh
  | ok _ => rw [← hh]; exact poll_refines _ id answers answers.polls

end

/-! ### Starts and completions -/

/-- The events of a session that are, or are not, starts. -/
def count (id : ToolSessionId) (isStart : Bool) (emitted : List (Option ToolSessionId × EffectEvent)) : ℕ :=
  emitted.countP fun e => decide (e.1 = some id) && e.2.isStart == isStart

def balance (id : ToolSessionId) (emitted : List (Option ToolSessionId × EffectEvent)) : ℤ :=
  count id true emitted - count id false emitted

variable (id : ToolSessionId)

theorem balance_append (e more : List (Option ToolSessionId × EffectEvent)) :
    balance id (e ++ more) = balance id e + balance id more := by
  simp only [balance, count, List.countP_append]
  omega

theorem balance_started (o : ToolSessionId) (m : ToolEffectMetadata) :
    balance id [(some o, .toolStarted m)] = if id = o then 1 else 0 := by
  by_cases h : id = o
  · simp [balance, count, EffectEvent.isStart, h]
  · simp [balance, count, h, Ne.symm h]

theorem balance_completed (o : ToolSessionId) (m : ToolEffectMetadata) (ou : Outcome) (r : Option Value) :
    balance id [(some o, .toolCompleted m ou r)] = if id = o then -1 else 0 := by
  by_cases h : id = o
  · simp [balance, count, EffectEvent.isStart, h]
  · simp [balance, count, h, Ne.symm h]

/-- A token is the one start without completion of a session that is open and has a call under
way. -/
structure Balanced (h : EffectHandle) : Prop where
  balance_eq : ∀ id, balance id h.emitted = if (h.tokens id).isSome then 1 else 0
  state_of_token : ∀ id, (h.tokens id).isSome → id ∈ h.states
  scope_of_token : ∀ id, (h.tokens id).isSome → (h.handle.scope? id).isSome
  emitter_of_token : ∀ id, (h.tokens id).isSome → h.hasEmitter

namespace Balanced

variable {h : EffectHandle} {id : ToolSessionId}

theorem insertState (hb : h.Balanced) : (h.insertState id).Balanced where
  balance_eq := hb.balance_eq
  state_of_token other ho := Finset.mem_insert_of_mem (hb.state_of_token other ho)
  scope_of_token := hb.scope_of_token
  emitter_of_token := hb.emitter_of_token

/-- Without a state there is no token, so no token is overwritten. -/
theorem startTool (hb : h.Balanced) (hn : h.tokens id = none) (hs : id ∈ h.states)
    (hsc : (h.handle.scope? id).isSome) (m : ToolEffectMetadata) : (h.startTool id m).Balanced := by
  rw [EffectHandle.startTool]
  split
  case isFalse => exact hb
  case isTrue he =>
    have ht (o : ToolSessionId) : (update h.tokens id (some m) o).isSome →
        o = id ∨ (h.tokens o).isSome := by
      rw [update_apply]
      split
      · exact fun _ => .inl ‹_›
      · exact .inr
    refine ⟨fun o => ?_, fun o ho => ?_, fun o ho => ?_, fun _ _ => he⟩
    · rw [balance_append, balance_started, hb.balance_eq]
      rcases eq_or_ne o id with rfl | hne
      · simp [hn]
      · simp [hne]
    · rcases ht o ho with rfl | hol
      · exact hs
      · exact hb.state_of_token o hol
    · rcases ht o ho with rfl | hol
      · exact hsc
      · exact hb.scope_of_token o hol

theorem completeToken (hb : h.Balanced) (ou : Outcome) (r : Option Value) :
    (h.completeToken id ou r).Balanced := by
  rw [EffectHandle.completeToken]
  cases ht : h.tokens id with
  | none => exact hb
  | some m =>
    have hol (o : ToolSessionId) (ho : (update h.tokens id none o).isSome) : (h.tokens o).isSome := by
      rw [update_apply] at ho
      split at ho
      · cases ho
      · exact ho
    have he : h.hasEmitter := hb.emitter_of_token id (by rw [ht]; rfl)
    refine ⟨fun o => ?_, fun o ho => hb.state_of_token o (hol o ho),
      fun o ho => hb.scope_of_token o (hol o ho), fun _ _ => he⟩
    simp only [he, if_true]
    rw [balance_append, balance_completed, hb.balance_eq]
    rcases eq_or_ne o id with rfl | hne
    · simp [ht]
    · simp [hne]

theorem removeState (hb : h.Balanced) (hn : h.tokens id = none) : (h.removeState id).Balanced where
  balance_eq := hb.balance_eq
  state_of_token other ho := by
    refine Finset.mem_erase.mpr ⟨?_, hb.state_of_token other ho⟩
    rintro rfl
    rw [show (h.removeState other).tokens other = none from hn] at ho
    cases ho
  scope_of_token := hb.scope_of_token
  emitter_of_token := hb.emitter_of_token

theorem withHandle (hb : h.Balanced) {handle : SessionHandle}
    (hs : ∀ id, (h.tokens id).isSome → (h.handle.scope? id).isSome → (handle.scope? id).isSome) :
    Balanced { h with handle := handle } where
  balance_eq := hb.balance_eq
  state_of_token := hb.state_of_token
  scope_of_token id hid := hs id hid (hb.scope_of_token id hid)
  emitter_of_token := hb.emitter_of_token

theorem emitFailed (hb : h.Balanced) (o : Option ToolSessionId) (m : ToolEffectMetadata) :
    (h.emitFailed o m).Balanced := by
  rw [EffectHandle.emitFailed]
  split
  · refine ⟨fun id => ?_, hb.state_of_token, hb.scope_of_token, hb.emitter_of_token⟩
    rw [balance_append, hb.balance_eq]
    by_cases hid : o = some id <;> simp [balance, count, EffectEvent.isStart, hid]
  · exact hb

theorem emitGateBlockedEffect (hb : h.Balanced) (o : Option ToolSessionId) (m : ToolEffectMetadata)
    (d : Except BamlRtError (InterceptorDecision Value)) :
    (h.emitGateBlockedEffect o m d).Balanced := by
  unfold EffectHandle.emitGateBlockedEffect
  split
  · exact hb.emitFailed o m
  · exact hb.emitFailed o m
  · exact hb

end Balanced

theorem tokens_completeToken_self (h : EffectHandle) (id : ToolSessionId) (o : Outcome) (r : Option Value) :
    (h.completeToken id o r).tokens id = none := by
  rw [completeToken]
  split
  · assumption
  · exact update_self ..

theorem removeState_completeToken (h : EffectHandle) (id : ToolSessionId) (o : Outcome) (r : Option Value) :
    (h.removeState id).completeToken id o r = (h.completeToken id o r).removeState id := by
  simp only [completeToken, removeState]
  split <;> rfl

theorem startTool_insertState (h : EffectHandle) (id : ToolSessionId) (metadata : ToolEffectMetadata) :
    (h.startTool id metadata).insertState id = (h.insertState id).startTool id metadata := by
  cases he : h.hasEmitter <;> simp [startTool, insertState, he]

theorem Balanced.settle {h : EffectHandle} (hb : h.Balanced) (id : ToolSessionId) (o : Outcome)
    (r : Option Value) : ((h.removeState id).completeToken id o r).Balanced := by
  rw [removeState_completeToken]
  exact (hb.completeToken o r).removeState (tokens_completeToken_self h id o r)

theorem tokens_of_sent {h : EffectHandle} {id : ToolSessionId} {inp : Value} {answers : SendAnswers}
    (hs : (h.toolSessionSend id inp answers).1 = .ok ()) :
    (h.toolSessionSend id inp answers).2.tokens id = none := by
  revert hs
  rw [toolSessionSend]
  split
  · rintro ⟨⟩
  · dsimp only
    split
    · rintro ⟨⟩
    · split
      · exact fun _ => tokens_completeToken_self ..
      · rintro ⟨⟩

/-! ### Every call keeps the balance -/

section

variable {h : EffectHandle} (hb : h.Balanced) (id : ToolSessionId)
include hb

theorem openToolSession_balanced (s : RuntimeScope) (t : String) (o : Value) (answers : OpenAnswers) :
    (h.openToolSession s t o id answers).2.Balanced := by
  have hop := h.handle.openToolSession_opens s t o id answers
  simp only [openToolSession]
  split
  · exact hb.emitGateBlockedEffect ..
  · generalize h.handle.openToolSession s t o id answers = opened at hop ⊢
    obtain ⟨result, handle⟩ := opened
    cases hop with
    | error e => exact (hb.emitFailed ..).withHandle fun ot _ ho => by rwa [handle_emitFailed] at ho
    | opened =>
      refine hb.withHandle fun ot _ ho => ?_
      show ((h.handle.add id _).scope? ot).isSome
      rw [SessionHandle.scope?_add]
      split
      · rfl
      · exact ho

theorem beginSend_balanced (hs : (h.handle.scope? id).isSome) (m : ToolEffectMetadata) :
    (h.beginSend id m).Balanced := by
  rw [beginSend]
  split
  · exact hb
  · rename_i hst
    have hn : h.tokens id = none := by
      refine Option.not_isSome_iff_eq_none.mp fun ht => hst ?_
      exact hb.state_of_token id ht
    exact hb.insertState.startTool hn (Finset.mem_insert_self ..) hs m

variable (i : Value) (an : SendAnswers)

theorem toolSessionSend_balanced : (h.toolSessionSend id i an).2.Balanced := by
  rw [toolSessionSend]
  split
  · exact hb
  · rename_i s hs
    have hbe := beginSend_balanced hb id (Option.isSome_of_eq_some hs) ⟨s.toolName, i, .send⟩
    dsimp only
    split
    · exact hb.emitGateBlockedEffect ..
    · split
      · exact hbe.completeToken ..
      · exact hbe.settle ..

theorem beginRead_balanced : (h.beginRead id i).Balanced := by
  unfold beginRead
  split
  · rename_i scope hs hn
    rw [startTool_insertState]
    exact hb.insertState.startTool hn (Finset.mem_insert_self ..) (Option.isSome_of_eq_some hs) _
  · exact hb

theorem endRead_balanced (r : Except BamlRtError ToolStep) : (h.endRead id r).Balanced := by
  rw [endRead]
  split
  · exact hb
  · split
    · exact hb.settle ..
    · exact hb

theorem toolSessionRead_balanced (an : Except ToolSessionError ToolStep) :
    (h.toolSessionRead id i an).2.Balanced := by
  rw [toolSessionRead]
  split
  · exact hb
  · exact endRead_balanced (beginRead_balanced hb id i) id _

theorem completeSessionLifecycle_balanced (o : Outcome) : (h.completeSessionLifecycle id o).Balanced := by
  have hn := tokens_completeToken_self h id o none
  refine ((hb.completeToken o none).removeState hn).withHandle fun ot ht ho => ?_
  have hne : ot ≠ id := by
    rintro rfl
    rw [show ((h.completeToken ot o none).removeState ot).tokens ot = none from hn] at ht
    cases ht
  rwa [SessionHandle.scope?_remove, if_neg hne]

theorem toolSessionFinish_balanced (an : Except ToolSessionError Unit) :
    (h.toolSessionFinish id an).2.Balanced := by
  rw [toolSessionFinish]
  split
  · exact hb
  · exact completeSessionLifecycle_balanced hb id _

theorem toolSessionAbort_balanced (an : Except ToolSessionError Unit) :
    (h.toolSessionAbort id an).2.Balanced := by
  rw [toolSessionAbort]
  split
  · exact hb
  · exact completeSessionLifecycle_balanced hb id _

theorem poll_balanced (p : List (Except ToolSessionError ToolStep)) : (h.poll id an p).2.Balanced := by
  induction p generalizing h with
  | nil => exact beginRead_balanced hb id _
  | cons answer p ih =>
    have hr := toolSessionRead_balanced hb id (.object []) answer
    rw [poll]
    cases hre : h.toolSessionRead id (.object []) answer with
    | mk result h' =>
    rw [hre] at hr
    rcases result with e | output | output | output | failure
    · exact hr
    · exact ih hr
    · exact ih hr
    · dsimp only
      split <;> exact hr
    · exact toolSessionAbort_balanced hr id _

theorem toolSessionSendBlocking_balanced : (h.toolSessionSendBlocking id i an).2.Balanced := by
  have hs := toolSessionSend_balanced hb id i an
  have hse := @tokens_of_sent h id i an
  rw [toolSessionSendBlocking]
  generalize h.toolSessionSend id i an = s at hs hse ⊢
  obtain ⟨e | _, h'⟩ := s
  · exact hs
  · have hn : h'.tokens id = none := hse rfl
    have hd : update h'.tokens id none = h'.tokens := by rw [← hn, update_eq_self]
    dsimp only
    rw [hd]
    exact poll_balanced (hs.removeState hn) id an _

end

end EffectHandle

inductive HandleCall where
  | openSession (scope : RuntimeScope) (toolName : String) (openInput : Value) (sessionId : ToolSessionId)
      (answers : OpenAnswers)
  | send (sessionId : ToolSessionId) (input : Value) (answers : SendAnswers)
  | sendBlocking (sessionId : ToolSessionId) (input : Value) (answers : SendAnswers)
  | read (sessionId : ToolSessionId) (input : Value) (answer : Except ToolSessionError ToolStep)
  | finish (sessionId : ToolSessionId) (answer : Except ToolSessionError Unit)
  | abort (sessionId : ToolSessionId) (answer : Except ToolSessionError Unit)

inductive HandleAnswer where
  | opened (result : Except BamlRtError ToolSessionId)
  | unit (result : Except BamlRtError Unit)
  | sent (result : Except BamlRtError SendOutcome)
  | step (result : Except BamlRtError ToolStep)

namespace HandleCall

def run (h : EffectHandle) : HandleCall → EffectHandle × HandleAnswer
  | openSession scope toolName openInput sessionId answers =>
      let (result, h) := h.openToolSession scope toolName openInput sessionId answers
      (h, .opened result)
  | send sessionId input answers =>
      let (result, h) := h.toolSessionSend sessionId input answers
      (h, .unit result)
  | sendBlocking sessionId input answers =>
      let (result, h) := h.toolSessionSendBlocking sessionId input answers
      (h, .sent result)
  | read sessionId input answer =>
      let (result, h) := h.toolSessionRead sessionId input answer
      (h, .step result)
  | finish sessionId answer =>
      let (result, h) := h.toolSessionFinish sessionId answer
      (h, .unit result)
  | abort sessionId answer =>
      let (result, h) := h.toolSessionAbort sessionId answer
      (h, .unit result)

def Opens (id : ToolSessionId) : HandleCall → Prop
  | openSession _ _ _ sessionId _ => sessionId = id
  | _ => False

def Ends (id : ToolSessionId) : HandleCall → Prop
  | finish sessionId _ | abort sessionId _ => sessionId = id
  | _ => False

variable {h : EffectHandle} {call : HandleCall} {id : ToolSessionId}

theorem run_balanced (hb : h.Balanced) (call : HandleCall) : (call.run h).1.Balanced := by
  cases call with
  | openSession s t o sessionId answers =>
    exact openToolSession_balanced hb sessionId s t o answers
  | send sessionId inp answers => exact toolSessionSend_balanced hb sessionId inp answers
  | sendBlocking sessionId inp answers =>
    exact toolSessionSendBlocking_balanced hb sessionId inp answers
  | read sessionId inp answer => exact toolSessionRead_balanced hb sessionId inp answer
  | finish sessionId answer => exact toolSessionFinish_balanced hb sessionId answer
  | abort sessionId answer => exact toolSessionAbort_balanced hb sessionId answer

theorem scope?_run (hid : h.handle.scope? id = none) (hc : ¬ call.Opens id) :
    (call.run h).1.handle.scope? id = none := by
  have hr (ot : ToolSessionId) : (h.handle.remove ot).scope? id = none := by
    rw [SessionHandle.scope?_remove]
    split
    · rfl
    · exact hid
  cases call with
  | openSession s t o sessionId answers =>
    have ho := h.handle.openToolSession_opens s t o sessionId answers
    have hre := congrArg Prod.snd (h.openToolSession_refines sessionId s t o answers)
    show (h.openToolSession s t o sessionId answers).2.handle.scope? id = none
    rw [show (h.openToolSession s t o sessionId answers).2.handle = _ from hre]
    generalize h.handle.openToolSession s t o sessionId answers = opened at ho ⊢
    obtain ⟨result, handle⟩ := opened
    cases ho with
    | error e => exact hid
    | opened =>
      have hne : id ≠ sessionId := fun heq => hc heq.symm
      show (h.handle.add sessionId _).scope? id = none
      rw [SessionHandle.scope?_add, if_neg hne, hid]
  | send sessionId inp answers =>
    show (h.toolSessionSend sessionId inp answers).2.handle.scope? id = none
    rw [(h.toolSessionSend_refines sessionId inp answers).2, hid]
  | sendBlocking sessionId inp answers =>
    have hse := h.handle.sendBlocking_sends sessionId answers
    have hre := congrArg Prod.snd (h.toolSessionSendBlocking_refines sessionId inp answers)
    show (h.toolSessionSendBlocking sessionId inp answers).2.handle.scope? id = none
    rw [show (h.toolSessionSendBlocking sessionId inp answers).2.handle = _ from hre]
    generalize h.handle.toolSessionSendBlocking sessionId answers = sent at hse ⊢
    obtain ⟨result, handle⟩ := sent
    cases hse with
    | completed result hs | error e hs | notFound hs => exact hid
    | toolFailed f hs => exact hr sessionId
  | read sessionId inp answer =>
    show (h.toolSessionRead sessionId inp answer).2.handle.scope? id = none
    rw [(h.toolSessionRead_refines sessionId inp answer).2, hid]
  | finish sessionId answer =>
    show (h.toolSessionFinish sessionId answer).2.handle.scope? id = none
    rw [toolSessionFinish]
    split
    · exact hid
    · rw [handle_completeSessionLifecycle, hr]
  | abort sessionId answer =>
    show (h.toolSessionAbort sessionId answer).2.handle.scope? id = none
    rw [toolSessionAbort]
    split
    · exact hid
    · rw [handle_completeSessionLifecycle, hr]

theorem scope?_of_ends (hc : call.Ends id) (h : EffectHandle) : (call.run h).1.handle.scope? id = none := by
  cases call with
  | finish sessionId answer =>
    obtain rfl : sessionId = id := hc
    show (h.toolSessionFinish sessionId answer).2.handle.scope? sessionId = none
    rw [toolSessionFinish]
    split
    · assumption
    · rw [handle_completeSessionLifecycle, SessionHandle.scope?_remove_self]
  | abort sessionId answer =>
    obtain rfl : sessionId = id := hc
    show (h.toolSessionAbort sessionId answer).2.handle.scope? sessionId = none
    rw [toolSessionAbort]
    split
    · assumption
    · rw [handle_completeSessionLifecycle, SessionHandle.scope?_remove_self]
  | _ => exact hc.elim

end HandleCall

def EffectHandle.new (handle : SessionHandle) (hasEmitter : Bool) : EffectHandle :=
  ⟨handle, hasEmitter, ∅, fun _ => none, []⟩

theorem EffectHandle.new_balanced (ha : SessionHandle) (he : Bool) : (EffectHandle.new ha he).Balanced where
  balance_eq _ := rfl
  state_of_token _ h := by cases h
  scope_of_token _ h := by cases h
  emitter_of_token _ h := by cases h

/-- Over every sequence of calls, a session has one start more than completions while its token is
in the map, and as many otherwise; a session that was finished or aborted has as many. -/
theorem starts_minus_completions (handle : SessionHandle) (hasEmitter : Bool) (calls : List HandleCall)
    (id : ToolSessionId) :
    let h := Run.exec HandleCall.run (EffectHandle.new handle hasEmitter) calls
    balance id h.emitted = (if (h.tokens id).isSome then 1 else 0) ∧
      ∀ pre e p, calls = pre ++ e :: p → e.Ends id → (∀ call ∈ p, ¬ call.Opens id) →
        balance id h.emitted = 0 := by
  intro h
  have hb : h.Balanced := Run.exec_invariant _ Balanced (fun _ call hb => HandleCall.run_balanced hb call)
    _ (new_balanced handle hasEmitter) calls
  refine ⟨hb.balance_eq id, fun pre e p hc he hp => ?_⟩
  have hs : h.handle.scope? id = none := by
    simp only [h, hc, Run.exec_append, Run.exec_cons]
    have hen := HandleCall.scope?_of_ends he (Run.exec HandleCall.run (.new handle hasEmitter) pre)
    generalize (e.run _).1 = ended at hen ⊢
    clear h hb hc
    induction p generalizing ended with
    | nil => exact hen
    | cons call p ih =>
      rw [List.forall_mem_cons] at hp
      exact ih hp.2 _ (HandleCall.scope?_run hen hp.1)
  have ht : ¬ (h.tokens id).isSome := fun ht => by
    have ho := hb.scope_of_token id ht
    rw [hs] at ho
    cases ho
  rw [hb.balance_eq, if_neg ht]

/-! ### A refinement of the handle without effects -/

def HandleCall.plain (h : SessionHandle) : HandleCall → SessionHandle × HandleAnswer
  | openSession scope toolName openInput sessionId answers =>
      (h.openToolSession scope toolName openInput sessionId answers).swap.map id .opened
  | send sessionId _ answers => (h, .unit (h.toolSessionSend sessionId answers))
  | sendBlocking sessionId _ answers => (h.toolSessionSendBlocking sessionId answers).swap.map id .sent
  | read sessionId _ answer => (h, .step (h.toolSessionRead sessionId answer))
  | finish sessionId answer => (h.toolSessionFinish sessionId answer).swap.map id .unit
  | abort sessionId answer => (h.toolSessionAbort sessionId answer).swap.map id .unit

theorem HandleCall.run_refines (h : EffectHandle) (call : HandleCall) :
    ((call.run h).1.handle, (call.run h).2) = call.plain h.handle := by
  cases call with
  | openSession scope t o sessionId answers =>
    rw [plain, ← h.openToolSession_refines]
    rfl
  | send sessionId inp answers =>
    obtain ⟨ha, hh⟩ := h.toolSessionSend_refines sessionId inp answers
    rw [plain, ← ha, ← hh]
    rfl
  | sendBlocking sessionId inp answers =>
    rw [plain, ← h.toolSessionSendBlocking_refines sessionId inp]
    rfl
  | read sessionId inp answer =>
    obtain ⟨ha, hh⟩ := h.toolSessionRead_refines sessionId inp answer
    rw [plain, ← ha, ← hh]
    rfl
  | finish sessionId answer =>
    cases hs : h.handle.scope? sessionId <;>
      simp [run, plain, toolSessionFinish, SessionHandle.toolSessionFinish, hs]
  | abort sessionId answer =>
    rw [plain, ← h.toolSessionAbort_refines]
    rfl

/-- Whatever was emitted before and whether or not there is an emitter, every sequence of calls is
answered, and leaves the sessions, as if effects did not exist. -/
theorem effects_do_not_interfere (h : EffectHandle) (calls : List HandleCall) :
    Run.outputs HandleCall.run h calls = Run.outputs HandleCall.plain h.handle calls ∧
      (Run.exec HandleCall.run h calls).handle = Run.exec HandleCall.plain h.handle calls := by
  have hr (h : EffectHandle) (call : HandleCall) := HandleCall.run_refines h call
  simp only [Prod.ext_iff] at hr
  constructor
  · refine Run.outputs_eq_of_bisim _ _ (fun _ => True) (fun h plain => h.handle = plain) ?_ _ _ rfl calls
      fun _ _ => trivial
    rintro h _ call - rfl
    exact hr h call
  · exact (Run.exec_map _ _ (fun h call => (hr h call).1.symm) h calls).symm

end AgentiumOs.Tools
