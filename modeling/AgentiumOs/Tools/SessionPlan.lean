import AgentiumOs.Tools.SessionHandle
import AgentiumOs.Repository.ContentHash
import AgentiumOs.Lib.Program

/-! The execution of a plan on a tool session. A plan has one step; a send that finds no
session is preceded by an open. The executor is a program over the operations of the
session handle, so what it did in a run can be read off the program. -/

namespace AgentiumOs.Tools

open AgentiumOs.Core Lib Lib.Program
open Lib.Json (Value)

/-- What is read of an archived result: a page, of the lines that match if there is a pattern. -/
structure ArchiveRead where
  archiveRef : ShortRef
  offset : ℕ
  limit : ℕ
  grep : Option String

structure ArchivePage where
  output : String
  hasMore : Bool
  nextOffset : ℕ

inductive ToolSessionOp where
  | open (initialInput : Option Value) (reason : Option String)
  | send (input : Value) (reason : Option String)
  | searchRead (read : ArchiveRead) (reason : Option String)
  | pageRead (read : ArchiveRead) (reason : Option String)
  | finish (reason : Option String)
  | abort (reason : Option String)

def archiveRefNotFoundToolResult (op : String) (archiveRef : ShortRef) : Value :=
  .object [
    ("status", .string "error"),
    ("op", .string op),
    ("archive_ref", .string archiveRef.display),
    ("has_more", .bool false),
    ("next_offset", .number (.integer 0)),
    ("message", .string ("Archive ref " ++ archiveRef.display ++ " is not available in this session. " ++
      "Use an @N handle from a prior tool Send in the transcript (only after that Send completes). " ++
      "If the ref is stale or mistyped, pick the correct @N from the latest tool results and retry.")),
    ("error", .object [
      ("kind", .string "ArchiveRefNotFound"),
      ("code", .string "archive_ref_not_found"),
      ("disposition", .string "LlmCorrectable")])]

def planSendToolErrorValue (toolName : String) (sessionId : ToolSessionId) (failure : ToolFailure) : Value :=
  .object [
    ("status", .string "error"),
    ("tool_name", .string toolName),
    ("session_id", .string sessionId.text),
    ("error", .object [
      ("kind", .string failure.kind.debug),
      ("message", .string failure.message),
      ("retryable", .bool failure.retryable),
      ("disposition", .string failure.classified.disposition.text),
      ("code", .string failure.classified.code),
      ("hint", (failure.classified.hint.map Value.string).getD .null),
      ("retry_after_ms", (failure.classified.retryAfterMs.map fun ms => Value.number (.integer ms)).getD .null)]),
    ("result", .null)]

def sendUnavailableResult (toolName reason : String) : Value :=
  .object [
    ("status", .string "error"),
    ("tool_name", .string toolName),
    ("has_more", .bool false),
    ("message", .string ("Could not run " ++ toolName ++ ": " ++ reason)),
    ("error", .object [
      ("kind", .string "ToolUnavailable"),
      ("code", .string "tool_unavailable"),
      ("disposition", .string "LlmCorrectable")]),
    ("result", .null)]

def sendDoneJson (result : SendResult) : Value :=
  .object [
    ("status", .string "done"),
    ("output", .string result.header),
    ("archive_ref", .string result.archiveRef.display),
    ("result", result.output)]

def duplicateSendJson (archiveRef : ShortRef) (header : String) : Value :=
  .object [
    ("status", .string "duplicate"),
    ("op", .string "DuplicateSend"),
    ("archive_ref", .string archiveRef.display),
    ("output", .string header),
    ("duplicate", .bool true),
    ("message", .string ("Identical Send already materialized as " ++ archiveRef.display ++
      "; read it instead of re-issuing.")),
    ("result", .null)]

def openJson (sessionId : ToolSessionId) (toolName : String) : Value :=
  .object [("status", .string "open"), ("session_id", .string sessionId.text), ("tool_name", .string toolName)]

def readJson (page : ArchivePage) : Value :=
  .object [
    ("status", .string "done"),
    ("output", .string page.output),
    ("has_more", .bool page.hasMore),
    ("next_offset", .number (.integer page.nextOffset))]

def statusJson (status : String) : Value := .object [("status", .string status)]

inductive PlanOp where
  | metadata (toolName : String)
  | findSession (scope : RuntimeScope) (toolName : String)
  | findDuplicate (contextId signature : String)
  | openInput (sessionId : ToolSessionId)
  | openSession (scope : RuntimeScope) (toolName : String) (input : Value)
  | send (sessionId : ToolSessionId) (input : Value)
  | finish (sessionId : ToolSessionId)
  | abort (sessionId : ToolSessionId) (reason : Option String)
  | readArchive (contextId : String) (read : ArchiveRead)

def PlanOp.Answer : PlanOp → Type
  | metadata _ => Option ToolFunctionMetadata
  | findSession _ _ => Option ToolSessionId
  | findDuplicate _ _ => Option (ShortRef × String)
  | openInput _ => Option Value
  | openSession _ _ _ => Except BamlRtError ToolSessionId
  | send _ _ => Except BamlRtError SendOutcome
  | finish _ => Except BamlRtError Unit
  | abort _ _ => Except BamlRtError Unit
  | readArchive _ _ => Except BamlRtError ArchivePage

abbrev PlanM := ExceptT BamlRtError (Program PlanOp PlanOp.Answer)

/-- An operation of the runtime, with its answer. -/
def ask (op : PlanOp) : PlanM op.Answer := request op

structure JsonTexts where
  parse : String → Except String Value
  compact : Value → String

def normalizePlanInput (J : JsonTexts) : Value → Except BamlRtError Value
  | .string raw => (J.parse raw).mapError fun e => .stepPlanCorrectable (.invalidPlanInputJson e)
  | other => .ok other

/-- The keys are sorted at every depth, as the hasher sorts them. -/
def canonicalJson (value : Value) : Value := Repository.sortJsonKeys value

def sendSignature (J : JsonTexts) (toolName : String) (input : Value) : String :=
  toolName ++ "\x00" ++ J.compact (canonicalJson input)

/-- The NUL ends the name, and what follows is the same text for values that differ in the order of
their keys. -/
theorem send_signature_eq_iff (J : JsonTexts) (hJ : Set.InjOn J.compact {v | v.KeySorted}) {tool tool' : String}
    (ht : '\x00' ∉ tool.toList) (ht' : '\x00' ∉ tool'.toList) {v w : Value} (hv : v.UniqueKeys)
    (hw : w.UniqueKeys) :
    sendSignature J tool v = sendSignature J tool' w ↔ tool = tool' ∧ v.Reorders w := by
  have hc : J.compact (canonicalJson v) = J.compact (canonicalJson w) ↔ v.Reorders w := by
    rw [← Repository.sortJsonKeys_eq_iff hv]
    exact hJ.eq_iff (Repository.keySorted_sortJsonKeys hv) (Repository.keySorted_sortJsonKeys hw)
  rw [← hc]
  constructor
  · intro h
    have hl := congrArg String.toList h
    simp only [sendSignature, String.toList_append, List.append_assoc] at hl
    obtain ⟨hn, hi⟩ := Text.lead_unique ht ht' hl
    exact ⟨String.toList_inj.mp hn, String.toList_inj.mp hi⟩
  · rintro ⟨rfl, h⟩
    rw [sendSignature, sendSignature, h]

/-- Texts that tell all values apart. -/
def hexTexts : JsonTexts := ⟨fun _ => .error "", fun v => Repository.hexEncode v.code⟩

theorem reordered_send_same_signature : sendSignature hexTexts "calc" (.object [("a", .null), ("b", .null)]) =
      sendSignature hexTexts "calc" (.object [("b", .null), ("a", .null)]) := by
  have hu : ∀ k l : String, k ≠ l → (Value.object [(k, .null), (l, .null)]).UniqueKeys :=
    fun k l h => .object (by simpa using .null) (by simpa using h)
  have hJ := Repository.SourceBundle.hexEncode_injective.comp Json.Value.code_injective
  exact (send_signature_eq_iff _ hJ.injOn (by decide) (by decide) (hu _ _ (by decide)) (hu _ _ (by decide))).mpr
    ⟨rfl, .members (.swap _ _ _)⟩

structure PlanContext where
  scope : RuntimeScope
  toolName : String
  oneShotStrict : Bool
  autoOpened : Bool

structure PlanVars where
  sessionId : Option ToolSessionId
  lastOutput : Option Value
  sendCompleted : Bool

/-- After a step: go on, or return a value at once. -/
inductive Flow where
  | next (vars : PlanVars)
  | returns (value : Value)

def recoverStaleSession (ctx : PlanContext) (staleSession : ToolSessionId) : PlanM ToolSessionId := do
  let refreshed : Option ToolSessionId ← ask (.findSession ctx.scope ctx.toolName)
  match refreshed with
  | some fresh =>
      if fresh ≠ staleSession then return fresh
      else throw (.sessionLifecycle (.toolSessionNotFound staleSession.text))
  | none => throw (.sessionLifecycle (.toolSessionNotFound staleSession.text))

/-- A failure to finish the stale session is only logged. -/
def reopenLogicalSessionAfterStaleClose (ctx : PlanContext) (staleSession : ToolSessionId) :
    PlanM ToolSessionId := do
  let known : Option Value ← ask (.openInput staleSession)
  let _ ← ask (.finish staleSession)
  let opened : Except BamlRtError ToolSessionId ←
    ask (.openSession ctx.scope ctx.toolName (known.getD emptyOpenInput))
  ofExcept opened

/-- An open without input, with a null or with an empty object. -/
def unitOrNullOpen : Option Value → Bool
  | none => true
  | some .null => true
  | some (.object []) => true
  | some _ => false

def openInputOf (initialInput : Option Value) : Value :=
  match initialInput with
  | some .null | none => emptyOpenInput
  | some input => input

def openFresh (ctx : PlanContext) (vars : PlanVars) (initialInput : Option Value) : PlanM Flow := do
  let opened : Except BamlRtError ToolSessionId ←
    ask (.openSession ctx.scope ctx.toolName (openInputOf initialInput))
  match opened with
  | .ok session =>
      return .next { vars with lastOutput := some (openJson session ctx.toolName), sessionId := some session }
  | .error e =>
      if ctx.autoOpened then return .returns (sendUnavailableResult ctx.toolName e.display) else throw e

def reopenReason : String := "reopen requested by planner open with non-empty input"

def openStep (ctx : PlanContext) (vars : PlanVars) (initialInput : Option Value) : PlanM Flow :=
  match vars.sessionId with
  | some existing =>
      if unitOrNullOpen initialInput then
        return .next { vars with lastOutput := some (openJson existing ctx.toolName) }
      else do
        let aborted : Except BamlRtError Unit ← ask (.abort existing (some reopenReason))
        ofExcept aborted
        openFresh ctx vars initialInput
  | none => openFresh ctx vars initialInput

def reportFailure (ctx : PlanContext) (vars : PlanVars) (active : ToolSessionId) (failure : ToolFailure) :
    PlanM PlanVars :=
  match failure.classified.disposition with
  | .fatal => throw (toolFailureToBamlToolExecutionError failure)
  | .hostRetriable | .llmCorrectable | .informAndContinue =>
      return { vars with lastOutput := some (planSendToolErrorValue ctx.toolName active failure) }

def maxHostRetries : ℕ := 1

/-- The loop over the outcomes of a send. Only a session that the tool says was closed is opened
again before the retry. -/
def settleSend (ctx : PlanContext) (input : Value) :
    (retries : ℕ) → PlanVars → (active : ToolSessionId) → Except BamlRtError SendOutcome → PlanM PlanVars
  | _, vars, _, .ok (.completed result) =>
      return { vars with lastOutput := some (sendDoneJson result), sendCompleted := true }
  | 0, vars, active, .ok (.toolFailed failure) => reportFailure ctx vars active failure
  | retries + 1, vars, active, .ok (.toolFailed failure) =>
      if shouldHostRetry failure.classified then
        if failure.classified.code = "mcp_logical_session_closed" then do
          let fresh ← reopenLogicalSessionAfterStaleClose ctx active
          let outcome : Except BamlRtError SendOutcome ← ask (.send fresh input)
          settleSend ctx input retries { vars with sessionId := some fresh } fresh outcome
        else do
          let outcome : Except BamlRtError SendOutcome ← ask (.send active input)
          settleSend ctx input retries vars active outcome
      else reportFailure ctx vars active failure
  | 0, _, _, .error e => throw e
  | retries + 1, vars, active, .error e =>
      if shouldHostRetryBamlError e then do
        let outcome : Except BamlRtError SendOutcome ← ask (.send active input)
        settleSend ctx input retries vars active outcome
      else throw e

/-- A session that is not found is looked up again before the outcome is settled. -/
def settleFirst (ctx : PlanContext) (vars : PlanVars) (current : ToolSessionId) (input : Value) :
    Except BamlRtError SendOutcome → PlanM PlanVars
  | .error (.sessionLifecycle (.toolSessionNotFound _)) => do
      let fresh ← recoverStaleSession ctx current
      let outcome : Except BamlRtError SendOutcome ← ask (.send fresh input)
      settleSend ctx input maxHostRetries { vars with sessionId := some fresh } fresh outcome
  | outcome => settleSend ctx input maxHostRetries vars current outcome

def sendOn (ctx : PlanContext) (vars : PlanVars) (current : ToolSessionId) (input : Value) : PlanM PlanVars := do
  let outcome : Except BamlRtError SendOutcome ← ask (.send current input)
  settleFirst ctx vars current input outcome

def sendStep (J : JsonTexts) (ctx : PlanContext) (vars : PlanVars) (input : Value) : PlanM PlanVars :=
  match vars.sessionId with
  | none => throw (.invalidArgument "send step before open: FSM requires Open before Send")
  | some current => do
      let normalized ← ofExcept (normalizePlanInput J input)
      let duplicate : Option (ShortRef × String) ←
        ask (.findDuplicate ctx.scope.contextId (sendSignature J ctx.toolName normalized))
      match duplicate with
      | some (archiveRef, header) =>
          return { vars with lastOutput := some (duplicateSendJson archiveRef header), sendCompleted := true }
      | none => sendOn ctx vars current normalized

/-- A reference that is not there is an answer for the model, not an error. -/
def readStep (ctx : PlanContext) (vars : PlanVars) (op : String) (read : ArchiveRead) : PlanM PlanVars := do
  let page : Except BamlRtError ArchivePage ← ask (.readArchive ctx.scope.contextId read)
  match page with
  | .ok page => return { vars with lastOutput := some (readJson page) }
  | .error (.invalidArgument _) =>
      return { vars with lastOutput := some (archiveRefNotFoundToolResult op read.archiveRef) }
  | .error e => throw e

def finishOutput (lastOutput : Option Value) : Option Value :=
  if (lastOutput.bind (Value.get "status")).bind Value.asStr = some "done" then lastOutput
  else some (statusJson "finished")

def finishStep (vars : PlanVars) : PlanM PlanVars := do
  match vars.sessionId with
  | some session =>
      let finished : Except BamlRtError Unit ← ask (.finish session)
      ofExcept finished
  | none => pure ()
  return { vars with sessionId := none, lastOutput := finishOutput vars.lastOutput }

def abortStep (vars : PlanVars) (reason : Option String) : PlanM PlanVars := do
  match vars.sessionId with
  | some session =>
      let aborted : Except BamlRtError Unit ← ask (.abort session reason)
      ofExcept aborted
  | none => pure ()
  return { vars with sessionId := none, lastOutput := some (statusJson "aborted") }

def executeStep (J : JsonTexts) (ctx : PlanContext) (vars : PlanVars) : ToolSessionOp → PlanM Flow
  | .open initialInput _ => openStep ctx vars initialInput
  | .send input _ => do return .next (← sendStep J ctx vars input)
  | .searchRead read _ => do return .next (← readStep ctx vars "SearchRead" read)
  | .pageRead read _ => do return .next (← readStep ctx vars "PageRead" read)
  | .finish _ => do return .next (← finishStep vars)
  | .abort reason => do return .next (← abortStep vars reason)

def executeSteps (J : JsonTexts) (ctx : PlanContext) : PlanVars → List ToolSessionOp → PlanM Flow
  | vars, [] => return .next vars
  | vars, step :: steps => do
      match ← executeStep J ctx vars step with
      | .next vars => executeSteps J ctx vars steps
      | .returns value => return .returns value

def autoAbortReason : String := "auto-abort after failed Send on auto-opened session"

/-- Sessions of one-shot strict tools are finished after a send that is done, and a session that
was opened for a send is aborted if the send is not. What they answer is only logged. -/
def cleanUp (ctx : PlanContext) (vars : PlanVars) : PlanM Unit :=
  let finishes := (ctx.autoOpened && ctx.oneShotStrict) ||
    (!ctx.autoOpened && ctx.oneShotStrict && vars.sendCompleted)
  match vars.sessionId with
  | none => return ()
  | some session =>
      if ctx.autoOpened || finishes then
        if vars.sendCompleted then
          if finishes then do
            let _ ← ask (.finish session)
            return ()
          else return ()
        else do
          let _ ← ask (.abort session (some autoAbortReason))
          return ()
      else return ()

/-- How a plan begins: with a value at once, or with its steps. -/
inductive Opening where
  | returns (value : Value)
  | steps (autoOpened : Bool)

/-- Without a session a send is preceded by an open, if the tool can be opened without an input,
and there is nothing to finish or to abort. -/
def opening (toolName : String) (metadata : Option ToolFunctionMetadata) (sessionId : Option ToolSessionId) :
    ToolSessionOp → Opening
  | .send _ _ =>
      match sessionId with
      | some _ => .steps false
      | none =>
          if (metadata.map fun m => schemaAllowsEmptyOrOptionalOpenInput m.openInputSchema).getD false then
            .steps true
          else .returns (sendUnavailableResult toolName
            "this tool requires configuration before use and cannot be invoked directly")
  | .finish _ => if sessionId.isNone then .returns (statusJson "finished") else .steps false
  | .abort _ => if sessionId.isNone then .returns (statusJson "aborted") else .steps false
  | .open _ _ | .searchRead _ _ | .pageRead _ _ => .steps false

def autoOpen : ToolSessionOp := .open none (some "auto-open for send fragment with no open session")

/-- The cleaning up and the output of the last step. -/
def conclude (ctx : PlanContext) (vars : PlanVars) : PlanM Value := do
  cleanUp ctx vars
  match vars.lastOutput with
  | some output => return output
  | none => throw (.invalidArgument ("Tool session plan produced no output; expected at least one step " ++
      "to yield a result. This is a runtime invariant violation — every plan execution must produce a " ++
      "non-null tool_result."))

def executeFrom (J : JsonTexts) (ctx : PlanContext) (sessionId : Option ToolSessionId) (step : ToolSessionOp) :
    PlanM Value := do
  let steps := if ctx.autoOpened then [autoOpen, step] else [step]
  match ← executeSteps J ctx ⟨sessionId, none, false⟩ steps with
  | .returns value => return value
  | .next vars => conclude ctx vars

/-- The first check for a send that was already made. -/
def firstDuplicate (J : JsonTexts) (scope : RuntimeScope) (toolName : String) :
    ToolSessionOp → PlanM (Option (ShortRef × String))
  | .send input _ => do
      let normalized ← ofExcept (normalizePlanInput J input)
      ask (.findDuplicate scope.contextId (sendSignature J toolName normalized))
  | _ => return none

/-- A send in the entry phase does not look for a session. -/
def initialSession (scope : RuntimeScope) (toolName : String) (sourceBamlFunction : Option String)
    (step : ToolSessionOp) : PlanM (Option ToolSessionId) :=
  match step with
  | .send _ _ =>
      if (sourceBamlFunction.map fun name => Text.endsWith name "__entry").getD false then return none
      else ask (.findSession scope toolName)
  | _ => ask (.findSession scope toolName)

def executeToolSessionPlan (J : JsonTexts) (scope : RuntimeScope) (tool : ToolName) (step : ToolSessionOp)
    (sourceBamlFunction : Option String) : PlanM Value := do
  let toolName := tool.display
  let metadata : Option ToolFunctionMetadata ← ask (.metadata toolName)
  let sessionId ← initialSession scope toolName sourceBamlFunction step
  match ← firstDuplicate J scope toolName step with
  | some (archiveRef, header) => return duplicateSendJson archiveRef header
  | none =>
      match opening toolName metadata sessionId step with
      | .returns value => return value
      | .steps autoOpened =>
          executeFrom J ⟨scope, toolName, metadata.any fun m => m.OneShotStrict, autoOpened⟩ sessionId step

end AgentiumOs.Tools
