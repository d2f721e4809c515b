import AgentiumOs.Lib.Fallible
import AgentiumOs.Lib.Run
import AgentiumOs.Tools.SessionPlan

/-! The loop of hops in which a model uses a tool session. Whether a send was made is read off the
results of the hops: a result with a reference to the archive passes for that of a send. -/

namespace AgentiumOs.Executor

open List Lib Tools
open Lib.Json (Value)

inductive StepStatus where
  | open
  | done
  | finished
  | aborted
  | sent
  | streaming
  | suspended
  | duplicate
  deriving DecidableEq

/-- A failure that the model can correct counts as done. -/
def StepStatus.parse : String → Option StepStatus
  | "open" => some .open
  | "done" | "error" => some .done
  | "finished" => some .finished
  | "aborted" => some .aborted
  | "sent" => some .sent
  | "streaming" => some .streaming
  | "suspended" => some .suspended
  | "duplicate" => some .duplicate
  | _ => none

def StepStatus.asStr : StepStatus → String
  | .open => "open"
  | .done | .sent | .streaming | .suspended => "done"
  | .finished => "finished"
  | .aborted => "aborted"
  | .duplicate => "duplicate"

inductive TerminalReason where
  | finished
  | aborted
  | maxStepsExhausted
  | missingStatus
  deriving DecidableEq

inductive Phase where
  | entry
  | active (tool : String) (hasDone : Bool)
  | terminal (reason : TerminalReason)
  deriving DecidableEq

namespace Phase

def isSessionOpen : Phase → Bool
  | active .. => true
  | _ => false

def isTerminal : Phase → Bool
  | terminal _ => true
  | _ => false

def selectedTool : Phase → Option String
  | active tool _ => some tool
  | _ => none

end Phase

inductive StepOp where
  | open
  | send
  | duplicateSend
  | read
  | finish
  | abort
  | readonlyFinish
  deriving DecidableEq

/-- What was the last step; what is only shown to the model is left out. -/
structure LastStepContext where
  op : Option StepOp := none
  status : Option String := none
  deriving DecidableEq

def inferOp (phaseBeforeHop : Phase) (status : StepStatus) (result : Value) : Option StepOp :=
  let archived := (result.get "archive_ref").isSome
  let paged := (result.get "has_more").isSome
  let sendOrRead := if archived then some StepOp.send else if paged then some .read else none
  match phaseBeforeHop, status with
  | .entry, .open => some .open
  | .entry, .done => if paged then some .read else if archived then some .send else none
  | .entry, .duplicate | .active .., .duplicate => some .duplicateSend
  | .entry, _ | .terminal _, _ => none
  | .active _ true, .finished => some .finish
  | .active _ true, .aborted => some .abort
  | .active .., _ => sendOrRead

def inferLastStepContext (phaseBeforeHop : Phase) (status : StepStatus) (result : Value) : LastStepContext :=
  ⟨inferOp phaseBeforeHop status result, some status.asStr⟩

def textAt (key : String) (value : Value) : Option String := (value.get key).bind Value.asStr

def extractStatus (result : Value) : Option StepStatus :=
  ((textAt "status" result).or ((result.get "output").bind (textAt "status"))).bind StepStatus.parse

def resultIsReadOnlyFinish (result : Value) : Bool :=
  textAt "op" result = some "ReadOnlyFinish" || (result.get "step").bind (textAt "op") = some "ReadOnlyFinish"

def llmStepOp (result : Value) : Option String := (textAt "op" result).or ((result.get "step").bind (textAt "op"))

def llmStepInput (result : Value) : Option Value :=
  (result.get "input").or ((result.get "step").bind (Value.get "input"))

def isRedundantRepeatSend (result : Value) (lastStep : LastStepContext) (steps : List Value) : Bool :=
  llmStepOp result = some "Send" && lastStep = ⟨some .send, some "done"⟩ && (llmStepInput result).isSome &&
    steps.any fun step =>
      llmStepOp step = some "Send" && extractStatus step = some .done && llmStepInput step = llmStepInput result

def unifiedEntryStatusFallback (result : Value) : Option StepStatus :=
  let v := ((result.get "output").filter (· ≠ .null)).getD result
  if textAt "action" v = some "AskUser" then some .done
  else if (v.get "goal").isSome && (v.get "nodes").isSome then some .finished
  else none

def hopStatus (phase : Phase) (result : Value) : Option StepStatus :=
  match extractStatus result with
  | some status => some status
  | none =>
      if resultIsReadOnlyFinish result then some .done
      else if phase = .entry then unifiedEntryStatusFallback result
      else none

/-- The name of the function of a phase, and the tool that a result names. -/
structure Naming where
  functionName : Phase → String
  extractToolBinding : Value → Option String

def nextPhase (N : Naming) (phase : Phase) (status : StepStatus) (result : Value) : Except BamlRtError Phase :=
  let violation text := .error (.invalidArgument
    ("step executor contract violation (" ++ N.functionName phase ++ "): " ++ text))
  match phase, status with
  | .entry, .done | .entry, .duplicate => .ok .entry
  | .entry, .finished => .ok (.terminal .finished)
  | .entry, .aborted => .ok (.terminal .aborted)
  | .entry, .open =>
      match N.extractToolBinding result with
      | some tool => .ok (.active tool false)
      | none => .error (.invalidArgument
          ("step executor (" ++ N.functionName phase ++ "): Open hop yielded no tool_name"))
  | .entry, _ => violation ("expected ENTRY hop to yield status 'open', 'done', or unified terminal, got '" ++
      status.asStr ++ "'")
  | .active _ hasDone, .finished =>
      if hasDone then .ok (.terminal .finished)
      else violation "Finish is invalid before any Send completed with status done — emit Send first"
  | .active .., .aborted => .ok (.terminal .aborted)
  | .active .., .open => violation "unexpected nested Open while session is active"
  | .active tool hasDone, _ =>
      let op := inferOp phase status result
      .ok (.active tool (hasDone || op = some .send || op = some .duplicateSend))
  | .terminal reason, _ => .ok (.terminal reason)

structure LoopState where
  phase : Phase := .entry
  lastStep : LastStepContext := {}
  steps : List Value := []

def hopStep (N : Naming) (s : LoopState) (result : Value) : Except BamlRtError LoopState :=
  match hopStatus s.phase result with
  | none => .ok { s with phase := .terminal .missingStatus }
  | some status => do
      let steps := s.steps ++ [result]
      if resultIsReadOnlyFinish result then
        return ⟨.terminal .finished, ⟨some .readonlyFinish, some "finished"⟩, steps⟩
      let lastStep := inferLastStepContext s.phase status result
      if isRedundantRepeatSend result s.lastStep s.steps then return ⟨.terminal .finished, lastStep, steps⟩
      let phase ← nextPhase N s.phase status result
      return ⟨phase, lastStep, steps⟩

/-- What a hop did: a step of the session plan, a tool call outside of a session, or nothing, when
what the model wrote is passed on. -/
inductive Hop where
  | opened (sessionId : ToolSessionId) (toolName : String)
  | sendDone (result : SendResult)
  | sendFailed (toolName : String) (sessionId : ToolSessionId) (failure : ToolFailure)
  | sendUnavailable (toolName reason : String)
  | duplicateSend (archiveRef : ShortRef) (header : String)
  | read (page : ArchivePage)
  | readNotFound (op : String) (archiveRef : ShortRef)
  | finished
  | aborted
  | oneShot (value : Value)
  | passthrough (value : Value)

def Hop.result : Hop → Value
  | opened sessionId toolName => openJson sessionId toolName
  | sendDone result => sendDoneJson result
  | sendFailed toolName sessionId failure => planSendToolErrorValue toolName sessionId failure
  | sendUnavailable toolName reason => sendUnavailableResult toolName reason
  | duplicateSend archiveRef header => duplicateSendJson archiveRef header
  | read page => readJson page
  | readNotFound op archiveRef => archiveRefNotFoundToolResult op archiveRef
  | finished => statusJson "finished"
  | aborted => statusJson "aborted"
  | oneShot value | passthrough value => value

/-- A hop of the loop, which ends at the first that fails. -/
def loopStep (N : Naming) (s : Except BamlRtError LoopState) (hop : Except BamlRtError Hop) :
    Except BamlRtError LoopState × Unit :=
  (do
    let s ← s
    if s.phase.isTerminal then return s
    hopStep N s (← hop).result, ())

def runStepExecutorLoop (N : Naming) (hops : List (Except BamlRtError Hop)) : Except BamlRtError LoopState :=
  Run.exec (loopStep N) (.ok {}) hops

/-- `last` and the session context of the result are left out. -/
structure StepExecutorResult where
  steps : List Value
  selectedTool : Option String

/-- A run that makes at most `maxSteps` hops, and its result. -/
def stepExecutorResult (N : Naming) (maxSteps : ℕ) (hops : ℕ → Except BamlRtError Hop) :
    Except BamlRtError StepExecutorResult := do
  let s ← runStepExecutorLoop N ((List.range maxSteps).map hops)
  let phase := if s.phase.isTerminal = false ∧ maxSteps ≤ s.steps.length then .terminal .maxStepsExhausted else s.phase
  return ⟨s.steps, phase.selectedTool⟩

/-- The tools of the sessions that the hops of a run opened. -/
def boundTools (N : Naming) (hops : List (Except BamlRtError Hop)) : List String :=
  Run.collect (loopStep N) (fun s hop =>
      match s, (loopStep N s hop).1 with
      | .ok s, .ok s' => if s.phase = .entry then s'.phase.selectedTool.toList else []
      | _, _ => [])
    (.ok {}) hops

/-- The hops of a run that were made while the session was open. -/
def sessionHops (N : Naming) (hops : List (Except BamlRtError Hop)) : List Hop :=
  Run.collect (loopStep N) (fun s hop =>
      match s, hop with
      | .ok s, .ok hop => if s.phase.isSessionOpen then [hop] else []
      | _, _ => [])
    (.ok {}) hops

def passesForSend (result : Value) : Prop := extractStatus result = some .duplicate ∨ (result.get "archive_ref").isSome

/-- A hop whose result is not taken for something else: not a read of a reference that is missing, a
send that was made before, or a value with such marks. -/
def Hop.Plain : Hop → Prop
  | duplicateSend .. | readNotFound .. => False
  | oneShot value | passthrough value => ¬ passesForSend value ∧ resultIsReadOnlyFinish value = false
  | _ => True

theorem passesForSend_of_inferOp (hs : extractStatus result = some st)
    (h : inferOp (.active tool hasDone) st result = some .send ∨
      inferOp (.active tool hasDone) st result = some .duplicateSend) :
    passesForSend result := by
  by_cases ha : (result.get "archive_ref").isSome
  · exact .inr ha
  · left
    cases st <;> cases hasDone <;> simp [inferOp, ha] at h
    all_goals exact hs

section

variable {N : Naming} {s s' : LoopState} {result : Value} {tool : String} {ha : Bool}

theorem hopStep_cases (h : hopStep N s result = .ok s') : s'.phase = .terminal .missingStatus ∨
      s'.phase = .terminal .finished ∧ (resultIsReadOnlyFinish result ∨ s.lastStep.op = some .send) ∨
      ∃ st, hopStatus s.phase result = some st ∧ resultIsReadOnlyFinish result = false ∧
        nextPhase N s.phase st result = .ok s'.phase ∧ s'.lastStep.op = inferOp s.phase st result ∧
        s'.steps = s.steps ++ [result] := by
  rw [hopStep] at h
  split at h
  · cases h
    exact .inl rfl
  · rename_i st hs
    split at h
    · cases h
      exact .inr (.inl ⟨rfl, .inl ‹_›⟩)
    · rename_i hnot
      split at h
      · rename_i hr
        simp only [isRedundantRepeatSend, Bool.and_eq_true, decide_eq_true_eq] at hr
        cases h
        exact .inr (.inl ⟨rfl, .inr (congrArg LastStepContext.op hr.1.1.2)⟩)
      · obtain ⟨phase, hp, h⟩ := Fallible.bind_eq_ok.mp h
        cases h
        exact .inr (.inr ⟨st, hs, Bool.eq_false_iff.mpr hnot, hp, rfl, rfl⟩)

theorem extractStatus_of_hopStatus (h : hopStatus s.phase result = some status)
    (hp : s.phase = .active tool ha) (hnot : resultIsReadOnlyFinish result = false) :
    extractStatus result = some status := by
  rw [hopStatus, hp] at h
  split at h
  · rwa [← h]
  · simp [hnot] at h

theorem hopStep_active (h : hopStep N s result = .ok s') (hp : s'.phase = .active tool ha) :
    (s.phase = .entry ∧ ha = false ∧ s'.lastStep.op ≠ some .send) ∨
      ∃ b, s.phase = .active tool b ∧ (ha = true → b = true ∨ passesForSend result) ∧
        (b = true → ha = true) ∧ (s'.lastStep.op = some .send → ha = true) := by
  obtain he | ⟨he, -⟩ | ⟨st, hs, hnot, hn, hop, -⟩ := hopStep_cases h
  · cases hp.symm.trans he
  · cases hp.symm.trans he
  · rw [hp] at hn
    cases hbefore : s.phase with
    | entry =>
      rw [hbefore] at hn hop
      cases st with
      | «open» =>
        simp only [nextPhase] at hn
        split at hn <;> cases hn
        exact .inl ⟨rfl, rfl, by simp [hop, inferOp]⟩
      | _ => cases hn
    | active tool' b =>
      have hextract := extractStatus_of_hopStatus hs hbefore hnot
      rw [hbefore] at hn hop
      cases st with
      | finished => cases b <;> cases hn
      | aborted | «open» => cases hn
      | _ =>
        cases hn
        refine .inr ⟨b, rfl, fun hd => ?_, fun hd => by simp [hd], fun hsend => by simp [← hop, hsend]⟩
        simp only [Bool.or_eq_true, decide_eq_true_eq] at hd
        exact hd.elim (fun hd => hd.imp_right fun hop => passesForSend_of_inferOp hextract (.inl hop))
          fun hop => .inr (passesForSend_of_inferOp hextract (.inr hop))
    | terminal reason =>
      rw [hbefore] at hn
      cases hn

theorem hopStep_finished (h : hopStep N s result = .ok s') (hp : s.phase = .active tool ha)
    (hf : s'.phase = .terminal .finished) (hl : s.lastStep.op = some .send → ha = true) :
    ha = true ∨ resultIsReadOnlyFinish result := by
  obtain hend | ⟨-, ho | hsend⟩ | ⟨st, -, -, hn, -⟩ := hopStep_cases h
  · cases hf.symm.trans hend
  · exact .inr ho
  · exact .inl (hl hsend)
  · rw [hp, hf] at hn
    cases ha with
    | true => exact .inl rfl
    | false => cases st <;> cases hn

end

theorem Hop.Plain.sendDone {hop : Hop} (h : hop.Plain) (hp : passesForSend hop.result) :
    ∃ result, hop = .sendDone result := by
  cases hop with
  | sendDone result => exact ⟨result, rfl⟩
  | duplicateSend | readNotFound => exact h.elim
  | oneShot v | passthrough v => exact absurd hp h.1
  | _ => rcases hp with hp | hp <;> cases hp

theorem Hop.Plain.not_readOnlyFinish {hop : Hop} (h : hop.Plain) : resultIsReadOnlyFinish hop.result = false := by
  cases hop with
  | duplicateSend | readNotFound => exact h.elim
  | oneShot v | passthrough v => exact h.2
  | _ => rfl

section

variable {N : Naming} {hops : List (Except BamlRtError Hop)} {s : LoopState} {tool : String} {hasDone : Bool}

theorem sessionHops_concat (hs : runStepExecutorLoop N hops = .ok s) (hop : Hop) :
    sessionHops N (hops ++ [.ok hop]) = sessionHops N hops ++ if s.phase.isSessionOpen then [hop] else [] := by
  rw [sessionHops, Run.collect_concat, show Run.exec (loopStep N) (.ok {}) hops = .ok s from hs]
  rfl

theorem exists_passes_of_hasDone (hs : runStepExecutorLoop N hops = .ok s) (hp : s.phase = .active tool hasDone) :
    (hasDone = true → ∃ hop ∈ sessionHops N hops, passesForSend hop.result) ∧
      (s.lastStep.op = some .send → hasDone = true) := by
  -- over the hops from the last on
  induction hops using reverseRecOn generalizing s tool hasDone with
  | nil =>
    cases hs
    cases hp
  | append_singleton hops hop ih =>
    rw [runStepExecutorLoop, Run.exec_concat] at hs
    obtain ⟨before, hb, hs⟩ := Fallible.bind_eq_ok.mp hs
    split at hs
    · cases hs
      rename_i ht
      rw [hp] at ht
      cases ht
    · obtain ⟨hop, rfl, hs⟩ := Fallible.bind_eq_ok.mp hs
      rw [sessionHops_concat hb]
      obtain ⟨-, rfl, hop⟩ | ⟨done, ho, hd, hkeeps, hl⟩ := hopStep_active hs hp
      · exact ⟨nofun, fun hsend => absurd hsend hop⟩
      · refine ⟨fun htrue => ?_, hl⟩
        rcases hd htrue with hd | hpasses
        · obtain ⟨e, h, hpasses⟩ := (ih hb ho).1 hd
          exact ⟨e, mem_append_left _ h, hpasses⟩
        · refine ⟨hop, mem_append_right _ ?_, hpasses⟩
          rw [ho]
          exact mem_singleton_self hop

/-- If all hops of a session are plain, it is finished only after a send that was done in it. -/
theorem finished_after_send (hs : runStepExecutorLoop N hops = .ok s) (hphase : s.phase = .active tool hasDone)
    {hop : Hop} {s' : LoopState} (hstep : runStepExecutorLoop N (hops ++ [.ok hop]) = .ok s')
    (hfinished : s'.phase = .terminal .finished) (hplain : ∀ h ∈ sessionHops N (hops ++ [.ok hop]), h.Plain) :
    ∃ result, .sendDone result ∈ sessionHops N hops := by
  obtain ⟨hd, hl⟩ := exists_passes_of_hasDone hs hphase
  rw [sessionHops_concat hs, hphase] at hplain
  have hhop : hopStep N s hop.result = .ok s' := by
    rw [runStepExecutorLoop, Run.exec_concat, show Run.exec (loopStep N) (.ok {}) hops = .ok s from hs] at hstep
    simpa [loopStep, hphase, Phase.isTerminal, bind, Except.bind] using hstep
  rcases hopStep_finished hhop hphase hfinished hl with ht | hreadOnly
  · obtain ⟨e, hm, hp⟩ := hd ht
    obtain ⟨result, rfl⟩ := (hplain e (mem_append_left _ hm)).sendDone hp
    exact ⟨result, hm⟩
  · rw [(hplain hop (mem_append_right _ (mem_singleton_self hop))).not_readOnlyFinish] at hreadOnly
    cases hreadOnly

theorem steps_of_not_terminal (hs : runStepExecutorLoop N hops = .ok s) (hp : s.phase.isTerminal = false) :
    s.steps.length = hops.length := by
  induction hops using reverseRecOn generalizing s with
  | nil =>
    cases hs
    rfl
  | append_singleton hops hop ih =>
    rw [runStepExecutorLoop, Run.exec_concat] at hs
    obtain ⟨before, hb, hs⟩ := Fallible.bind_eq_ok.mp hs
    split at hs
    · cases hs
      rename_i h
      rw [h] at hp
      cases hp
    · rename_i ho
      obtain ⟨hop, rfl, hs⟩ := Fallible.bind_eq_ok.mp hs
      obtain h | ⟨h, -⟩ | ⟨status, -, -, -, -, hst⟩ := hopStep_cases hs
      · rw [h] at hp
        cases hp
      · rw [h] at hp
        cases hp
      · rw [hst, length_append, ih hb (Bool.eq_false_iff.mpr ho), length_append]
        rfl

theorem selectedTool_of_terminal {p : Phase} (h : p.isTerminal = true) : p.selectedTool = none := by
  cases p with
  | terminal reason => rfl
  | _ => cases h

/-- A run is over only in a terminal phase, and such a phase has lost its tool: the tool in the result
is that of the last session exactly when there was none. -/
theorem selected_tool_of_last_session_iff {N : Naming} {maxSteps : ℕ} {hops : ℕ → Except BamlRtError Hop}
    {result : StepExecutorResult} (h : stepExecutorResult N maxSteps hops = .ok result) :
    result.selectedTool = (boundTools N ((List.range maxSteps).map hops)).getLast? ↔
      boundTools N ((List.range maxSteps).map hops) = [] := by
  have hn : result.selectedTool = none := by
    obtain ⟨s, hs, h⟩ := Fallible.bind_eq_ok.mp h
    cases h
    refine selectedTool_of_terminal ?_
    split
    · rfl
    · rename_i hend
      by_contra hp
      have hp := Bool.eq_false_iff.mpr hp
      have hl := steps_of_not_terminal hs hp
      rw [length_map, length_range] at hl
      exact hend ⟨hp, hl.ge⟩
  rw [hn, eq_comm, getLast?_eq_none_iff]

end

def oneTool : Naming := ⟨fun _ => "ExecuteStep", textAt "tool_name"⟩

def openedCalculator : Hop := .opened ⟨"s1"⟩ "support/calculate"

theorem finished_after_calculation :
    ∃ result, .sendDone result ∈ sessionHops oneTool
      [.ok openedCalculator, .ok (.sendDone ⟨⟨1, 1⟩, "@1 · calculate", .number (.integer 4)⟩)] := by
  refine @finished_after_send oneTool _ ⟨.active "support/calculate" true, ⟨some .send, some "done"⟩, _⟩ _ _ rfl rfl
    .finished ⟨.terminal .finished, ⟨some .finish, some "finished"⟩, _⟩ rfl rfl ?_
  intro hop hmem
  rcases mem_cons.mp hmem with rfl | hmem
  · trivial
  · cases mem_singleton.mp hmem
    trivial

/-- A read of a reference that is not there passes for a send: the session is finished without one. -/
theorem missed_read_passes_for_send :
    (runStepExecutorLoop oneTool [.ok openedCalculator, .ok (.readNotFound "PageRead" ⟨1, 99⟩)]).toOption.map
        LoopState.phase = some (.active "support/calculate" true) ∧
      (runStepExecutorLoop oneTool
        [.ok openedCalculator, .ok (.readNotFound "PageRead" ⟨1, 99⟩), .ok .finished]).toOption.map LoopState.phase =
          some (.terminal .finished) ∧
      sessionHops oneTool [.ok openedCalculator, .ok (.readNotFound "PageRead" ⟨1, 99⟩)] =
        [.readNotFound "PageRead" ⟨1, 99⟩] :=
  ⟨rfl, rfl, rfl⟩

/-- The calculator is the tool of the last session, so it is not the one in the result. -/
theorem calculator_not_selected :
    let hops := fun i => .ok
      ([openedCalculator, .sendDone ⟨⟨1, 1⟩, "@1 · calculate", .number (.integer 4)⟩].getD i .finished)
    boundTools oneTool ((List.range 3).map hops) = ["support/calculate"] ∧
      ∃ result, stepExecutorResult oneTool 3 hops = .ok result ∧ result.selectedTool ≠ some "support/calculate" := by
  intro hops
  have hr : ∃ result, stepExecutorResult oneTool 3 hops = .ok result := ⟨_, rfl⟩
  obtain ⟨result, hr⟩ := hr
  refine ⟨rfl, result, hr, fun hs => ?_⟩
  cases (selected_tool_of_last_session_iff hr).mp hs

/-- A session with the calculator that is finished: its tool is not in the result. -/
theorem selected_tool_lost :
    (stepExecutorResult oneTool 3 fun i => .ok
        ([openedCalculator, .sendDone ⟨⟨1, 1⟩, "@1 · calculate", .number (.integer 4)⟩].getD i .finished)).toOption.map
        StepExecutorResult.selectedTool = some none ∧
      boundTools oneTool [.ok openedCalculator, .ok (.sendDone ⟨⟨1, 1⟩, "@1 · calculate", .number (.integer 4)⟩),
        .ok .finished] = ["support/calculate"] :=
  ⟨rfl, rfl⟩

end AgentiumOs.Executor
