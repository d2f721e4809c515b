import Mathlib

/-! Errors of the runtime and failures of tools, with how each is to be handled. The cause
of an error is its text. -/

namespace AgentiumOs.Tools

inductive ErrorDisposition where
  | hostRetriable
  | llmCorrectable
  | informAndContinue
  | fatal
  deriving DecidableEq

def ErrorDisposition.text : ErrorDisposition → String
  | hostRetriable => "host_retriable"
  | llmCorrectable => "llm_correctable"
  | informAndContinue => "inform_and_continue"
  | fatal => "fatal"

structure ClassifiedToolError where
  code : String
  disposition : ErrorDisposition
  message : String
  hint : Option String
  retryAfterMs : Option ℕ
  deriving DecidableEq

inductive StepPlanViolationCode where
  | missingArchiveRefPageRead
  | missingArchiveRefSearchRead
  | missingSearchReadGrep
  | invalidSearchReadGrep
  | pageReadGrepForbidden
  | legacyReadOpRemoved
  | toolSessionStepMissingOp
  | toolSessionPlanStepNotObject
  | sendMissingInput
  | sendInputNull
  | unknownToolSessionOp
  | invalidPlanInputJson
  deriving DecidableEq

structure StepPlanRecovery where
  code : StepPlanViolationCode
  disposition : ErrorDisposition
  mistake : String
  invariant : String
  fixSteps : List String
  deriving DecidableEq

namespace StepPlanRecovery

def maxStepPlanFixSteps : ℕ := 4

def new (code : StepPlanViolationCode) (mistake invariant : String) (fixSteps : List String) :
    StepPlanRecovery where
  code
  disposition := .llmCorrectable
  mistake
  invariant
  fixSteps := fixSteps.take maxStepPlanFixSteps

def invalidPlanInputJson (detail : String) : StepPlanRecovery :=
  new .invalidPlanInputJson ("Plan input JSON could not be parsed: " ++ detail)
    "Plan inputs that are strings must contain valid JSON when parsed."
    ["Fix the JSON syntax in the plan input."]

end StepPlanRecovery

inductive SessionLifecycleError where
  | toolSessionNotFound (sessionId : String)
  | toolSessionClosed (sessionId : String)
  | streamSessionNotFound (streamSessionId : ℕ)
  | streamSessionClosed (streamSessionId : ℕ)
  | invocationContextMissing
  | invocationCancelled
  deriving DecidableEq

inductive BamlRtError where
  | bamlRuntime (message : String)
  | provenanceContextRead (source : String)
  | quickJs (message : String)
  | quickJsWithSource (context source : String)
  | typeConversion (message : String)
  | functionNotFound (message : String)
  | agentNotFound (message : String)
  | agentDraining (message : String)
  | invalidArgument (message : String)
  | stepPlanCorrectable (recovery : StepPlanRecovery)
  | conflict (message : String)
  | invalidArgumentWithSource (message source : String)
  | io (source : String)
  | json (source : String)
  | jsonWithRaw (source : String) (rawLength : ℕ) (rawPrefix : String)
  | invalidOpenInput (source : String)
  | toolExecution (message : String)
  | gateAuthorizationRequired (authorizationPrompt : String)
  | toolClassified (classified : ClassifiedToolError)
  | toolRegistration (message : String)
  | schemaLoading (message : String)
  | configuration (message : String)
  | initialization (message : String)
  | sessionLifecycle (err : SessionLifecycleError)
  | executionFailed (source : String)
  | parsedResultFailed (source : String)
  | requestBuildFailed (source : String)
  | clientRegistryBuild (source : String)
  | runtimeLoadFailed (source : String)
  | functionStreamCreation (source : String)
  | clusterHeartbeat (kind message : String)
  deriving DecidableEq

def bamlErrorDisposition : BamlRtError → ErrorDisposition
  | .invalidArgument _ | .invalidArgumentWithSource _ _ | .invalidOpenInput _ | .json _ | .jsonWithRaw _ _ _
  | .functionNotFound _ | .typeConversion _ => .llmCorrectable
  | .stepPlanCorrectable recovery => recovery.disposition
  | .agentNotFound _ => .informAndContinue
  | .agentDraining _ | .conflict _ => .hostRetriable
  | .sessionLifecycle (.toolSessionNotFound _) | .sessionLifecycle (.toolSessionClosed _)
  | .sessionLifecycle (.streamSessionNotFound _) | .sessionLifecycle (.streamSessionClosed _)
  | .sessionLifecycle .invocationContextMissing => .informAndContinue
  | .sessionLifecycle .invocationCancelled => .hostRetriable
  | .toolClassified classified => classified.disposition
  | .gateAuthorizationRequired _ | .toolExecution _ | .executionFailed _ | .parsedResultFailed _ =>
      .informAndContinue
  | .io _ | .quickJs _ | .quickJsWithSource _ _ | .provenanceContextRead _ | .clusterHeartbeat _ _ =>
      .hostRetriable
  | .requestBuildFailed _ => .llmCorrectable
  | .clientRegistryBuild _ | .runtimeLoadFailed _ | .functionStreamCreation _ | .bamlRuntime _
  | .initialization _ | .configuration _ | .schemaLoading _ | .toolRegistration _ => .fatal

def shouldHostRetry (classified : ClassifiedToolError) : Bool := classified.disposition = .hostRetriable

def shouldHostRetryBamlError (err : BamlRtError) : Bool := bamlErrorDisposition err = .hostRetriable

def SessionLifecycleError.display : SessionLifecycleError → String
  | toolSessionNotFound sessionId => "Tool session not found: " ++ sessionId
  | toolSessionClosed sessionId => "Tool session closed: " ++ sessionId
  | streamSessionNotFound streamSessionId => "Stream session not found: " ++ toString streamSessionId
  | streamSessionClosed streamSessionId => "Stream session closed: " ++ toString streamSessionId
  | invocationContextMissing => "Invocation context missing"
  | invocationCancelled => "Invocation cancelled"

/-- The text of an error; `{:?}` of a text is taken as the text in quotes. -/
def BamlRtError.display : BamlRtError → String
  | bamlRuntime message => "BAML runtime error: " ++ message
  | provenanceContextRead _ => "Failed to read provenance context"
  | quickJs message => "QuickJS error: " ++ message
  | quickJsWithSource context _ => "QuickJS error: " ++ context
  | typeConversion message => "Type conversion error: " ++ message
  | functionNotFound message => "Function not found: " ++ message
  | agentNotFound message => "Agent not found: " ++ message
  | agentDraining message => "Agent draining: " ++ message
  | invalidArgument message => "Invalid argument: " ++ message
  | stepPlanCorrectable recovery => recovery.mistake
  | conflict message => "Conflict: " ++ message
  | invalidArgumentWithSource message _ => message
  | io source => "IO error: " ++ source
  | json source => "JSON error: " ++ source
  | jsonWithRaw source rawLength rawPrefix =>
      "JSON error: " ++ source ++ " (raw length: " ++ toString rawLength ++ ", prefix: \"" ++ rawPrefix ++ "\")"
  | invalidOpenInput _ => "Invalid open_input for tool session"
  | toolExecution message => "Tool execution error: " ++ message
  | gateAuthorizationRequired authorizationPrompt => "Gate authorization required: " ++ authorizationPrompt
  | toolClassified classified => classified.message
  | toolRegistration message => "Tool registration error: " ++ message
  | schemaLoading message => "Schema loading error: " ++ message
  | configuration message => "Runtime configuration error: " ++ message
  | initialization message => "Runtime initialization error: " ++ message
  | sessionLifecycle err => "Session lifecycle error: " ++ err.display
  | executionFailed source => "Function execution failed: " ++ source
  | parsedResultFailed source => "Parsed result conversion failed: " ++ source
  | requestBuildFailed _ => "Failed to build request"
  | clientRegistryBuild _ => "Failed to build LLM client registry"
  | runtimeLoadFailed _ => "Failed to load BAML runtime"
  | functionStreamCreation _ => "Failed to create stream"
  | clusterHeartbeat kind message => "Cluster heartbeat failed (" ++ kind ++ "): " ++ message

inductive ToolFailureKind where
  | invalidInput
  | executionFailed
  | notAuthorized
  | rateLimited
  | cancelled
  | unknown

/-- `{:?}` of the kind. -/
def ToolFailureKind.debug : ToolFailureKind → String
  | invalidInput => "InvalidInput"
  | executionFailed => "ExecutionFailed"
  | notAuthorized => "NotAuthorized"
  | rateLimited => "RateLimited"
  | cancelled => "Cancelled"
  | unknown => "Unknown"

structure ToolFailure where
  kind : ToolFailureKind
  message : String
  retryable : Bool
  classified : ClassifiedToolError

def toolFailureToBamlToolExecutionError (failure : ToolFailure) : BamlRtError := .toolClassified failure.classified

inductive ToolSessionError where
  | transport (err : BamlRtError)
  | tool (failure : ToolFailure)

def mapSessionError : ToolSessionError → BamlRtError
  | .transport err => err
  | .tool failure => toolFailureToBamlToolExecutionError failure

end AgentiumOs.Tools
