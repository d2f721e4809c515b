import AgentiumOs.Core.Scope
import AgentiumOs.Semiotic.Gate

/-! The stores the gate keeps per scope, and its policy: grounding artifacts,
pending postconditions, pending authorizations, outcomes and recent denials. All
are keyed by the text of agent and task. Time is in nanoseconds. -/

namespace AgentiumOs.Semiotic

open AgentiumOs.Core Lib

inductive GateReasonCode where
  | tierBelowGate
  | noArtifact
  | coversMismatch
  | deficientNodes
  | noPostconditions
  | requirementsMet
  | tier3Authorization
  deriving DecidableEq

def GateReasonCode.asStr : GateReasonCode → String
  | tierBelowGate => "tier_below_gate"
  | noArtifact => "no_artifact"
  | coversMismatch => "covers_mismatch"
  | deficientNodes => "deficient_nodes"
  | noPostconditions => "no_postconditions"
  | requirementsMet => "requirements_met"
  | tier3Authorization => "tier3_authorization"

inductive SemioticMode where
  | dryRun
  | enforce
  deriving DecidableEq

structure SemioticPolicy where
  enabled : Bool
  mode : SemioticMode
  enforceMinTier : ℕ
  requirePostconditionsT3 : Bool

def SemioticPolicy.shouldEnforce (policy : SemioticPolicy) (tier : ℕ) : Bool :=
  policy.enabled && (policy.mode = .enforce : Bool) && (policy.enforceMinTier ≤ tier : Bool)

structure SemioticConfig where
  default : SemioticPolicy
  overrides : Finmap fun _ : String => SemioticPolicy

/-- The override of the agent's package, if it has one. -/
def SemioticConfig.resolve (config : SemioticConfig) (agentPackage : Option String) : SemioticPolicy :=
  (agentPackage.bind fun package => config.overrides.lookup package).getD config.default

structure GroundingRecord where
  artifact : ParseArtifact
  submittedAt : ℕ
  consumed : Bool

structure PendingPostconditions where
  postconditions : List Postcondition
  tier : Fin 4
  cwd : Option String
  deriving DecidableEq

structure PendingAuth where
  toolName : String
  argsFingerprint : String
  granted : Bool
  deriving DecidableEq

structure GateOutcome where
  toolName : String
  tier : Fin 4
  decision : String
  reasonCode : GateReasonCode
  postconditionPassed : Option Bool

structure DeniedCall where
  deniedAt : ℕ
  toolClass : String
  tier : Fin 4
  tokens : Finset String

structure SemioticState where
  now : ℕ
  config : SemioticConfig
  grounding : Finmap fun _ : String => GroundingRecord
  pendingPostconditions : Finmap fun _ : String => PendingPostconditions
  pendingAuth : Finmap fun _ : String => PendingAuth
  outcomes : Finmap fun _ : String => GateOutcome
  denied : Finmap fun _ : String => List DeniedCall

def scopeKey (scope : RuntimeScope) : String :=
  scope.agentId ++ ":" ++ scope.taskIdOpt.getD ""

variable {V : Type} (P : Platform V)

namespace SemioticState

def submit (s : SemioticState) (scope : RuntimeScope) (artifact : ParseArtifact) : SemioticState :=
  { s with grounding := s.grounding.insert (scopeKey scope) ⟨artifact, s.now, false⟩ }

/-- The artifact of the scope, unless it is used up or too old. -/
def getLive (s : SemioticState) (scope : RuntimeScope) (maxAge : ℕ) : Option ParseArtifact :=
  match s.grounding.lookup (scopeKey scope) with
  | none => none
  | some record =>
      if record.consumed || (s.now - record.submittedAt > maxAge : Bool) then none else some record.artifact

def consume (s : SemioticState) (scope : RuntimeScope) : SemioticState :=
  match s.grounding.lookup (scopeKey scope) with
  | none => s
  | some record =>
      { s with grounding := s.grounding.insert (scopeKey scope) { record with consumed := true } }

def registerPendingPostconditions (s : SemioticState) (scope : RuntimeScope)
    (postconditions : List Postcondition) (tier : Fin 4) (cwd : Option String) : SemioticState :=
  { s with
    pendingPostconditions := s.pendingPostconditions.insert (scopeKey scope) ⟨postconditions, tier, cwd⟩ }

def takePendingPostconditions (s : SemioticState) (scope : RuntimeScope) :
    SemioticState × Option PendingPostconditions :=
  ({ s with pendingPostconditions := s.pendingPostconditions.erase (scopeKey scope) },
    s.pendingPostconditions.lookup (scopeKey scope))

/-! ### Pending authorizations -/

def fingerprint (toolName : String) (args : V) : String := toolName ++ ":" ++ P.toJson args

/-- A new request replaces whatever the scope had, granted or not. -/
def setPending (s : SemioticState) (scope : RuntimeScope) (toolName : String) (args : V) : SemioticState :=
  { s with
    pendingAuth := s.pendingAuth.insert (scopeKey scope) ⟨toolName, fingerprint P toolName args, false⟩ }

/-- A grant is used up by the call it was given for. -/
def isGranted (s : SemioticState) (scope : RuntimeScope) (toolName : String) (args : V) : SemioticState × Bool :=
  match s.pendingAuth.lookup (scopeKey scope) with
  | none => (s, false)
  | some entry =>
      if entry.toolName ≠ toolName ∨ entry.argsFingerprint ≠ fingerprint P toolName args then (s, false)
      else if entry.granted then ({ s with pendingAuth := s.pendingAuth.erase (scopeKey scope) }, true)
      else (s, false)

def recordOutcome (s : SemioticState) (scope : RuntimeScope) (outcome : GateOutcome) : SemioticState :=
  { s with outcomes := s.outcomes.insert (scopeKey scope) outcome }

def takeOutcome (s : SemioticState) (scope : RuntimeScope) : SemioticState × Option GateOutcome :=
  ({ s with outcomes := s.outcomes.erase (scopeKey scope) }, s.outcomes.lookup (scopeKey scope))

end SemioticState

inductive ResumeAction where
  | noPending
  | granted
  | denied
  deriving DecidableEq

def isGateDenial (userText : String) : Bool :=
  let t := P.toLowercase (Text.trim userText)
  (t ≠ "" : Bool) &&
    (Text.startsWith t "[gate-deny]" || (t = "deny" : Bool) || (t = "reject" : Bool) ||
      Text.startsWith t "deny " || Text.startsWith t "reject ")

/-- The user's reply decides the pending request of the scope. -/
def SemioticState.resolveOnResume (s : SemioticState) (scope : RuntimeScope) (userText : String) :
    SemioticState × ResumeAction :=
  match s.pendingAuth.lookup (scopeKey scope) with
  | none => (s, .noPending)
  | some entry =>
      if isGateDenial P userText then
        ({ s with pendingAuth := s.pendingAuth.erase (scopeKey scope) }, .denied)
      else
        ({ s with pendingAuth := s.pendingAuth.insert (scopeKey scope) { entry with granted := true } }, .granted)

def deniedTtl : ℕ := 30 * 60 * 1000000000

def maxDenied : ℕ := 8

/-- The characters before the first double underscore. -/
def beforeSeparator : List Char → List Char
  | '_' :: '_' :: _ => []
  | c :: cs => c :: beforeSeparator cs
  | [] => []

def toolClass (toolName : String) : String :=
  if toolName = "bash" ∨ toolName = "Bash" then "bash"
  else match Text.withoutLead toolName "mcp__" with
    | some rest => "mcp:" ++ String.ofList (beforeSeparator rest.toList)
    | none => "other"

def isTokenChar (c : Char) : Bool :=
  c.isAlphanum || c == '_' || c == '.' || c == '/' || c == ':' || c == '-'

def normTokens (text : String) : Finset String :=
  ((((P.toLowercase text).toList.splitOnP fun c => !isTokenChar c).filter fun token => !token.isEmpty).map
    String.ofList).toFinset

/-- Denials of a scope are kept for a while, the latest eight of them. -/
def SemioticState.recordDenied (s : SemioticState) (scope : RuntimeScope) (toolName : String) (args : V)
    (tier : Fin 4) : SemioticState :=
  let recent := ((s.denied.lookup (scopeKey scope)).getD []).filter fun call =>
    (s.now - call.deniedAt < deniedTtl : Bool)
  let kept := if recent.length ≥ maxDenied then recent.drop 1 else recent
  let call : DeniedCall :=
    { deniedAt := s.now, toolClass := toolClass toolName, tier
      tokens := normTokens P (toolName ++ " " ++ P.toJson args) }
  { s with denied := s.denied.insert (scopeKey scope) (kept ++ [call]) }

end AgentiumOs.Semiotic
