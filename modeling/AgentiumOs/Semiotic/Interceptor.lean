import AgentiumOs.Semiotic.Stores

/-! The tool interceptor of the gate: the verdict on a call, the policy applied to
it, and what is done when a call completes. A panic while a call is intercepted
gives no decision. -/

namespace AgentiumOs.Semiotic

open AgentiumOs.Core Lib

inductive InterceptorDecision (V : Type) where
  | allow
  | block (message : String)
  | requireAuthorization (prompt : String)
  | substitute (value : V)

/-- The members of a call's metadata that the gate reads. -/
structure ToolMetadata where
  accessLevel : Option String
  tags : Option (List String)
  cwd : Option String

structure ToolCallContext (V : Type) where
  toolName : String
  args : V
  runtimeScope : RuntimeScope
  metadata : ToolMetadata
  agentPackage : Option String
  delegationTarget : Option String

def artifactTtl : ℕ := 30 * 60 * 1000000000

def toolMetaFromContext {V : Type} (ctx : ToolCallContext V) : ToolTierMeta where
  accessLevel := match ctx.metadata.accessLevel with
    | some "delete" => .delete
    | some "write" => .write
    | some _ => .read
    | none => .write
  tags := ctx.metadata.tags.getD []
  destructiveHint := none
  isDelegation := ctx.delegationTarget.isSome

structure GateVerdict where
  tier : Tier
  reason : GateReasonCode
  blockMsg : Option String
  deriving DecidableEq

def needsPostconditions (tier : Tier) (policy : SemioticPolicy) : Bool :=
  (2 ≤ tier.asU8 : Bool) && ((tier ≠ .irreversible : Bool) || policy.requirePostconditionsT3)

variable {V : Type} (P : Platform V)

def holds (tier : Tier) (detail : String) : String :=
  "Gate holds (tier " ++ Nat.repr tier.asU8 ++ ": " ++ detail

def judge (ctx : ToolCallContext V) (tier : Tier) (policy : SemioticPolicy) (art : ParseArtifact) : GateVerdict :=
  if !coversMatch P art.covers ctx.toolName ctx.args then
    ⟨tier, .coversMismatch, some (holds tier "covers mismatch). Fix covers patterns.")⟩
  else if needsPostconditions tier policy && art.postconditions.isEmpty then
    ⟨tier, .noPostconditions, some (holds tier "missing postconditions). Add postconditions.")⟩
  else
    let decision := AmbiguityAwareGate.default.decide P art tier
    if !decision.requests.isEmpty then
      ⟨tier, .deficientNodes,
        some (holds tier ("deficient nodes). Ground: " ++ ", ".intercalate decision.requests))⟩
    else match decision.action with
      | .queueForHuman =>
          ⟨tier, .tier3Authorization, some "Tier-3 grounded: human authorization required."⟩
      | _ => ⟨tier, .requirementsMet, none⟩

def evaluate (s : SemioticState) (ctx : ToolCallContext V) (tool : ToolTierMeta)
    (policy : SemioticPolicy) : Option GateVerdict :=
  let tier := classifyTier tool
  if tier.asU8 ≤ 1 then some ⟨tier, .tierBelowGate, none⟩
  else match s.getLive ctx.runtimeScope artifactTtl with
    | none =>
        some ⟨tier, .noArtifact,
          some (holds tier ("no artifact). Submit grounding via submitGrounding. Deficient: " ++
            "all critical/ambiguous nodes"))⟩
    | some artifactRaw => (lint P artifactRaw).map (judge P ctx tier policy)

def decisionLabel (verdict : GateVerdict) (artifactHasPostconditions : Bool) : String :=
  if verdict.reason ≠ .requirementsMet then "deny"
  else if verdict.tier = .irreversible then "ask"
  else if artifactHasPostconditions then "pass_gated"
  else "pass"

def authorizationPrompt (s : SemioticState) (ctx : ToolCallContext V) (tier : Fin 4) : String :=
  let live := s.getLive ctx.runtimeScope artifactTtl
  "Tier-" ++ Nat.repr tier ++ " authorization required.\n\nGrounded intent: " ++
    (live.map (·.instruction)).getD "Grounded tier-3 action" ++ "\nPostconditions declared: " ++
    Nat.repr ((live.map (·.postconditions.length)).getD 0) ++
    "\n\nReply to approve and continue execution."

/-- Grounded tier-3 calls are put to the user; deficient calls are blocked where
the policy enforces and pass where it does not. -/
def applyPolicy (s : SemioticState) (policy : SemioticPolicy) (verdict : GateVerdict)
    (ctx : ToolCallContext V) : SemioticState × InterceptorDecision V :=
  if verdict.reason = .requirementsMet then
    if verdict.tier = .irreversible ∧ policy.shouldEnforce verdict.tier.asU8 then
      (s.setPending P ctx.runtimeScope ctx.toolName ctx.args,
        .requireAuthorization (authorizationPrompt s ctx verdict.tier.asU8))
    else (s, .allow)
  else if policy.shouldEnforce verdict.tier.asU8 then
    (s.recordDenied P ctx.runtimeScope ctx.toolName ctx.args verdict.tier.asU8,
      .block (verdict.blockMsg.getD verdict.reason.asStr))
  else (s, .allow)

def recordVerdict (s : SemioticState) (ctx : ToolCallContext V) (verdict : GateVerdict)
    (decision : String) : SemioticState :=
  s.recordOutcome ctx.runtimeScope ⟨ctx.toolName, verdict.tier.asU8, decision, verdict.reason, none⟩

def registerPostconditionsIfPass (s : SemioticState) (ctx : ToolCallContext V) (verdict : GateVerdict) :
    SemioticState :=
  if verdict.reason ≠ .requirementsMet then s
  else match s.getLive ctx.runtimeScope artifactTtl with
    | none => s
    | some artifact =>
        if artifact.postconditions.isEmpty then s
        else s.registerPendingPostconditions ctx.runtimeScope artifact.postconditions verdict.tier.asU8
          ctx.metadata.cwd

/-- A call that has to be judged: its outcome is recorded before the policy acts. -/
def interceptJudged (s : SemioticState) (ctx : ToolCallContext V) (policy : SemioticPolicy)
    (verdict : GateVerdict) : SemioticState × InterceptorDecision V :=
  if verdict.tier.asU8 ≤ 1 then (s, .allow)
  else
    let hasPostconditions :=
      ((s.getLive ctx.runtimeScope artifactTtl).map fun art => !art.postconditions.isEmpty).getD false
    let recorded := recordVerdict s ctx verdict (decisionLabel verdict hasPostconditions)
    applyPolicy P (registerPostconditionsIfPass recorded ctx verdict) policy verdict ctx

def interceptToolCall (s : SemioticState) (ctx : ToolCallContext V) :
    SemioticState × Option (InterceptorDecision V) :=
  let policy := s.config.resolve ctx.agentPackage
  if !policy.enabled then (s, some .allow)
  else match s.isGranted P ctx.runtimeScope ctx.toolName ctx.args with
    | (s', true) =>
        let verdict : GateVerdict := ⟨.irreversible, .requirementsMet, none⟩
        let recorded := recordVerdict s' ctx verdict "pass_gated"
        (registerPostconditionsIfPass recorded ctx verdict, some .allow)
    | (s', false) =>
        match evaluate P s' ctx (toolMetaFromContext ctx) policy with
        | none => (s', none)
        | some verdict =>
            let (s'', decision) := interceptJudged P s' ctx policy verdict
            (s'', some decision)

/-- What is done when a call returns: a failed call leaves everything, a
successful one runs the pending postconditions and uses up the artifact.
`passed` is the result of running them. -/
def onToolCallComplete (s : SemioticState) (ctx : ToolCallContext V) (failed : Bool)
    (passed : List Postcondition → Option String → Bool) : SemioticState :=
  if !(s.config.resolve ctx.agentPackage).enabled || failed then s
  else match s.takePendingPostconditions ctx.runtimeScope with
    | (s', none) => s'.consume ctx.runtimeScope
    | (s', some pending) =>
        let (s'', recorded) := s'.takeOutcome ctx.runtimeScope
        let outcome := recorded.getD ⟨ctx.toolName, pending.tier, "pass_gated", .requirementsMet, none⟩
        let run := passed pending.postconditions pending.cwd
        (s''.recordOutcome ctx.runtimeScope { outcome with postconditionPassed := some run }).consume
          ctx.runtimeScope

end AgentiumOs.Semiotic
