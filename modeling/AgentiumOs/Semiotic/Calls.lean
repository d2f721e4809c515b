import AgentiumOs.Semiotic.Authorization

/-! The calls of one scope, from the decision on them to their completion. The gate
keeps one slot of pending postconditions and one artifact per scope, whatever
calls are under way there. Next to the gate's own state the run keeps as history
what every call registered and which submission it was allowed under; nothing the
gate does depends on it. -/

namespace AgentiumOs.Semiotic

open AgentiumOs.Core Lib

variable {V : Type} (P : Platform V)

/-! ### What an intercepted call does -/

/-- The tier at which a call meets the requirements of the gate: it has a grant, or
the verdict on it says so. -/
def metTier (s : SemioticState) (ctx : ToolCallContext V) : Option Tier :=
  let policy := s.config.resolve ctx.agentPackage
  if !policy.enabled then none
  else if (s.isGranted P ctx.runtimeScope ctx.toolName ctx.args).2 then some .irreversible
  else (evaluate P s ctx (toolMetaFromContext ctx) policy).bind fun verdict =>
    if verdict.reason = .requirementsMet then some verdict.tier else none

/-- The postconditions of the live artifact, as a call at this tier registers them. -/
def pendingOf (s : SemioticState) (ctx : ToolCallContext V) (tier : Tier) : Option PendingPostconditions :=
  (s.getLive ctx.runtimeScope artifactTtl).bind fun artifact =>
    if artifact.postconditions.isEmpty then none
    else some ⟨artifact.postconditions, tier.asU8, ctx.metadata.cwd⟩

def registers (s : SemioticState) (ctx : ToolCallContext V) : Option PendingPostconditions :=
  (metTier P s ctx).bind (pendingOf s ctx)

/-- A call that meets the requirements is put to the user: it has no grant, and
the policy enforces tier 3. -/
def isAsked (s : SemioticState) (ctx : ToolCallContext V) : Bool :=
  !(s.isGranted P ctx.runtimeScope ctx.toolName ctx.args).2 && metTier P s ctx = some .irreversible &&
    (s.config.resolve ctx.agentPackage).shouldEnforce 3

variable {P}

/-- Everything an intercepted call leaves alone, and what it puts in the slot. -/
structure InterceptFrame (s : SemioticState) (ctx : ToolCallContext V)
    (registered : Option PendingPostconditions) (s' : SemioticState) : Prop where
  now : s'.now = s.now
  config : s'.config = s.config
  grounding : s'.grounding = s.grounding
  pending : s'.pendingPostconditions = match registered with
    | none => s.pendingPostconditions
    | some pending => s.pendingPostconditions.insert (scopeKey ctx.runtimeScope) pending

variable (s : SemioticState)

theorem registerPostconditionsIfPass_frame (ctx : ToolCallContext V) (v : GateVerdict) :
    InterceptFrame s ctx (if v.reason = .requirementsMet then pendingOf s ctx v.tier else none)
      (registerPostconditionsIfPass s ctx v) := by
  unfold registerPostconditionsIfPass pendingOf
  by_cases hm : v.reason = .requirementsMet
  · rw [if_neg (not_not.mpr hm), if_pos hm]
    cases s.getLive ctx.runtimeScope artifactTtl with
    | none => exact ⟨rfl, rfl, rfl, rfl⟩
    | some ar =>
      by_cases he : ar.postconditions.isEmpty
      · simp only [he, Option.bind_some]
        exact ⟨rfl, rfl, rfl, rfl⟩
      · simp only [he, Option.bind_some]
        exact ⟨rfl, rfl, rfl, rfl⟩
  · rw [if_pos hm, if_neg hm]
    exact ⟨rfl, rfl, rfl, rfl⟩

variable (P)

theorem applyPolicy_frame (p : SemioticPolicy) (v : GateVerdict) (ctx : ToolCallContext V) :
    InterceptFrame s ctx none (applyPolicy P s p v ctx).1 := by
  unfold applyPolicy
  split_ifs <;> exact ⟨rfl, rfl, rfl, rfl⟩

variable {ctx : ToolCallContext V}

theorem evaluate_below {s : SemioticState} {t : ToolTierMeta} {p : SemioticPolicy} {v : GateVerdict}
    (h : evaluate P s ctx t p = some v) (ht : v.tier.asU8 ≤ 1) :
    v.reason ≠ .requirementsMet := by
  intro hm
  have htw := (evaluate_requirementsMet P h hm).1
  rw [evaluate_tier P h] at ht
  exact absurd (le_trans htw ht) (by decide)

theorem interceptJudged_frame (ctx : ToolCallContext V) (p : SemioticPolicy) (v : GateVerdict)
    (hb : v.tier.asU8 ≤ 1 → v.reason ≠ .requirementsMet) :
    InterceptFrame s ctx (if v.reason = .requirementsMet then pendingOf s ctx v.tier else none)
      (interceptJudged P s ctx p v).1 := by
  unfold interceptJudged
  by_cases ht : v.tier.asU8 ≤ 1
  · rw [if_pos ht, if_neg (hb ht)]
    exact ⟨rfl, rfl, rfl, rfl⟩
  · rw [if_neg ht]
    dsimp only
    generalize decisionLabel v _ = l
    have hr := registerPostconditionsIfPass_frame (recordVerdict s ctx v l) ctx v
    have hp := applyPolicy_frame P
      (registerPostconditionsIfPass (recordVerdict s ctx v l) ctx v) p v ctx
    exact ⟨hp.now.trans hr.now, hp.config.trans hr.config,
      hp.grounding.trans hr.grounding, hp.pending.trans hr.pending⟩

theorem interceptToolCall_frame (ctx : ToolCallContext V) :
    InterceptFrame s ctx (registers P s ctx) (interceptToolCall P s ctx).1 := by
  unfold interceptToolCall registers metTier
  by_cases he : (s.config.resolve ctx.agentPackage).enabled
  · simp only [he, Bool.not_true]
    obtain ⟨-, hg⟩ | hn := isGranted_spec P s ctx.runtimeScope ctx.toolName ctx.args
    · rw [hg]
      have hr := registerPostconditionsIfPass_frame
        (recordVerdict { s with pendingAuth := s.pendingAuth.erase (scopeKey ctx.runtimeScope) } ctx
          ⟨.irreversible, .requirementsMet, none⟩ "pass_gated") ctx ⟨.irreversible, .requirementsMet, none⟩
      exact ⟨hr.now, hr.config, hr.grounding, hr.pending⟩
    · rw [hn]
      simp only [Bool.false_eq_true, if_false]
      cases hev : evaluate P s ctx (toolMetaFromContext ctx) (s.config.resolve ctx.agentPackage) with
      | none => exact ⟨rfl, rfl, rfl, rfl⟩
      | some verdict =>
        have hj := interceptJudged_frame P s ctx (s.config.resolve ctx.agentPackage) verdict (evaluate_below P hev)
        simp only [Option.bind_some]
        by_cases hm : verdict.reason = .requirementsMet
        · simpa only [hm, if_true, Option.bind_some] using hj
        · simpa only [hm, if_false, Option.bind_none] using hj
  · simp only [he]
    exact ⟨rfl, rfl, rfl, rfl⟩

theorem interceptToolCall_allow {s : SemioticState} {t : Tier} (hm : metTier P s ctx = some t)
    (ha : isAsked P s ctx = false) : (interceptToolCall P s ctx).2 = some .allow := by
  unfold isAsked at ha
  rw [hm] at ha
  unfold metTier at hm
  unfold interceptToolCall
  by_cases hen : (s.config.resolve ctx.agentPackage).enabled
  · simp only [hen, Bool.not_true, Bool.false_eq_true, if_false] at hm ⊢
    obtain ⟨-, hg⟩ | hn := isGranted_spec P s ctx.runtimeScope ctx.toolName ctx.args
    · rw [hg]
    · rw [hn] at hm ha ⊢
      simp only [Bool.false_eq_true, if_false] at hm ha ⊢
      cases he : evaluate P s ctx (toolMetaFromContext ctx) (s.config.resolve ctx.agentPackage) with
      | none => simp [he] at hm
      | some verdict =>
        rw [he, Option.bind_some] at hm
        split_ifs at hm with hr
        cases hm
        have ht : ¬ verdict.tier.asU8 ≤ 1 := fun hle => evaluate_below P he hle hr
        have hf : ¬ (verdict.tier = .irreversible ∧
            (s.config.resolve ctx.agentPackage).shouldEnforce verdict.tier.asU8) := by
          rintro ⟨hi, h⟩
          rw [hi] at h
          have hth : (s.config.resolve ctx.agentPackage).shouldEnforce 3 = true := h
          simp [hi, hth] at ha
        simp [interceptJudged, ht, applyPolicy, hr, hf]
  · simp [hen] at hm

theorem onToolCallComplete_success {s : SemioticState} (he : (s.config.resolve ctx.agentPackage).enabled)
    (p : List Postcondition → Option String → Bool) :
    (onToolCallComplete s ctx false p).now = s.now ∧ (onToolCallComplete s ctx false p).config = s.config ∧
      (onToolCallComplete s ctx false p).pendingPostconditions =
        s.pendingPostconditions.erase (scopeKey ctx.runtimeScope) := by
  have hc : ∀ (t : SemioticState) (scope : RuntimeScope), (t.consume scope).now = t.now ∧
      (t.consume scope).config = t.config ∧
      (t.consume scope).pendingPostconditions = t.pendingPostconditions := by
    intro t scope
    unfold SemioticState.consume
    split <;> exact ⟨rfl, rfl, rfl⟩
  unfold onToolCallComplete SemioticState.takePendingPostconditions
  simp only [he]
  cases s.pendingPostconditions.lookup (scopeKey ctx.runtimeScope) with
  | none | some pending => exact hc _ _

theorem onToolCallComplete_failed (ctx : ToolCallContext V) (p : List Postcondition → Option String → Bool) :
    onToolCallComplete s ctx true p = s := by
  simp [onToolCallComplete]

abbrev CallIn (V : Type) (scope : RuntimeScope) :=
  { ctx : ToolCallContext V // SameScope ctx.runtimeScope scope }

/-- A call that was intercepted: what it registered, the submission whose artifact
it was allowed under, and whether it was allowed and has not completed. -/
structure CallRecord (V : Type) (scope : RuntimeScope) where
  call : CallIn V scope
  registered : Option PendingPostconditions
  allowedUnder : Option ℕ
  running : Bool

/-- The gate and the history of the scope: its calls in order, the number of
submissions, and the artifact submitted last, with the time, while no call that it
allowed has completed. -/
structure ScopeRun (V : Type) (scope : RuntimeScope) where
  gate : SemioticState
  calls : List (CallRecord V scope)
  submissions : ℕ
  unused : Option (ParseArtifact × ℕ)

inductive ScopeEvent (V : Type) (scope : RuntimeScope) where
  | intercept (call : CallIn V scope)
  | complete (index : ℕ) (failed : Bool) (passed : List Postcondition → Option String → Bool)
  | submit (artifact : ParseArtifact)
  | resume (userText : String)
  | wait (elapsed : ℕ)
  | configure (config : SemioticConfig)

/-- The postconditions a completed call had registered, and those that were run. -/
structure Completion where
  registered : Option PendingPostconditions
  ran : Option PendingPostconditions
  deriving DecidableEq

variable {scope : RuntimeScope}

/-- The submission under whose artifact a call of tier 2 or 3 is allowed. -/
def allowedUnder (r : ScopeRun V scope) (ctx : ToolCallContext V) : Option ℕ :=
  if 2 ≤ (classifyTier (toolMetaFromContext ctx)).asU8 ∧ (metTier P r.gate ctx).isSome ∧
      (r.gate.getLive ctx.runtimeScope artifactTtl).isSome then
    some r.submissions
  else none

def interceptCall (r : ScopeRun V scope) (call : CallIn V scope) : ScopeRun V scope :=
  let (gate, decision) := interceptToolCall P r.gate call.1
  { r with
    gate
    calls := r.calls ++
      [⟨call, registers P r.gate call.1, allowedUnder P r call.1, decision.any fun
        | .allow => true
        | _ => false⟩] }

def completeCall (r : ScopeRun V scope) (index : ℕ) (record : CallRecord V scope) (failed : Bool)
    (passed : List Postcondition → Option String → Bool) : ScopeRun V scope × Option Completion :=
  let ctx := record.call.1
  let succeeded := !failed && (r.gate.config.resolve ctx.agentPackage).enabled
  ({ r with
      gate := onToolCallComplete r.gate ctx failed passed
      calls := r.calls.set index { record with running := false }
      unused := if succeeded && record.allowedUnder = some r.submissions then none else r.unused },
    if succeeded then
      some ⟨record.registered, (r.gate.takePendingPostconditions ctx.runtimeScope).2⟩
    else none)

/-- A completion is reported only for calls that were allowed and not completed yet. -/
def scopeStep (r : ScopeRun V scope) : ScopeEvent V scope → ScopeRun V scope × Option Completion
  | .intercept call => (interceptCall P r call, none)
  | .complete index failed passed =>
      match r.calls[index]? with
      | some record => if record.running then completeCall r index record failed passed else (r, none)
      | none => (r, none)
  | .submit artifact =>
      ({ r with
          gate := r.gate.submit scope artifact
          submissions := r.submissions + 1
          unused := some (artifact, r.gate.now) }, none)
  | .resume userText => ({ r with gate := (r.gate.resolveOnResume P scope userText).1 }, none)
  | .wait elapsed => ({ r with gate := { r.gate with now := r.gate.now + elapsed } }, none)
  | .configure config => ({ r with gate := { r.gate with config } }, none)

/-- The gate is enabled for the calls that are intercepted and completed. -/
def GateEnabled (r : ScopeRun V scope) : ScopeEvent V scope → Prop
  | .intercept call => (r.gate.config.resolve call.1.agentPackage).enabled
  | .complete index _ _ =>
      ∀ record ∈ r.calls[index]?, (r.gate.config.resolve record.call.1.agentPackage).enabled
  | _ => True

end AgentiumOs.Semiotic
