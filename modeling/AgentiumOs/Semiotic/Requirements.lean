import AgentiumOs.Semiotic.Interceptor

/-! What the verdict that the requirements are met says about the artifact it was
reached on. Nothing in it asks that a critical node is there at all. -/

namespace AgentiumOs.Semiotic

open AgentiumOs.Core Lib

variable {V : Type} (P : Platform V)

theorem judge_requirementsMet_iff (ctx : ToolCallContext V) (t : Tier) (p : SemioticPolicy)
    (art : ParseArtifact) :
    (judge P ctx t p art).reason = .requirementsMet ↔ coversMatch P art.covers ctx.toolName ctx.args = true ∧
        (needsPostconditions t p → art.postconditions ≠ []) ∧
        AmbiguityAwareGate.default.deficient art t = [] := by
  have hp : (needsPostconditions t p → art.postconditions ≠ []) ↔
      (needsPostconditions t p && art.postconditions.isEmpty) = false := by
    cases needsPostconditions t p <;> simp
  rw [hp, ← requests_eq_nil_iff AmbiguityAwareGate.default P]
  unfold judge
  cases coversMatch P art.covers ctx.toolName ctx.args with
  | false => simp
  | true =>
    cases needsPostconditions t p && art.postconditions.isEmpty with
    | true => simp
    | false =>
      by_cases hr : (AmbiguityAwareGate.default.decide P art t).requests = []
      · have ha := action_of_requests_nil _ P art t hr
        simp only [hr]
        generalize (AmbiguityAwareGate.default.decide P art t).action = ac at ha
        cases ac with
        | queueForHuman => exact absurd rfl ha
        | execute | executeFlagged | ask => simp
      · simp [hr]

theorem evaluate_requirementsMet (he : evaluate P s ctx t p = some v) (hm : v.reason = .requirementsMet) :
    2 ≤ (classifyTier t).asU8 ∧ ∃ raw l, s.getLive ctx.runtimeScope artifactTtl = some raw ∧
      lint P raw = some l ∧
      (judge P ctx (classifyTier t) p l).reason = .requirementsMet := by
  unfold evaluate at he
  by_cases ht : (classifyTier t).asU8 ≤ 1
  · simp only [ht, if_true, Option.some.injEq] at he
    subst he
    cases hm
  · simp only [ht, if_false] at he
    cases hl : s.getLive ctx.runtimeScope artifactTtl with
    | none =>
      simp only [hl, Option.some.injEq] at he
      subst he
      cases hm
    | some raw =>
      simp only [hl, Option.map_eq_some_iff] at he
      obtain ⟨l, hli, rfl⟩ := he
      refine ⟨?_, raw, l, rfl, hli, hm⟩
      revert ht
      cases classifyTier t <;> decide

/-- What the gate has checked of an artifact, on the flags that lint leaves. -/
structure Grounded (ctx : ToolCallContext V) (tier : Tier) (policy : SemioticPolicy)
    (raw linted : ParseArtifact) : Prop where
  critical : ∀ node ∈ raw.nodes, raw.isCritical node.name → 8 / 10 ≤ node.strength true
  ambiguous : ∀ node ∈ linted.nodes, node.ambiguous → 8 / 10 ≤ node.strength true
  covers : coversMatch P raw.covers ctx.toolName ctx.args = true
  postconditions : needsPostconditions tier policy → raw.postconditions ≠ []

/-- Lint keeps the anchors of every node, so it keeps which nodes are grounded. -/
theorem critical_of_linted (hl : lint P raw = some l)
    (h : ∀ n ∈ l.nodes, l.isCritical n.name → 8 / 10 ≤ n.strength true) :
    ∀ n ∈ raw.nodes, raw.isCritical n.name → 8 / 10 ≤ n.strength true := by
  intro n hn hc
  obtain ⟨d, -, hli⟩ := Option.bind_eq_some_iff.mp hl
  cases hli
  obtain ⟨flag, hf⟩ := lintNode_eq P (P.toLowercase raw.instruction) d n
  have hs := h _ (List.mem_map_of_mem hn) (by rw [hf]; exact hc)
  rw [hf, grounded_iff] at hs
  exact (grounded_iff n true).mpr hs

/-- A call whose requirements are met is at tier 2 or 3 and its artifact is grounded. -/
theorem requirementsMet_grounded (s : SemioticState) (ctx : ToolCallContext V) (tool : ToolTierMeta)
    (policy : SemioticPolicy) (verdict : GateVerdict) (heval : evaluate P s ctx tool policy = some verdict)
    (hmet : verdict.reason = .requirementsMet) :
    ∃ raw linted, s.getLive ctx.runtimeScope artifactTtl = some raw ∧ lint P raw = some linted ∧
      Grounded P ctx (classifyTier tool) policy raw linted := by
  obtain ⟨ht, raw, linted, hli, hl, hj⟩ := evaluate_requirementsMet P heval hmet
  obtain ⟨hco, hpo, hd⟩ := (judge_requirementsMet_iff P ctx _ policy linted).mp hj
  obtain ⟨-, h, hp, -⟩ := lint_keeps P hl
  have hs := (weakNodes_eq_nil_iff linted ht).mp ((deficient_eq_nil_iff _ _ _).mp hd).1
  refine ⟨raw, linted, hli, hl, ?_, ?_, ?_, ?_⟩
  · exact critical_of_linted P hl fun node hn hc => hs node hn (.inl hc)
  · exact fun node hn ha => hs node hn (.inr ha)
  · rwa [h] at hco
  · rwa [hp] at hpo

/-- A platform whose patterns are matched literally. -/
def literalPlatform : Platform String where
  toLowercase := id
  regexEscape := id
  regexIsMatch := fun pattern text => some (Text.contains text pattern)
  regexFind := fun _ _ => none
  toJson := id
  debug := id
  hashOrder := id
  hashOrder_perm := .refl

def enforcing : SemioticPolicy :=
  { enabled := true, mode := .enforce, enforceMinTier := 2, requirePostconditionsT3 := true }

/-- An artifact without nodes that covers the call of `writeCall`. -/
def nodelessArtifact : ParseArtifact :=
  { instruction := "", template := "agentic_execution", nodes := [], covers := ["write"]
    postconditions := [⟨"true", "always"⟩] }

def writeCall : ToolCallContext String :=
  { toolName := "write", args := "1", runtimeScope := .taskScope "context" "agent" "message" "task"
    metadata := ⟨some "write", none, none⟩, agentPackage := none, delegationTarget := none }

def freshState : SemioticState :=
  { now := 0, config := ⟨enforcing, ∅⟩, grounding := ∅, pendingPostconditions := ∅, pendingAuth := ∅
    outcomes := ∅, denied := ∅ }

def pinned (name : String) : Node :=
  { name, anchors := [⟨.index, "prod.db"⟩], interpretations := [], trojan := none }

def pinnedArtifact : ParseArtifact :=
  { nodelessArtifact with nodes := [pinned "ACTION", pinned "TARGET", pinned "SCOPE"] }

theorem pinned_requirementsMet : ∃ raw linted,
      (freshState.submit writeCall.runtimeScope pinnedArtifact).getLive writeCall.runtimeScope artifactTtl =
        some raw ∧ lint literalPlatform raw = some linted ∧
      Grounded literalPlatform writeCall (classifyTier (toolMetaFromContext writeCall)) enforcing raw linted :=
  requirementsMet_grounded literalPlatform _ writeCall (toolMetaFromContext writeCall) enforcing
    ⟨.mutating, .requirementsMet, none⟩ (by decide +kernel) rfl

/-- The artifact without nodes meets the requirements. -/
theorem nodeless_requirementsMet :
    evaluate literalPlatform (freshState.submit writeCall.runtimeScope nodelessArtifact) writeCall
        (toolMetaFromContext writeCall) enforcing = some ⟨.mutating, .requirementsMet, none⟩ ∧
      ¬ ∀ name ∈ criticalNodes nodelessArtifact.templateKind, name ∈ nodelessArtifact.nodes.map Node.name := by
  refine ⟨by decide +kernel, fun h => ?_⟩
  exact absurd (h "ACTION" (by decide)) (by decide)

end AgentiumOs.Semiotic
