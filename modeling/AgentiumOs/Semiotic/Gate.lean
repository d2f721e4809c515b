import AgentiumOs.Semiotic.Lint

/-! Tiers of tool calls and the ambiguity-aware gate. A critical or ambiguous node
has to reach the strength its tier needs; the other nodes have a floor. -/

namespace AgentiumOs.Semiotic

open Lib

inductive Tier where
  | read
  | routine
  | mutating
  | irreversible
  deriving DecidableEq

scoped instance four_neZero : NeZero 4 := ⟨four_ne_zero⟩

def Tier.asU8 : Tier → Fin 4
  | read => 0
  | routine => 1
  | mutating => 2
  | irreversible => 3

def Tier.fromU8 : ℕ → Tier
  | 0 => read
  | 1 => routine
  | 2 => mutating
  | 3 => irreversible
  | _ => mutating

inductive ToolAccess where
  | read
  | write
  | delete

structure ToolTierMeta where
  accessLevel : ToolAccess
  tags : List String
  destructiveHint : Option Bool
  isDelegation : Bool

def tagTier (tag : String) : Option Tier :=
  ((Text.withoutLead tag "semiotic:tier=").bind (Text.parseUnsigned 255)).map Tier.fromU8

def classifyTier (tool : ToolTierMeta) : Tier :=
  match tool.tags.findSome? tagTier with
  | some tier => tier
  | none =>
      if tool.isDelegation then .mutating
      else if tool.destructiveHint = some true then .irreversible
      else match tool.accessLevel with
        | .read => .read
        | .write => .mutating
        | .delete => .irreversible

inductive GateAction where
  | execute
  | executeFlagged
  | ask
  | queueForHuman

structure GateDecision where
  action : GateAction
  tier : Fin 4
  score : ℚ
  requests : List String
  reason : String

def ParseArtifact.isCritical (art : ParseArtifact) (name : String) : Bool :=
  (criticalNodes art.templateKind).contains name

/-- Critical nodes first, then the nodes with more readings. -/
def rankedRequests (art : ParseArtifact) (deficient : List String) : List String :=
  let critical := fun name => ((art.node name).map fun n => art.isCritical n.name).getD false
  let readings := fun name => ((art.node name).map fun n => n.interpretations.length).getD 0
  deficient.mergeSort fun a b =>
    ((compare (critical b) (critical a)).then (compare (readings a) (readings b)).swap) != .gt

structure AmbiguityAwareGate where
  need : Fin 4 → ℚ
  suppFloor : Fin 4 → ℚ
  requireVerifyT3 : Bool

open AmbiguityAwareGate

namespace AmbiguityAwareGate

def default : AmbiguityAwareGate where
  need := ![0, 3 / 10, 8 / 10, 8 / 10]
  suppFloor := ![0, 0, 0, 0]
  requireVerifyT3 := true

variable (gate : AmbiguityAwareGate)

def needed (art : ParseArtifact) (tier : Tier) (node : Node) : ℚ :=
  if art.isCritical node.name || node.ambiguous then gate.need tier.asU8 else gate.suppFloor tier.asU8

def weakNodes (art : ParseArtifact) (tier : Tier) : List String :=
  (art.nodes.filter fun node => node.strength true < gate.needed art tier node).map Node.name

/-- At tier 3 a criterion without a check is deficient too. -/
def lacksVerify (art : ParseArtifact) (tier : Tier) : Bool :=
  (tier = .irreversible : Bool) && gate.requireVerifyT3 && (art.templateKind = .agenticExecution : Bool) &&
    ((art.node "CRITERION").map fun node => !node.hasSign .verify).getD false

def deficient (art : ParseArtifact) (tier : Tier) : List String :=
  let weak := gate.weakNodes art tier
  if gate.lacksVerify art tier && !weak.contains "CRITERION" then weak ++ ["CRITERION"] else weak

def score (art : ParseArtifact) : ℚ :=
  ((art.nodes.filter fun node => art.isCritical node.name || node.ambiguous).map
    fun node => node.strength true).foldl min 1

def decide {V : Type} (P : Platform V) (art : ParseArtifact) (tier : Tier) : GateDecision :=
  let deficient := gate.deficient art tier
  if deficient.isEmpty then
    { action := if tier.asU8 ≤ 1 then .execute else .executeFlagged
      tier := tier.asU8, score := score art, requests := [], reason := "" }
  else
    { action := if tier = .irreversible then .queueForHuman else .ask
      tier := tier.asU8, score := score art, requests := rankedRequests art deficient
      reason := "deficient: [" ++ ", ".intercalate (deficient.map P.debug) ++ "]" }

end AmbiguityAwareGate

/-! ### What the gate lets through -/

variable (art : ParseArtifact)

theorem rankedRequests_eq_nil_iff (d : List String) : rankedRequests art d = [] ↔ d = [] := by
  rw [← List.length_eq_zero_iff, ← List.length_eq_zero_iff, rankedRequests, List.length_mergeSort]

variable (gate : AmbiguityAwareGate)

theorem requests_eq_nil_iff (P : Platform V) (art : ParseArtifact) (t : Tier) :
    (gate.decide P art t).requests = [] ↔ gate.deficient art t = [] := by
  unfold AmbiguityAwareGate.decide
  by_cases he : gate.deficient art t = []
  · simp [he]
  · simp [he, rankedRequests_eq_nil_iff]

theorem action_of_requests_nil (P : Platform V) (art : ParseArtifact) (t : Tier)
    (h : (gate.decide P art t).requests = []) : (gate.decide P art t).action ≠ .queueForHuman := by
  rw [requests_eq_nil_iff] at h
  unfold AmbiguityAwareGate.decide
  simp only [h, List.isEmpty_nil]
  split_ifs <;> simp

theorem strength_nonneg (n : Node) (trojanVeto : Bool) : 0 ≤ n.strength trojanVeto := by
  unfold Node.strength
  rw [le_foldl_max_iff]
  exact .inl le_rfl

theorem weakNodes_eq_nil_iff (ht : 2 ≤ t.asU8) : AmbiguityAwareGate.default.weakNodes art t = [] ↔
      ∀ node ∈ art.nodes, art.isCritical node.name ∨ node.ambiguous → 8 / 10 ≤ node.strength true := by
  have hn : default.need t.asU8 = 8 / 10 := by
    cases t <;> first | rfl | exact absurd ht (by decide)
  have hf : default.suppFloor t.asU8 = 0 := by
    cases t <;> rfl
  simp only [weakNodes, List.map_eq_nil_iff, List.filter_eq_nil_iff, needed, hn, hf]
  refine forall₂_congr fun node _ => ?_
  by_cases hm : art.isCritical node.name ∨ node.ambiguous
  · simp [hm]
  · simp [hm, strength_nonneg]

theorem deficient_eq_nil_iff (t : Tier) : gate.deficient art t = [] ↔
      gate.weakNodes art t = [] ∧ gate.lacksVerify art t = false := by
  unfold deficient
  by_cases hw : gate.weakNodes art t = []
  · cases gate.lacksVerify art t <;> simp [hw]
  · simp only [hw, false_and, iff_false]
    split_ifs
    · simp
    · exact hw

end AgentiumOs.Semiotic
