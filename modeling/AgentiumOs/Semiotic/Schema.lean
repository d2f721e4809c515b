import Mathlib

/-! Grounding artifacts: nodes anchored by signs, the weight of a sign and the
strength of a node. Weights are exact decimals. -/

namespace AgentiumOs.Semiotic

def signWeights : List (String × ℚ) :=
  [("symbol", 3 / 10), ("index", 8 / 10), ("icon", 9 / 10), ("verify", 1), ("free", 1)]

inductive Template where
  | agenticExecution
  | delegation
  | codeGeneration
  | consequentialContent
  | research
  deriving DecidableEq

/-- Any unknown name is read as agentic execution. -/
def Template.parse : String → Template
  | "delegation" => .delegation
  | "code_generation" => .codeGeneration
  | "consequential_content" => .consequentialContent
  | "research" => .research
  | _ => .agenticExecution

def criticalNodes : Template → List String
  | .agenticExecution => ["ACTION", "TARGET", "SCOPE"]
  | .delegation => ["CRITERIA", "GOAL"]
  | .codeGeneration => ["BEHAVIOR", "INTERFACE"]
  | .consequentialContent => ["AUDIENCE", "OBJECTIVE", "FACTS"]
  | .research => ["SUBJECT", "SCOPE"]

def signWeight (sign : String) : ℚ :=
  ((signWeights.find? fun entry => entry.1 = sign).map (·.2)).getD 0

inductive AnchorSign where
  | symbol
  | index
  | icon
  | verify
  | free
  deriving DecidableEq

def AnchorSign.asStr : AnchorSign → String
  | symbol => "symbol"
  | index => "index"
  | icon => "icon"
  | verify => "verify"
  | free => "free"

structure Anchor where
  sign : AnchorSign
  content : String
  deriving DecidableEq

structure Node where
  name : String
  anchors : List Anchor
  interpretations : List String
  trojan : Option String
  deriving DecidableEq

namespace Node

/-- Some anchor says more than a convention does. -/
def hasDisambig (node : Node) : Bool :=
  node.anchors.any fun a => a.sign = .icon || a.sign = .index || a.sign = .verify

/-- What an anchor of the node counts: a symbol alone on a flagged node is vetoed. -/
def anchorWeight (node : Node) (trojanVeto : Bool) (anchor : Anchor) : ℚ :=
  if trojanVeto && node.trojan.isSome && (anchor.sign = .symbol : Bool) && !node.hasDisambig then 0
  else signWeight anchor.sign.asStr

def strength (node : Node) (trojanVeto : Bool) : ℚ :=
  node.anchors.foldl (fun best anchor => max best (node.anchorWeight trojanVeto anchor)) 0

def hasSign (node : Node) (sign : AnchorSign) : Bool := node.anchors.any fun a => a.sign = sign

def ambiguous (node : Node) : Bool := node.trojan.isSome || node.interpretations.length > 1

end Node

structure Postcondition where
  cmd : String
  desc : String
  deriving DecidableEq

structure ParseArtifact where
  instruction : String
  template : String
  nodes : List Node
  covers : List String
  postconditions : List Postcondition
  deriving DecidableEq

namespace ParseArtifact

def templateKind (art : ParseArtifact) : Template := Template.parse art.template

def node (art : ParseArtifact) (name : String) : Option Node := art.nodes.find? fun n => n.name = name

end ParseArtifact

theorem le_foldl_max_iff (w : Anchor → ℚ) (c : ℚ) (an : List Anchor) (s : ℚ) :
    c ≤ an.foldl (fun b anchor => max b (w anchor)) s ↔ c ≤ s ∨ ∃ anchor ∈ an, c ≤ w anchor := by
  induction an generalizing s with
  | nil => simp
  | cons anchor rest ih =>
    simp [ih, or_assoc]

theorem grounded_iff (n : Node) (t : Bool) : 8 / 10 ≤ n.strength t ↔ ∃ an ∈ n.anchors, an.sign ≠ .symbol := by
  have hw : ∀ an, 8 / 10 ≤ n.anchorWeight t an ↔ an.sign ≠ .symbol := by
    intro an
    unfold Node.anchorWeight
    cases hs : an.sign <;> simp [AnchorSign.asStr, signWeight, signWeights] <;> norm_num
    split_ifs <;> norm_num
  unfold Node.strength
  rw [le_foldl_max_iff]
  simp only [hw]
  norm_num

end AgentiumOs.Semiotic
