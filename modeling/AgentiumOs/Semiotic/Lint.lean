import AgentiumOs.Lib.Text
import AgentiumOs.Semiotic.Schema

/-! Trojan phrases, the lint that flags nodes by them, and the matching of an
artifact's covers against a call. The regular expression engine, the Unicode
case table and the serializer of arguments are parameters. -/

namespace AgentiumOs.Semiotic

open Lib

/-- What the gate uses from outside; `V` is the type of argument values. A pattern
that does not compile gives no match result. -/
structure Platform (V : Type) where
  toLowercase : String → String
  regexEscape : String → String
  regexIsMatch : String → String → Option Bool
  /-- Byte offsets of the first match. -/
  regexFind : String → String → Option (ℕ × ℕ)
  toJson : V → String
  debug : String → String
  /-- The order in which a hash set gives its elements. -/
  hashOrder : List String → List String
  hashOrder_perm : ∀ elements, (hashOrder elements).Perm elements

variable {V : Type} (P : Platform V)

def trojans : List String :=
  ["most recent", "the latest", "the right one", "inactive", "stale", "clean up", "cleanup",
    "tidy up", "the team", "the migration", "best", "soon", "asap", "production-ready",
    "small change", "the usual", "old", "unused", "duplicates", "outdated", "everyone",
    "the important ones", "recent", "active users", "temporary", "obsolete"]

def defusers : String :=
  "(?i)(\\b(older|newer|more|less|greater)\\s+than\\b|\\b\\d+\\s*(days?|hours?|weeks?|months?|years?|%|percent)\\b|\\bwhere\\s+\\w+\\s*(=|<|>|!=)|\\bdefined as\\b|\\bmeaning\\b|\\bi\\.e\\.|\\bspecifically\\b)"

def wordPattern (phrase : String) : String := "\\b" ++ P.regexEscape phrase ++ "\\b"

/-- The phrases whose first occurrence is not defused by the 60 bytes after it;
the slice panics inside a character. -/
def keepUndefused (t : String) : List String → Option (List String)
  | [] => some []
  | phrase :: rest =>
      match P.regexFind (wordPattern P phrase) t with
      | none => keepUndefused t rest
      | some (_, stop) => do
          let window ← Text.sliceBytes t stop (min t.utf8ByteSize (stop + 60))
          let defused ← P.regexIsMatch defusers window
          let kept ← keepUndefused t rest
          pure (if defused then kept else phrase :: kept)

/-- The trojan phrases of a text; none when the search panics. -/
def detect (text : String) : Option (List String) :=
  let t := P.toLowercase text
  let matched := trojans.filter fun phrase => (P.regexIsMatch (wordPattern P phrase) t).getD false
  let found := (matched.mergeSort fun a b => decide (a ≤ b)).destutter (· ≠ ·)
  keepUndefused P t (found.filter fun p => !found.any fun q => (p ≠ q : Bool) && Text.contains q p)

def Node.symbolText (node : Node) : String :=
  " ".intercalate ((node.anchors.filter fun a => a.sign = .symbol).map fun a => P.toLowercase a.content)

/-- A flag is dropped when its phrase stands in the text and was not detected there. -/
def clearTrojan (text : String) (detected : List String) (node : Node) : Node :=
  match node.trojan with
  | none => node
  | some phrase =>
      let phrase := P.toLowercase phrase
      if Text.contains text phrase && !detected.contains phrase && trojans.contains phrase then
        { node with trojan := none }
      else node

/-- An unflagged node is flagged by a detected phrase among its symbols. -/
def tagTrojan (detected : List String) (node : Node) : Node :=
  match node.trojan with
  | some _ => node
  | none =>
      { node with
        trojan := (P.hashOrder detected).find? fun phrase =>
          Text.contains (node.symbolText P) phrase && !node.hasDisambig }

def lintNode (text : String) (detected : List String) (node : Node) : Node :=
  tagTrojan P detected (clearTrojan P text detected node)

def lint (art : ParseArtifact) : Option ParseArtifact := do
  let text := P.toLowercase art.instruction
  let detected ← detect P text
  pure { art with nodes := art.nodes.map (lintNode P text detected) }

/-- Some pattern of the artifact matches the call's text; a pattern that is no
regular expression is searched literally. -/
def coversMatch (patterns : List String) (toolName : String) (args : V) : Bool :=
  let callText := toolName ++ " " ++ P.toJson args
  !patterns.isEmpty && patterns.any fun pattern =>
    (P.regexIsMatch pattern callText).getD (Text.contains callText pattern)

/-! ### Lint changes flags only -/

theorem clearTrojan_eq (t : String) (d : List String) (n : Node) :
    ∃ flag, clearTrojan P t d n = { n with trojan := flag } := by
  unfold clearTrojan
  split
  · exact ⟨n.trojan, rfl⟩
  · simp only
    split_ifs
    · exact ⟨none, rfl⟩
    · exact ⟨n.trojan, rfl⟩

theorem tagTrojan_eq (d : List String) (n : Node) : ∃ flag, tagTrojan P d n = { n with trojan := flag } := by
  unfold tagTrojan
  split
  · exact ⟨n.trojan, rfl⟩
  · exact ⟨_, rfl⟩

theorem lintNode_eq (t : String) (d : List String) (n : Node) :
    ∃ flag, lintNode P t d n = { n with trojan := flag } := by
  obtain ⟨cleared, hc⟩ := clearTrojan_eq P t d n
  obtain ⟨flag, hf⟩ := tagTrojan_eq P d { n with trojan := cleared }
  exact ⟨flag, by rw [lintNode, hc, hf]⟩

@[simp] theorem lintNode_name (t : String) (d : List String) (n : Node) : (lintNode P t d n).name = n.name := by
  obtain ⟨flag, hf⟩ := lintNode_eq P t d n
  rw [hf]

theorem lint_keeps (h : lint P art = some l) : l.template = art.template ∧ l.covers = art.covers ∧
      l.postconditions = art.postconditions ∧
      l.nodes.map Node.name = art.nodes.map Node.name := by
  obtain ⟨d, -, hl⟩ := Option.bind_eq_some_iff.mp h
  cases hl
  simp

end AgentiumOs.Semiotic
