import AgentiumOs.Archive.Rendered
import AgentiumOs.Lib.Json

/-! The rendering of a tool's result as lines, in the manner of YAML. Line breaks in values are
escaped or wrapped, those in keys are not: a rendering has an empty line only through a key. -/

namespace AgentiumOs.Archive

open Lib
open Lib.Json (Value)

def OneLine (s : String) : Prop := s ≠ "" ∧ '\n' ∉ s.toList

instance : DecidablePred OneLine := fun s => inferInstanceAs (Decidable (s ≠ "" ∧ '\n' ∉ s.toList))

/-- JSON on one line, and the lower case of texts, as the libraries give them. -/
structure RenderLibrary where
  compact : Value → String
  oneLine_compact : ∀ v, OneLine (compact v)
  toLowercase : String → String

def blockScalarThreshold : ℕ := 80

def wrapWidth : ℕ := 78

def spaces (n : ℕ) : String := String.ofList (List.replicate n ' ')

def escapeYamlString (s : String) : String :=
  Text.replaceChar '\t' "\\t" <| Text.replaceChar '\n' "\\n" <|
    Text.replaceChar '"' "\\\"" <| Text.replaceChar '\\' "\\\\" s

section

variable (R : RenderLibrary)

def isYamlKeyword (s : String) : Bool :=
  ["null", "true", "false", "yes", "no", "on", "off", "~"].contains (R.toLowercase s)

/-- Characters that mean something to YAML at the start of a scalar. -/
def indicators : List Char := "#'\"\x7b[*&!|>%@`".toList

def quoteIfNeeded (s : String) : String :=
  if s = "" || Text.contains s ": " || Text.contains s " #" || s.toList.head?.any (indicators.contains ·) ||
      s.toList.contains '\n' || isYamlKeyword R s then
    "\"" ++ escapeYamlString s ++ "\""
  else s

def renderScalar : Value → String
  | .string s => quoteIfNeeded R s
  | .bool b => toString b
  | .null => "null"
  | val => R.compact val

def needsBlockScalar (s : String) : Bool := blockScalarThreshold < s.utf8ByteSize || s.toList.contains '\n'

def wrapWords (maxWidth : ℕ) : List String → String → List String
  | [], currentLine => if currentLine = "" then [] else [currentLine]
  | word :: words, currentLine =>
      if currentLine = "" then wrapWords maxWidth words word
      else if currentLine.utf8ByteSize + 1 + word.utf8ByteSize ≤ maxWidth then
        wrapWords maxWidth words (currentLine ++ " " ++ word)
      else currentLine :: wrapWords maxWidth words word

def wrapText (text : String) (maxWidth : ℕ) : List String :=
  (text.toList.splitOn '\n').flatMap fun paragraph =>
    let words := Text.splitWhitespace paragraph
    if words.isEmpty then [""] else wrapWords (max maxWidth 20) words ""

def isScalar : Value → Bool
  | .array _ | .object _ => false
  | _ => true

mutual

def renderField (lead key : String) (continuationIndent : ℕ) : Value → List String
  | .string s =>
      if needsBlockScalar s then
        (lead ++ key ++ ": >-") ::
          (wrapText s (wrapWidth - continuationIndent)).map (spaces continuationIndent ++ ·)
      else [lead ++ key ++ ": " ++ quoteIfNeeded R s]
  | .object members =>
      (lead ++ key ++ ":") ::
        renderFields (spaces continuationIndent) (spaces continuationIndent) (continuationIndent + 2) members
  | .array items =>
      if items.isEmpty then [lead ++ key ++ ": []"]
      else if items.all isScalar then
        let inline := lead ++ key ++ ": [" ++ ", ".intercalate (items.map (renderScalar R)) ++ "]"
        if inline.utf8ByteSize ≤ blockScalarThreshold then [inline]
        else (lead ++ key ++ ":") :: items.map (spaces continuationIndent ++ "- " ++ renderScalar R ·)
      else (lead ++ key ++ ":") :: renderItems continuationIndent items
  | val => [lead ++ key ++ ": " ++ renderScalar R val]

/-- The fields of an object; the first may be marked as the start of an item. -/
def renderFields (firstLead lead : String) (continuationIndent : ℕ) : List (String × Value) → List String
  | [] => []
  | (key, val) :: members =>
      renderField firstLead key continuationIndent val ++ renderFields lead lead continuationIndent members

def renderItems (continuationIndent : ℕ) : List Value → List String
  | [] => []
  | .object members :: items =>
      renderFields (spaces continuationIndent ++ "- ") (spaces continuationIndent ++ "  ") (continuationIndent + 4)
        members ++ renderItems continuationIndent items
  | item :: items => (spaces continuationIndent ++ "- " ++ renderScalar R item) :: renderItems continuationIndent items

end

def renderObjectItem (members : List (String × Value)) (baseIndent : String) (continuationIndent : ℕ) : List String :=
  renderFields R (baseIndent ++ "- ") (baseIndent ++ "  ") continuationIndent members

def renderMapping (members : List (String × Value)) (indent : ℕ) : List String :=
  renderFields R (spaces indent) (spaces indent) (indent + 2) members

def renderItem : Value → List String
  | .object members => renderObjectItem R members "" 2
  | item => [renderScalar R item]

def isObject : Value → Bool
  | .object _ => true
  | _ => false

def renderLines : Value → List String
  | .array items =>
      if items.isEmpty then ["(empty)"]
      else if items.all isObject then items.flatMap (renderItem R)
      else items.map (renderScalar R)
  | .object members => renderMapping R members 0
  | val => [renderScalar R val]

def renderToLines (value : Value) : RenderedContent := .fromLines (renderLines R value)

/-! ### Quoting -/

def escaped (c : Char) : List Char :=
  if c = '\\' then ['\\', '\\']
  else if c = '"' then ['\\', '"']
  else if c = '\n' then ['\\', 'n']
  else if c = '\t' then ['\\', 't']
  else [c]

/-- A replacement finds none of the characters that one before it has put in. -/
theorem escapeYamlString_toList (s : String) : (escapeYamlString s).toList = s.toList.flatMap escaped := by
  simp only [escapeYamlString, Text.replaceChar, String.toList_ofList, List.flatMap_assoc]
  refine List.flatMap_congr fun c _ => ?_
  rw [escaped]
  split
  · rfl
  · split_ifs <;> simp_all

def unescaped : List Char → List Char
  | '\\' :: d :: cs => (if d = 'n' then '\n' else if d = 't' then '\t' else d) :: unescaped cs
  | c :: cs => c :: unescaped cs
  | [] => []

theorem unescaped_escaped (cs : List Char) : unescaped (cs.flatMap escaped) = cs := by
  induction cs with
  | nil => rfl
  | cons c cs ih =>
    rw [List.flatMap_cons, escaped]
    split_ifs <;> simp_all [unescaped]

theorem quoteIfNeeded_cases (s : String) : quoteIfNeeded R s = "\"" ++ escapeYamlString s ++ "\"" ∨
    quoteIfNeeded R s = s ∧ '\n' ∉ s.toList ∧ s.toList.head? ≠ some '"' := by
  rw [quoteIfNeeded]
  split
  · exact .inl rfl
  · rename_i h
    simp only [Bool.or_eq_true, not_or] at h
    obtain ⟨⟨⟨-, hq⟩, hn⟩, -⟩ := h
    refine .inr ⟨rfl, by simpa using hn, fun hs => hq ?_⟩
    rw [hs]
    decide

/-- The output of quoting is a single line, and different strings have different outputs: only a
string that is quoted gives one that starts with a quote. -/
theorem quoting_unambiguous : Function.Injective (quoteIfNeeded R) ∧ ∀ s, '\n' ∉ (quoteIfNeeded R s).toList := by
  have hu : ∀ s, unescaped (escapeYamlString s).toList = s.toList := fun s => by
    rw [escapeYamlString_toList, unescaped_escaped]
  constructor
  · intro s t h
    rcases quoteIfNeeded_cases R s with hs | ⟨hs, -, hs'⟩ <;>
      rcases quoteIfNeeded_cases R t with ht | ⟨ht, -, ht'⟩ <;> rw [hs, ht] at h
    · have he := congrArg String.toList h
      simp only [String.toList_append, List.append_cancel_right_eq, List.append_cancel_left_eq] at he
      rw [← String.toList_inj, ← hu s, he, hu]
    · exact absurd (by rw [← h]; simp) ht'
    · exact absurd (by rw [h]; simp) hs'
    · exact h
  · intro s
    rcases quoteIfNeeded_cases R s with hs | ⟨hs, hn, -⟩
    · have hn : ∀ c, '\n' ∉ escaped c := by
        intro c
        rw [escaped]
        split_ifs <;> simp_all [eq_comm]
      simp [hs, escapeYamlString_toList, hn]
    · rwa [hs]

end

end AgentiumOs.Archive
