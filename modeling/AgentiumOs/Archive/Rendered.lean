import AgentiumOs.Lib.Text

/-! Rendered text, kept as its lines. -/

namespace AgentiumOs.Archive

open Lib

/-- The source keeps one buffer with the offset of each line end; its lines are what is read. -/
structure RenderedContent where
  lines : List String
  newline_notMem : ∀ line ∈ lines, '\n' ∉ line.toList

namespace RenderedContent

/-- Items that contain line breaks are split; an empty item is an empty line. -/
def fromLines (items : List String) : RenderedContent where
  lines := items.flatMap fun item => if item = "" then [""] else Text.lines item
  newline_notMem := by
    intro line hline
    obtain ⟨item, -, hmem⟩ := List.mem_flatMap.mp hline
    split at hmem
    · rw [List.mem_singleton.mp hmem]
      exact List.not_mem_nil
    · exact Text.newline_notMem_of_mem_lines hmem

def lineCount (content : RenderedContent) : ℕ := content.lines.length

/-- Every line is followed by a line feed in the buffer. -/
def byteCount (content : RenderedContent) : ℕ := (content.lines.map fun line => line.utf8ByteSize + 1).sum

def isEmpty (content : RenderedContent) : Bool := content.lines.isEmpty

@[ext] theorem ext {c d : RenderedContent} (h : c.lines = d.lines) : c = d := by
  cases c
  cases h
  rfl

theorem lines_fromLines (h : ∀ item ∈ items, '\n' ∉ item.toList) : (fromLines items).lines = items := by
  have hs : ∀ item ∈ items, (if item = "" then [""] else Text.lines item) = [item] := by
    intro item hi
    split
    · rename_i he
      rw [he]
    · rename_i hne
      exact Text.lines_of_newline_notMem hne (h item hi)
  exact (List.flatMap_congr hs).trans (List.flatMap_singleton' items)

@[simp] theorem fromLines_lines (content : RenderedContent) : fromLines content.lines = content :=
  ext (lines_fromLines content.newline_notMem)

end RenderedContent

end AgentiumOs.Archive
