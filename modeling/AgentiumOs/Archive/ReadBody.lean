import AgentiumOs.Archive.Grep
import AgentiumOs.Archive.RefTable
import AgentiumOs.Lib.Listing

/-! The text of an archive read: a command, a comment on the window if it is not the whole, and the
numbered lines of the page. The lines that a text shows are read back from it. -/

namespace AgentiumOs.Archive

open Lib List

def lineNumberWidth (maxLine : ℕ) : ℕ := max (Nat.digits 10 (max maxLine 1)).length 6

def formatCatN (lines : List LineWithPosition) : String :=
  if lines.isEmpty then ""
  else
    let maxNum := (lines.map LineWithPosition.originalLineNumber).foldl max 0
    let width := lineNumberWidth maxNum
    String.ofList (Listing.unlines (lines.map fun line => Listing.row width (line.originalLineNumber, line.text)))

def sessionRangeComment (page : GrepPage) (archiveRef : String) : String :=
  match page.lines.head?, page.lines.getLast? with
  | some firstLine, some lastLine =>
      let first := toString firstLine.originalLineNumber
      let last := toString lastLine.originalLineNumber
      let total := toString page.totalMatched
      let off := toString page.nextOffset
      if page.hasMore then
        "  # More lines are not shown below — emit SearchRead (non-empty grep) to narrow " ++ archiveRef ++
          ", or PageRead to continue " ++ archiveRef ++ " with offset=" ++ off ++ ". Window: lines " ++ first ++ "-" ++
          last ++ " of " ++ total ++ " (" ++ toString (page.totalMatched - page.nextOffset) ++ " more — offset=" ++
          off ++
          " for next page)"
      else if firstLine.originalLineNumber = 1 ∧ lastLine.originalLineNumber = page.totalMatched then ""
      else "  # lines " ++ first ++ "-" ++ last ++ " of " ++ total
  | _, _ => ""

def sessionReadCommandLine (archiveRef : String) (grepRaw : Option String) : String :=
  match grepRaw.filter (· ≠ "") with
  | some pattern => "grep -n '" ++ pattern ++ "' " ++ archiveRef
  | none => "cat -n " ++ archiveRef

def formatGrepPageAsSessionReadBody (page : GrepPage) (archiveRef : String) (grepRaw : Option String) : String :=
  let formatted := formatCatN page.lines
  let cmd := sessionReadCommandLine archiveRef grepRaw
  if page.lines.isEmpty then cmd ++ "\n# no matches"
  else
    let rangeComment := sessionRangeComment page archiveRef
    let body :=
      if rangeComment = "" then cmd ++ "\n" ++ formatted else cmd ++ "\n" ++ rangeComment ++ "\n" ++ formatted
    Text.trimEndMatches body '\n'

def rereadPattern (L : PatternLibrary) (grepRaw : Option String) : Option (GrepPattern L) :=
  (grepRaw.filter (· ≠ "")).bind fun raw => (GrepPattern.parse L raw).toOption

def formatSessionReadBodyFromRendered (L : PatternLibrary) (rendered : RenderedContent) (archiveRef : String)
    (grepRaw : Option String) (offset : ℕ) (pageLimit : PageLimit) : String :=
  formatGrepPageAsSessionReadBody (grepPaginate rendered (rereadPattern L grepRaw) offset pageLimit) archiveRef grepRaw

/-! ### The lines that are shown -/

/-- The numbered lines after the command of a read. -/
def shownLines (archiveRef : String) (grepRaw : Option String) (body : String) : List LineWithPosition :=
  (Listing.read (body.toList.drop ((sessionReadCommandLine archiveRef grepRaw).length + 1))).map fun line =>
    ⟨line.1, line.2⟩

/-- One line that starts with a `#`. -/
def IsCommentLine (s : String) : Prop := Listing.isComment s.toList = true ∧ '\n' ∉ s.toList

theorem IsCommentLine.append (h : IsCommentLine l) (hr : '\n' ∉ r.toList) : IsCommentLine (l ++ r) := by
  rw [IsCommentLine, String.toList_append, mem_append]
  exact ⟨Listing.isComment_append h.1 _, not_or.mpr ⟨h.2, hr⟩⟩

theorem newline_notMem_toString (n : ℕ) : '\n' ∉ (toString n).toList := Listing.notMem_repr (by decide)

variable {ar : String}

theorem sessionRangeComment_cases (p : GrepPage) (hr : '\n' ∉ ar.toList) :
    sessionRangeComment p ar = "" ∨ IsCommentLine (sessionRangeComment p ar) := by
  unfold sessionRangeComment
  split
  · split
    · have hl : IsCommentLine "  # More lines are not shown below — emit SearchRead (non-empty grep) to narrow " :=
        ⟨by decide, by decide⟩
      have hn := newline_notMem_toString
      exact .inr (hl.append hr |>.append (by decide) |>.append hr |>.append (by decide) |>.append (hn _)
        |>.append (by decide) |>.append (hn _) |>.append (by decide) |>.append (hn _) |>.append (by decide)
        |>.append (hn _) |>.append (by decide) |>.append (hn _) |>.append (by decide) |>.append (hn _)
        |>.append (by decide))
    · split
      · exact .inl rfl
      · have hl : IsCommentLine "  # lines " := ⟨by decide, by decide⟩
        have hn := newline_notMem_toString
        exact .inr (hl.append (hn _) |>.append (by decide) |>.append (hn _) |>.append (by decide)
          |>.append (hn _))
  · exact .inl rfl

theorem formatCatN_toList (hne : l ≠ []) : ∃ w, (formatCatN l).toList =
      Listing.unlines (l.map fun li => Listing.row w (li.originalLineNumber, li.text)) := by
  refine ⟨lineNumberWidth ((l.map LineWithPosition.originalLineNumber).foldl max 0), ?_⟩
  simp [formatCatN, hne]

theorem formatGrepPage_toList (hre : '\n' ∉ ar.toList) (g : Option String)
    (hl : ∀ l ∈ p.lines, '\n' ∉ l.text.toList) :
    ∃ (w : ℕ) (co : List (List Char)),
      (∀ c ∈ co, Listing.isComment c = true ∧ '\n' ∉ c) ∧ (co ≠ [] ∨ p.lines ≠ []) ∧
      (formatGrepPageAsSessionReadBody p ar g).toList =
        (sessionReadCommandLine ar g).toList ++ '\n' :: ['\n'].intercalate
          (co ++ p.lines.map fun l => Listing.row w (l.originalLineNumber, l.text)) := by
  by_cases he : p.lines = []
  · refine ⟨0, ["# no matches".toList], ?_, .inl (List.cons_ne_nil _ _), ?_⟩
    · decide
    · simp [formatGrepPageAsSessionReadBody, he]
  · obtain ⟨w, hf⟩ := formatCatN_toList he
    have hr : ∀ piece ∈ p.lines.map (fun l => Listing.row w (l.originalLineNumber, l.text)),
        piece ≠ [] ∧ '\n' ∉ piece := by
      intro piece hp
      obtain ⟨l, hli, rfl⟩ := List.mem_map.mp hp
      exact ⟨by simp [Listing.row], Listing.newline_notMem_row w (hl l hli)⟩
    have ht := fun lead => Listing.trimEnd_unlines lead (mt List.map_eq_nil_iff.mp he) hr
    have hb : ∀ lead : String,
        (Text.trimEndMatches (lead ++ "\n" ++ formatCatN p.lines) '\n').toList = lead.toList ++ '\n' ::
          ['\n'].intercalate (p.lines.map fun l => Listing.row w (l.originalLineNumber, l.text)) := by
      intro lead
      rw [Text.trimEndMatches, String.toList_ofList, String.toList_append, hf, ht, String.toList_append,
        List.append_assoc]
      rfl
    rcases sessionRangeComment_cases p hre with hn | hc
    · refine ⟨w, [], by simp, .inr he, ?_⟩
      simp only [formatGrepPageAsSessionReadBody, List.isEmpty_iff, he, hn]
      exact hb _
    · refine ⟨w, [(sessionRangeComment p ar).toList], by simpa using ⟨hc.1, hc.2⟩, .inr he, ?_⟩
      have hs : sessionRangeComment p ar ≠ "" := by
        intro h
        rw [h] at hc
        exact absurd hc.1 (by decide)
      obtain ⟨first, rest, hco⟩ := List.exists_cons_of_ne_nil (mt List.map_eq_nil_iff.mp he)
      simp only [formatGrepPageAsSessionReadBody, List.isEmpty_iff, he, hs, if_false]
      rw [hb, hco]
      simp

theorem shownLines_format (hre : '\n' ∉ ar.toList) (g : Option String)
    (hli : ∀ li ∈ p.lines, '\n' ∉ li.text.toList) :
    shownLines ar g (formatGrepPageAsSessionReadBody p ar g) = p.lines := by
  obtain ⟨w, c, hc, hne, hb⟩ := formatGrepPage_toList hre g hli
  have hr : (p.lines.map fun li => Listing.row w (li.originalLineNumber, li.text)) =
      (p.lines.map fun li => (li.originalLineNumber, li.text)).map (Listing.row w) := by
    rw [map_map]
    rfl
  rw [shownLines, hb, ← String.length_toList, ← drop_drop, drop_left, drop_one, tail_cons, hr,
    Listing.read_intercalate w hc, map_map]
  · exact map_id _
  · intro li hln
    obtain ⟨l, hl, rfl⟩ := mem_map.mp hln
    exact hli l hl
  · exact hne.imp_right fun h => by simpa using h

end AgentiumOs.Archive
