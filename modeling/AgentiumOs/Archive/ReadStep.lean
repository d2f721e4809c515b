import AgentiumOs.Archive.ReadBody
import AgentiumOs.Tools.SessionPlan

/-! A read of an archived result. The page that is counted is cut with the pattern of the read;
the text that is shown is cut with the pattern that its text, without the flags, is read as. -/

namespace AgentiumOs.Archive

open List AgentiumOs.Core Lib Tools
open Lib.Json (Value)

inductive SessionStepOp where
  | open
  | sendDone (archiveRef header informedBy : String)
  | searchRead (archiveRef grep : String) (offset limit : ℕ)
  | pageRead (archiveRef : String) (offset limit : ℕ)

/-- The store of archived results, where there is one. -/
abbrev ArchiveStore := Option (ShortRef → Except BamlRtError (Option ArchiveEntry))

/-- An entry that only the store has is put in the table. -/
def resolveArchiveEntry (refTable : RefTable) (store : ArchiveStore) (archiveRef : ShortRef) :
    Except BamlRtError (ArchiveEntry × RefTable) := do
  let notFound := BamlRtError.invalidArgument ("archive ref " ++ archiveRef.display ++ " not found in session context")
  match refTable.get archiveRef, store with
  | some entry, _ => return (entry, refTable)
  | none, some archiveGetBody =>
      match ← archiveGetBody archiveRef with
      | some entry => return (entry, refTable.insertAt archiveRef entry)
      | none => throw notFound
  | none, none => throw notFound

/-- What a read answers, the step it records, and the table after it. -/
structure ReadOutcome where
  output : Value
  recorded : Option SessionStepOp
  refTable : RefTable

section

variable {L : PatternLibrary}

def recordedRead (archiveRef : ShortRef) (grep : Option (GrepPattern L)) (offset : ℕ) (limit : PageLimit) :
    SessionStepOp :=
  match grep.map GrepPattern.patternText with
  | some grepStr => .searchRead archiveRef.display grepStr offset limit.get
  | none => .pageRead archiveRef.display offset limit.get

def readBody (content : RenderedContent) (archiveRef : ShortRef) (grep : Option (GrepPattern L)) (offset : ℕ)
    (limit : PageLimit) : String :=
  formatSessionReadBodyFromRendered L content archiveRef.display (grep.map GrepPattern.patternText) offset limit

def executeArchiveReadStep (refTable : RefTable) (store : ArchiveStore) (opName : String) (archiveRef : ShortRef)
    (offset : ℕ) (limit : PageLimit) (grep : Option (GrepPattern L)) : Except BamlRtError ReadOutcome :=
  match resolveArchiveEntry refTable store archiveRef with
  | .error (.invalidArgument _) => .ok ⟨archiveRefNotFoundToolResult opName archiveRef, none, refTable⟩
  | .error other => .error other
  | .ok (entry, refTable) =>
      let page := grepPaginate entry.content grep offset limit
      let body := readBody entry.content archiveRef grep offset limit
      let header := entry.displayHeader archiveRef
      .ok {
        output := readJson ⟨header ++ "\n" ++ body, page.hasMore, page.nextOffset⟩
        recorded := some (recordedRead archiveRef grep offset limit)
        refTable }

theorem executeArchiveReadStep_of_resolved
    (hr : resolveArchiveEntry refTable s ar = .ok (e, refTable')) (opN : String) (o : ℕ)
    (l : PageLimit) (g : Option (GrepPattern L)) :
    executeArchiveReadStep refTable s opN ar o l g = .ok {
      output := readJson ⟨e.displayHeader ar ++ "\n" ++ readBody e.content ar g o l,
        (grepPaginate e.content g o l).hasMore,
        (grepPaginate e.content g o l).nextOffset⟩
      recorded := some (recordedRead ar g o l)
      refTable := refTable' } := by
  rw [executeArchiveReadStep, hr]

/-! ### The lines of the body -/

theorem newline_notMem_display (ar : ShortRef) : '\n' ∉ ar.display.toList := by
  unfold ShortRef.display
  split <;> simp only [String.toList_append, mem_append, not_or]
  · exact ⟨by decide, newline_notMem_toString _⟩
  · exact ⟨⟨⟨by decide, newline_notMem_toString _⟩, by decide⟩, newline_notMem_toString _⟩

theorem shownLines_formatRendered (L : PatternLibrary) (co : RenderedContent) (ar : ShortRef)
    (g : Option String) (o : ℕ) (l : PageLimit) :
    shownLines ar.display g (formatSessionReadBodyFromRendered L co ar.display g o l) =
      (grepPaginate co (rereadPattern L g) o l).lines := by
  refine shownLines_format (newline_notMem_display ar) _ fun line hl => ?_
  obtain ⟨i, -, ht, -⟩ := ((delivers_matched co _).2 line).mp (mem_of_mem_take (mem_of_mem_drop hl))
  exact co.newline_notMem _ (mem_of_getElem? ht)

variable (c : RenderedContent)

/-- The body of a read shows the page of the pattern that is read again. -/
theorem shownLines_readBody (ar : ShortRef) (g : Option (GrepPattern L)) (o : ℕ) (l : PageLimit) :
    shownLines ar.display (g.map GrepPattern.patternText) (readBody c ar g o l) =
      (grepPaginate c (rereadPattern L (g.map GrepPattern.patternText)) o l).lines :=
  shownLines_formatRendered L c ar _ o l

/-! ### Pages of two patterns -/

theorem grepPaginate_one (g : Option (GrepPattern L)) (o : ℕ) :
    (grepPaginate c g o (.new 1)).lines = ((matched c g)[o]?).toList := by
  have ho : (PageLimit.new 1).get = 1 := rfl
  simp only [grepPaginate, ho]
  rcases Nat.lt_or_ge o (matched c g).length with hlt | hge
  · have hs : o + 1 ≤ (matched c g).length := hlt
    rw [Nat.min_eq_left hlt.le, Nat.min_eq_left hs, drop_take, Nat.add_sub_cancel_left, take_one, head?_drop]
  · rw [Nat.min_eq_right hge, Nat.min_eq_right (Nat.le_succ _), take_length, drop_length, getElem?_eq_none hge]
    rfl

theorem matched_eq_iff (g₁ g₂ : Option (GrepPattern L)) : matched c g₁ = matched c g₂ ↔
      ∀ l ∈ c.lines, g₁.all (·.matchesLine l) = g₂.all (·.matchesLine l) := by
  have hin : Function.Injective fun l : String × ℕ => (⟨l.2 + 1, l.1⟩ : LineWithPosition) := by
    rintro ⟨a, i⟩ ⟨b, j⟩ h
    simp_all
  rw [matched, matched, (map_injective_iff.mpr hin).eq_iff]
  constructor
  · intro hf l hl
    obtain ⟨i, hi⟩ := mem_iff_getElem?.mp hl
    have hm : (l, i) ∈ c.lines.zipIdx := mem_zipIdx_iff_getElem?.mpr hi
    have hif := congrArg ((l, i) ∈ ·) hf
    simp only [mem_filter, hm, true_and, eq_iff_iff] at hif
    exact Bool.eq_iff_iff.mpr hif
  · intro ha
    refine filter_congr fun l hl => ha l.1 ?_
    exact mem_of_getElem? (mem_zipIdx_iff_getElem?.mp hl)

theorem matched_eq_of_pages (h : ∀ o l, (grepPaginate c₁ g₁ o l).lines = (grepPaginate c₂ g₂ o l).lines) :
    matched c₁ g₁ = matched c₂ g₂ := by
  refine ext_getElem? fun i => ?_
  have hp := h i (.new 1)
  rw [grepPaginate_one, grepPaginate_one] at hp
  simpa using congrArg List.head? hp

theorem grepPaginate_lines_eq_iff (g₁ g₂ : Option (GrepPattern L)) :
    (∀ o l, (grepPaginate c g₁ o l).lines = (grepPaginate c g₂ o l).lines) ↔
      ∀ li ∈ c.lines, g₁.all (·.matchesLine li) = g₂.all (·.matchesLine li) := by
  rw [← matched_eq_iff]
  constructor
  · exact matched_eq_of_pages
  · intro hm o l
    simp only [grepPaginate, hm]

/-! ### The body and the page -/

/-- The lines that a read shows are those of the page that it counts, whatever the offset and the
limit, exactly when the pattern that is read again matches the same lines of the result. -/
theorem archive_read_shows_page_iff {refTable refTable' : RefTable} {store : ArchiveStore} {archiveRef : ShortRef}
    {entry : ArchiveEntry} (hresolved : resolveArchiveEntry refTable store archiveRef = .ok (entry, refTable'))
    (opName : String) (grep : Option (GrepPattern L)) :
    (∀ offset limit, ∃ body, (executeArchiveReadStep refTable store opName archiveRef offset limit grep).map
        ReadOutcome.output = .ok (readJson ⟨entry.displayHeader archiveRef ++ "\n" ++ body,
          (grepPaginate entry.content grep offset limit).hasMore,
          (grepPaginate entry.content grep offset limit).nextOffset⟩) ∧
        shownLines archiveRef.display (grep.map GrepPattern.patternText) body =
          (grepPaginate entry.content grep offset limit).lines) ↔
      ∀ line ∈ entry.content.lines,
        (rereadPattern L (grep.map GrepPattern.patternText)).all (·.matchesLine line) =
          grep.all (·.matchesLine line) := by
  rw [← grepPaginate_lines_eq_iff]
  refine forall_congr' fun offset => forall_congr' fun limit => ?_
  rw [← shownLines_readBody entry.content archiveRef, executeArchiveReadStep_of_resolved hresolved]
  constructor
  · rintro ⟨body, hb, hs⟩
    have hsa : readBody entry.content archiveRef grep offset limit = body := by
      simpa [Except.map, readJson] using hb
    rw [hsa, hs]
  · intro hs
    exact ⟨_, rfl, hs⟩

end

theorem archive_read_shows_page_of_deploy :
    ∃ body, (executeArchiveReadStep
        (RefTable.new.insertAt ⟨1, 1⟩ (.new (.fromLines ["Deploy", "deploy"]) "ci" none "" ""))
        none "SearchRead" ⟨1, 1⟩ 0 .default (some (⟨"deploy", none, .fixed, false, none⟩ : GrepPattern fixedTexts))).map
        ReadOutcome.output =
          .ok (readJson ⟨(ArchiveEntry.new (.fromLines ["Deploy", "deploy"]) "ci" none "" "").displayHeader
          ⟨1, 1⟩ ++ "\n" ++ body, false, 1⟩) ∧
      shownLines "@1" (some "deploy") body = [⟨2, "deploy"⟩] := by
  have hr : resolveArchiveEntry (RefTable.new.insertAt ⟨1, 1⟩ (.new (.fromLines ["Deploy", "deploy"]) "ci" none "" ""))
      none ⟨1, 1⟩ = .ok (.new (.fromLines ["Deploy", "deploy"]) "ci" none "" "", _) := rfl
  have hm : matched (.fromLines ["Deploy", "deploy"])
      (some (⟨"deploy", none, .fixed, false, none⟩ : GrepPattern fixedTexts)) = [⟨2, "deploy"⟩] := by
    decide +kernel
  have hp : grepPaginate (.fromLines ["Deploy", "deploy"])
      (some (⟨"deploy", none, .fixed, false, none⟩ : GrepPattern fixedTexts)) 0 .default =
      ⟨[⟨2, "deploy"⟩], 1, false, 1⟩ := by
    rw [grepPaginate, hm]
    rfl
  have hre := archive_read_shows_page_iff hr "SearchRead"
    (some (⟨"deploy", none, .fixed, false, none⟩ : GrepPattern fixedTexts))
  have hs := hre.mpr (fun _ _ => rfl) 0 .default
  simp only [ArchiveEntry.new, hp] at hs
  exact hs

/-- The pattern `-i`, a fixed text, is read again as a flag without a pattern: the body shows every
line, though none matches. -/
theorem flags_of_read_are_lost : ∃ g : GrepPattern fixedTexts, GrepPattern.parse fixedTexts "-F -i" = .ok g ∧
      (grepPaginate (.fromLines ["a"]) (some g) 0 .default).lines = [] ∧
      ∃ body, (executeArchiveReadStep (RefTable.new.insertAt ⟨1, 1⟩ (.new (.fromLines ["a"]) "ci" none "" "")) none
          "SearchRead" ⟨1, 1⟩ 0 .default (some g)).map ReadOutcome.output = .ok (readJson
          ⟨(ArchiveEntry.new (.fromLines ["a"]) "ci" none "" "").displayHeader ⟨1, 1⟩ ++ "\n" ++ body, false, 0⟩) ∧
        shownLines "@1" (some "-i") body = [⟨1, "a"⟩] := by
  refine ⟨⟨"-i", none, .fixed, false, none⟩, rfl, ?_, readBody (.fromLines ["a"]) ⟨1, 1⟩
    (some (⟨"-i", none, .fixed, false, none⟩ : GrepPattern fixedTexts)) 0 .default, ?_, ?_⟩
  · decide +kernel
  · decide +kernel
  · exact shownLines_readBody (.fromLines ["a"]) ⟨1, 1⟩ (some ⟨"-i", none, .fixed, false, none⟩) 0 .default

/-! ### A body that presents itself as that of a grep -/

def MatchesPattern (L : PatternLibrary) (pattern text : String) : Prop :=
  ∃ g, GrepPattern.parse L pattern = .ok g ∧ g.matchesLine text = true

theorem pattern_of_command (h : sessionReadCommandLine ar g = "grep -n '" ++ pattern ++ "' " ++ ar) :
    g.filter (· ≠ "") = some pattern := by
  have ht := congrArg String.toList h
  unfold sessionReadCommandLine at ht
  split at ht
  · rename_i raw hr
    simp only [String.toList_append, append_cancel_left_eq, append_cancel_right_eq, String.toList_inj] at ht
    rw [hr, ht]
  · simp at ht

/-- All lines under the command of a grep match its pattern, whatever the result, the offset and the
limit, exactly when the pattern can be read: otherwise every line is shown. -/
theorem grep_body_lines_match_iff (L : PatternLibrary) (archiveRef : ShortRef) {grepRaw : Option String}
    {pattern : String}
    (hcommand : sessionReadCommandLine archiveRef.display grepRaw =
      "grep -n '" ++ pattern ++ "' " ++ archiveRef.display) :
    (∀ content offset limit, ∀ line ∈ shownLines archiveRef.display grepRaw
        (formatSessionReadBodyFromRendered L content archiveRef.display grepRaw offset limit),
        MatchesPattern L pattern line.text) ↔
      ∃ g, GrepPattern.parse L pattern = .ok g := by
  have hr : rereadPattern L grepRaw = (GrepPattern.parse L pattern).toOption := by
    rw [rereadPattern, pattern_of_command hcommand]
    rfl
  simp only [shownLines_formatRendered, hr]
  constructor
  · intro h
    by_contra hno
    have hn : (GrepPattern.parse L pattern).toOption = none := by
      cases hg : GrepPattern.parse L pattern with
      | error e => rfl
      | ok g => exact absurd ⟨g, hg⟩ hno
    have hs := h (.fromLines ["a"]) 0 .default ⟨1, "a"⟩ (by rw [hn]; exact mem_singleton_self _)
    exact hno (hs.imp fun _ hg => hg.1)
  · rintro ⟨g, hg⟩ content offset limit line hl
    rw [hg] at hl
    obtain ⟨i, -, -, hm⟩ := ((delivers_matched content _).2 line).mp (mem_of_mem_take (mem_of_mem_drop hl))
    exact ⟨g, hg, hm⟩

theorem deploy_body_lines_match : sessionReadCommandLine "@1" (some "deploy") = "grep -n 'deploy' @1" ∧
      ∀ content offset limit, ∀ line ∈ shownLines "@1" (some "deploy")
        (formatSessionReadBodyFromRendered fixedTexts content "@1" (some "deploy") offset limit),
        MatchesPattern fixedTexts "deploy" line.text :=
  ⟨rfl, (grep_body_lines_match_iff fixedTexts ⟨1, 1⟩ rfl).mpr ⟨⟨"deploy", none, .fixed, false, none⟩, rfl⟩⟩

/-- A pattern that is no regular expression: under its command every line is shown. -/
theorem lines_of_invalid_pattern_shown : sessionReadCommandLine "@1" (some "-E (") = "grep -n '-E (' @1" ∧
      shownLines "@1" (some "-E (")
        (formatSessionReadBodyFromRendered fixedTexts (.fromLines ["a"]) "@1" (some "-E (") 0 .default) = [⟨1, "a"⟩] ∧
      ¬ MatchesPattern fixedTexts "-E (" "a" := by
  refine ⟨rfl, shownLines_formatRendered fixedTexts (.fromLines ["a"]) ⟨1, 1⟩ (some "-E (") 0 .default, ?_⟩
  rintro ⟨g, hg, -⟩
  cases hg

end AgentiumOs.Archive
