import AgentiumOs.Archive.Rendered

/-! Pages of the lines of an archived result that match a pattern. An offset counts lines that
match, a line keeps its number in the whole result. -/

namespace AgentiumOs.Archive

open Lib List

/-- The regular expressions and the lower case of texts, as the libraries give them. -/
structure PatternLibrary where
  Regex : Type
  new : String → Except String Regex
  isMatch : Regex → String → Bool
  toLowercase : String → String

def fixedTexts : PatternLibrary where
  Regex := Empty
  new := fun _ => .error "no regular expressions"
  isMatch := fun re _ => nomatch re
  toLowercase := Text.toAsciiLowercase

inductive GrepMode where
  | fixed
  | regex
  deriving DecidableEq

structure GrepPattern (L : PatternLibrary) where
  pattern : String
  patternLower : Option String
  mode : GrepMode
  caseInsensitive : Bool
  compiledRegex : Option L.Regex

/-- The flags in front of a trimmed input, and the pattern after them. -/
def splitFlags (input : String) : Except String (List Char × String) :=
  match input.toList with
  | '-' :: c :: rest =>
      let flagPart := (c :: rest).takeWhile (· ≠ ' ')
      if flagPart.all fun c => c = 'F' || c = 'E' || c = 'i' then
        let pattern := Text.trim (String.ofList ((c :: rest).dropWhile (· ≠ ' ')))
        if pattern = "" then .error "grep pattern is empty after flags" else .ok (flagPart, pattern)
      else .ok ([], input)
  | _ => .ok ([], input)

namespace GrepPattern

variable {L : PatternLibrary}

def parse (L : PatternLibrary) (input : String) : Except String (GrepPattern L) := do
  let input := Text.trim input
  if input = "" then throw "grep pattern is empty"
  let (flags, pattern) ← splitFlags input
  let mode : GrepMode := if 'E' ∈ flags then .regex else .fixed
  let caseInsensitive := decide ('i' ∈ flags)
  let compiledRegex ←
    if mode = .regex then
      ((L.new (if caseInsensitive then "(?i)" ++ pattern else pattern)).mapError ("invalid regex: " ++ ·)).map some
    else pure none
  let patternLower := if mode = .fixed && caseInsensitive then some (L.toLowercase pattern) else none
  return { pattern, patternLower, mode, caseInsensitive, compiledRegex }

def matchesLine (g : GrepPattern L) (haystack : String) : Bool :=
  match g.mode, g.compiledRegex with
  | .regex, some re => L.isMatch re haystack
  | _, _ =>
      if g.caseInsensitive then Text.contains (L.toLowercase haystack) (g.patternLower.getD "")
      else Text.contains haystack g.pattern

def patternText (g : GrepPattern L) : String := g.pattern

end GrepPattern

/-- At most `max` lines to a page. -/
structure PageLimit where
  lines : ℕ
  le_max : lines ≤ 500

namespace PageLimit

def new (n : ℕ) : PageLimit := ⟨min n 500, Nat.min_le_right n 500⟩

def default : PageLimit := ⟨200, by decide⟩

def get (limit : PageLimit) : ℕ := limit.lines

@[simp] theorem new_get (limit : PageLimit) : new limit.get = limit := by
  cases limit
  simp [new, get, *]

end PageLimit

structure LineWithPosition where
  originalLineNumber : ℕ
  text : String
  deriving DecidableEq

structure GrepPage where
  lines : List LineWithPosition
  totalMatched : ℕ
  hasMore : Bool
  nextOffset : ℕ

section

variable {L : PatternLibrary} (content : RenderedContent) (grep : Option (GrepPattern L))

/-- The lines that match, with their numbers in the whole content. -/
def matched : List LineWithPosition :=
  (content.lines.zipIdx.filter fun line => grep.all fun g => g.matchesLine line.1).map fun line =>
    ⟨line.2 + 1, line.1⟩

def grepPaginate (offset : ℕ) (limit : PageLimit) : GrepPage :=
  let total := (matched content grep).length
  let start := min offset total
  let stop := min (start + limit.get) total
  { lines := ((matched content grep).take stop).drop start
    totalMatched := total
    hasMore := stop < total
    nextOffset := stop }

/-- Page after page, as long as there is more; `fuel` bounds the number of reads. -/
def readPages (limit : PageLimit) : ℕ → ℕ → Option (List GrepPage)
  | 0, _ => none
  | fuel + 1, offset =>
      let page := grepPaginate content grep offset limit
      if page.hasMore then (readPages limit fuel page.nextOffset).map (page :: ·) else some [page]

/-- Every line that matches, once and in order, under its number in the content. -/
def Delivers (lines : List LineWithPosition) : Prop :=
  lines.Pairwise (fun a b => a.originalLineNumber < b.originalLineNumber) ∧
    ∀ line, line ∈ lines ↔ ∃ i, line.originalLineNumber = i + 1 ∧ content.lines[i]? = some line.text ∧
      grep.all (fun g => g.matchesLine line.text) = true

theorem delivers_matched : Delivers content grep (matched content grep) := by
  constructor
  · have hi : content.lines.zipIdx.Pairwise fun a b => a.2 < b.2 := by
      rw [← pairwise_map (f := Prod.snd), zipIdx_map_snd]
      exact pairwise_lt_range' _ Nat.one_pos
    rw [matched, pairwise_map]
    exact (hi.filter _).imp fun h => Nat.succ_lt_succ h
  · intro l
    simp only [matched, mem_map, mem_filter, mem_zipIdx_iff_getElem?, Prod.exists]
    constructor
    · rintro ⟨text, i, ⟨ht, hm⟩, rfl⟩
      exact ⟨i, rfl, ht, hm⟩
    · rintro ⟨i, hn, ht, hm⟩
      refine ⟨l.text, i, ⟨ht, hm⟩, ?_⟩
      rw [← hn]

variable {limit : PageLimit}

/-- With room on a page the reads come to an end, having shown all lines from the offset on. -/
theorem readPages_of_pos (hli : 0 < limit.get) (f offset : ℕ)
    (hf : (matched content grep).length - offset < f) :
    ∃ p, readPages content grep limit f offset = some p ∧
      p.flatMap GrepPage.lines = (matched content grep).drop offset := by
  induction f generalizing offset with
  | zero => exact absurd hf (Nat.not_lt_zero _)
  | succ f ih =>
    simp only [readPages, grepPaginate, decide_eq_true_eq]
    split
    · have hs : min offset (matched content grep).length = offset := by omega
      have hst : min (offset + limit.get) (matched content grep).length = offset + limit.get := by omega
      rw [hs, hst]
      obtain ⟨p, hp, hl⟩ := ih (offset + limit.get) (by omega)
      refine ⟨_, by rw [hp]; rfl, ?_⟩
      rw [flatMap_cons, hl, drop_take, Nat.add_sub_cancel_left, ← drop_drop]
      exact take_append_drop _ _
    · refine ⟨_, rfl, ?_⟩
      rw [flatMap_singleton, take_of_length_le (by omega)]
      rcases Nat.le_total offset (matched content grep).length with hle | hge
      · rw [Nat.min_eq_left hle]
      · rw [Nat.min_eq_right hge, drop_length, drop_of_length_le hge]

/-- A read without room on its page is told to read the same page again. -/
theorem readPages_of_zero (hl : limit.get = 0) (hm : matched content grep ≠ [])
    (f : ℕ) : readPages content grep limit f 0 = none := by
  induction f with
  | zero => rfl
  | succ f ih =>
    have hmo : 0 < (matched content grep).length := length_pos_iff.mpr hm
    simp [readPages, grepPaginate, hl, hmo, ih]

theorem readPages_of_nil (limit : PageLimit) (hm : matched content grep = []) :
    ∃ p, readPages content grep limit 1 0 = some p ∧ p.flatMap GrepPage.lines = matched content grep := by
  simp [readPages, grepPaginate, hm]

/-- Reading page after page comes to an end and shows every matching line once, in order and under
its number, exactly when a page has room for a line or no line matches. -/
theorem paging_delivers_iff (limit : PageLimit) : (∃ fuel pages, readPages content grep limit fuel 0 = some pages ∧
        Delivers content grep (pages.flatMap GrepPage.lines)) ↔
      0 < limit.get ∨ matched content grep = [] := by
  have hd := delivers_matched content grep
  constructor
  · rintro ⟨fuel, pages, hp, -⟩
    by_contra hn
    obtain ⟨hli, hm⟩ := not_or.mp hn
    rw [readPages_of_zero content grep (Nat.eq_zero_of_not_pos hli) hm fuel] at hp
    cases hp
  · rintro (hli | hm)
    · obtain ⟨pages, hp, hl⟩ :=
        readPages_of_pos content grep hli ((matched content grep).length + 1) 0 (Nat.lt_succ_self _)
      exact ⟨_, pages, hp, hl ▸ hd⟩
    · obtain ⟨pages, hp, hl⟩ := readPages_of_nil content grep limit hm
      exact ⟨1, pages, hp, hl ▸ hd⟩

end

/-- A limit of 0 is accepted, and then every read of a line is told that there is more at offset 0. -/
theorem paging_with_limit_zero : (PageLimit.new 0).get = 0 ∧
      (grepPaginate (.fromLines ["a"]) (none : Option (GrepPattern fixedTexts)) 0 (.new 0)).hasMore = true ∧
      (grepPaginate (.fromLines ["a"]) (none : Option (GrepPattern fixedTexts)) 0 (.new 0)).nextOffset = 0 ∧
      ∀ fuel, readPages (.fromLines ["a"]) (none : Option (GrepPattern fixedTexts)) (.new 0) fuel 0 = none := by
  have hm : matched (.fromLines ["a"]) (none : Option (GrepPattern fixedTexts)) = [⟨1, "a"⟩] := rfl
  exact ⟨rfl, rfl, rfl, readPages_of_zero _ _ rfl (hm ▸ cons_ne_nil _ _)⟩

end AgentiumOs.Archive
