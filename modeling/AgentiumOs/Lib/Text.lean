import Mathlib

/-! String operations of the standard library of the modelled program, on the
characters of a string: trimming, searching, slicing by bytes, and the reading
of unsigned numbers. -/

namespace AgentiumOs.Lib.Text

open List

/-- The Unicode `White_Space` property. -/
def isWhitespace (c : Char) : Bool :=
  (0x0009 ≤ c.val && c.val ≤ 0x000D) || c.val == 0x0020 || c.val == 0x0085 || c.val == 0x00A0 ||
  c.val == 0x1680 || (0x2000 ≤ c.val && c.val ≤ 0x200A) || c.val == 0x2028 || c.val == 0x2029 ||
  c.val == 0x202F || c.val == 0x205F || c.val == 0x3000

/-- `str::trim`. -/
def trim (s : String) : String :=
  String.ofList (((s.toList.dropWhile isWhitespace).reverse.dropWhile isWhitespace).reverse)

example : trim " refined\n" = "refined" := by decide

theorem trim_trim (s : String) : trim (trim s) = trim s := by
  have hs : ∀ cs : List Char, (rdropWhile isWhitespace (cs.dropWhile isWhitespace)).dropWhile isWhitespace =
      rdropWhile isWhitespace (cs.dropWhile isWhitespace) := by
    intro cs
    have hl := rdropWhile_prefix isWhitespace (cs.dropWhile isWhitespace)
    have hf := head?_dropWhile_not isWhitespace cs
    cases hr : rdropWhile isWhitespace (cs.dropWhile isWhitespace) with
    | nil => rfl
    | cons c rest =>
      rw [hr] at hl
      obtain ⟨tail, ht⟩ := hl
      rw [← ht] at hf
      exact dropWhile_cons_of_neg (by simpa using hf)
  have he := rdropWhile_idempotent isWhitespace (s.toList.dropWhile isWhitespace)
  change String.ofList (rdropWhile isWhitespace ((String.toList (String.ofList (rdropWhile isWhitespace
    (s.toList.dropWhile isWhitespace)))).dropWhile isWhitespace)) = _
  rw [String.toList_ofList, hs, he]
  rfl

variable {s t line : String} {c : Char}

theorem trim_of_forall (h : ∀ c ∈ s.toList, isWhitespace c = false) : trim s = s := by
  have hs : s.toList.dropWhile isWhitespace = s.toList :=
    dropWhile_eq_self_iff.mpr fun hne => by simp [h _ (getElem_mem hne)]
  have he : rdropWhile isWhitespace s.toList = s.toList :=
    rdropWhile_eq_self_iff.mpr fun hne => by simp [h _ (getLast_mem hne)]
  rw [trim, hs]
  exact (congrArg String.ofList he).trans String.ofList_toList

theorem trim_ne_empty (hc : c ∈ s.toList) (hsp : isWhitespace c = false) : trim s ≠ "" := by
  intro h
  have he : rdropWhile isWhitespace (s.toList.dropWhile isWhitespace) = [] := by
    simpa [trim] using h
  have ha := rdropWhile_eq_nil_iff.mp he
  cases hs : s.toList.dropWhile isWhitespace with
  | nil =>
    have hw := dropWhile_eq_nil_iff.mp hs c hc
    rw [hsp] at hw
    cases hw
  | cons d rest =>
    have hf := head?_dropWhile_not isWhitespace s.toList
    have hw := ha d (by rw [hs]; exact mem_cons_self)
    rw [hs] at hf
    simp [hw] at hf

theorem isWhitespace_of_isDigit (h : c.isDigit = true) : isWhitespace c = false := by
  simp only [Char.isDigit, Bool.and_eq_true, decide_eq_true_eq] at h
  simp only [isWhitespace, Bool.or_eq_false_iff, Bool.and_eq_false_iff, decide_eq_false_iff_not, beq_eq_false_iff_ne,
    UInt32.le_iff_toNat_le, ne_eq, ← UInt32.toNat_inj]
  obtain ⟨hl, hh⟩ := h
  have hl' : 48 ≤ c.val.toNat := hl
  have hh' : c.val.toNat ≤ 57 := hh
  simp only [UInt32.reduceToNat]
  omega

/-- `str::contains` for a string pattern. -/
def contains (s sub : String) : Bool := decide (sub.toList <:+: s.toList)

/-- `str::starts_with`. -/
def startsWith (s lead : String) : Bool := lead.toList.isPrefixOf s.toList

/-- `str::ends_with`. -/
def endsWith (s tail : String) : Bool := tail.toList.isSuffixOf s.toList

/-- `str::is_ascii`. -/
def isAscii (s : String) : Bool := s.toList.all fun c => c.val < 128

/-- `str::to_ascii_lowercase`. -/
def toAsciiLowercase (s : String) : String := String.ofList (s.toList.map Char.toLower)

/-- `str::strip_prefix`. -/
def withoutLead (s lead : String) : Option String :=
  if startsWith s lead then some (String.ofList (s.toList.drop lead.length)) else none

theorem withoutLead_append (lead s : String) : withoutLead (lead ++ s) lead = some s := by
  rw [withoutLead, startsWith, if_pos (List.isPrefixOf_iff_prefix.mpr (by simp)), String.toList_append,
    ← String.length_toList, drop_left, String.ofList_toList]

/-- `str::eq_ignore_ascii_case`; lowering a character changes ASCII letters only. -/
def eqIgnoreAsciiCase (s t : String) : Bool :=
  s.toList.map Char.toLower == t.toList.map Char.toLower

/-- The text from byte `n` on, when `n` is a character boundary. -/
def dropBytes : List Char → ℕ → Option (List Char)
  | cs, 0 => some cs
  | [], _ + 1 => none
  | c :: cs, n + 1 => if c.utf8Size ≤ n + 1 then dropBytes cs (n + 1 - c.utf8Size) else none

/-- The text before byte `n`, when `n` is a character boundary. -/
def takeBytes : List Char → ℕ → Option (List Char)
  | _, 0 => some []
  | [], _ + 1 => none
  | c :: cs, n + 1 =>
      if c.utf8Size ≤ n + 1 then (takeBytes cs (n + 1 - c.utf8Size)).map (c :: ·) else none

/-- `&s[i..j]`: a slice that is not on character boundaries panics. -/
def sliceBytes (s : String) (i j : ℕ) : Option String :=
  if i ≤ j then (dropBytes s.toList i).bind fun cs => (takeBytes cs (j - i)).map String.ofList else none

example : sliceBytes "naïve" 1 4 = some "aï" ∧ sliceBytes "naïve" 1 3 = none := by decide

/-- `str::parse` for an unsigned type with greatest value `max`. -/
def parseUnsigned (max : ℕ) (s : String) : Option ℕ :=
  let digits := match s.toList with
    | '+' :: rest => rest
    | cs => cs
  if digits.isEmpty || !digits.all Char.isDigit then none
  else
    let n := digits.foldl (fun n c => 10 * n + (c.toNat - '0'.toNat)) 0
    if n ≤ max then some n else none

example : parseUnsigned 255 "+07" = some 7 ∧ parseUnsigned 255 "256" = none := by decide

/-- `str::split_once` for a character. -/
def splitOnce (sep : Char) : List Char → Option (List Char × List Char)
  | [] => none
  | c :: cs => if c = sep then some ([], cs) else (splitOnce sep cs).map fun cut => (c :: cut.1, cut.2)

/-- `str::replace` for a character. -/
def replaceChar (c : Char) (replacement : String) (s : String) : String :=
  String.ofList (s.toList.flatMap fun d => if d = c then replacement.toList else [d])

/-- `str::split_whitespace`. -/
def splitWhitespace (cs : List Char) : List String :=
  ((cs.splitOnP isWhitespace).filter (· ≠ [])).map String.ofList

/-- `str::trim_end_matches` for a character. -/
def trimEndMatches (s : String) (c : Char) : String := String.ofList (s.toList.rdropWhile (· = c))

/-- `str::lines`: a line feed ends a line, with the carriage return before it; what comes after
the last line feed is a line if it is not empty. -/
def lines (s : String) : List String :=
  let pieces := s.toList.splitOn '\n'
  let unterminated := pieces.getLastD []
  (pieces.dropLast.map fun piece => if piece.getLast? = some '\r' then piece.dropLast else piece).map String.ofList ++
    if unterminated.isEmpty then [] else [String.ofList unterminated]

example : lines "a\r\n\nb\r" = ["a", "", "b\r"] := by decide

variable {α : Type*} {xs piece p q r : List α}

theorem eq_false_of_mem_splitOnP {p : α → Bool} (h : piece ∈ xs.splitOnP p) : ∀ x ∈ piece, p x = false := by
  induction xs generalizing piece with
  | nil =>
    rw [splitOnP_nil, mem_singleton] at h
    simp [h]
  | cons x xs ih =>
    rw [splitOnP_cons_eq_if_modifyHead] at h
    obtain ⟨first, rest, hp⟩ := exists_cons_of_ne_nil (splitOnP_ne_nil p xs)
    rw [hp] at h ih
    split at h
    · rcases mem_cons.mp h with rfl | h
      · simp
      · exact ih h
    · rename_i hx
      rcases mem_cons.mp h with rfl | h
      · have hf := ih mem_cons_self
        simpa [hx] using hf
      · exact ih (mem_cons_of_mem _ h)

variable {sep : α}

theorem sep_notMem_of_mem_splitOn [BEq α] [LawfulBEq α] (h : piece ∈ xs.splitOn sep) : sep ∉ piece := by
  intro hm
  simpa using eq_false_of_mem_splitOnP h sep hm

theorem notMem_append (hs : c ∉ s.toList) (ht : c ∉ t.toList) : c ∉ (s ++ t).toList := by
  rw [String.toList_append, mem_append]
  exact not_or.mpr ⟨hs, ht⟩

theorem newline_notMem_of_mem_lines (h : line ∈ lines s) : '\n' ∉ line.toList := by
  have hp : ∀ piece ∈ s.toList.splitOn '\n', '\n' ∉ piece := fun _ => sep_notMem_of_mem_splitOn
  rcases mem_append.mp h with h | h
  · obtain ⟨cut, hc, rfl⟩ := mem_map.mp h
    obtain ⟨piece, hpi, rfl⟩ := mem_map.mp hc
    have hf := hp piece ((dropLast_sublist _).subset hpi)
    rw [String.toList_ofList]
    split
    · exact fun hm => hf ((dropLast_sublist _).subset hm)
    · exact hf
  · split at h
    · cases h
    · rw [mem_singleton.mp h, String.toList_ofList, getLastD_eq_getLast?]
      cases hl : (s.toList.splitOn '\n').getLast? with
      | none => exact not_mem_nil
      | some piece => exact hp piece (mem_of_getLast? hl)

theorem lines_of_newline_notMem (hne : s ≠ "") (h : '\n' ∉ s.toList) : lines s = [s] := by
  have hl : s.toList ≠ [] := fun hn => hne (String.toList_inj.mp hn)
  simp [lines, splitOn_eq_singleton h, hl]

theorem splitOnce_eq_some_iff {sep : Char} {cs p q : List Char} :
    splitOnce sep cs = some (p, q) ↔ cs = p ++ sep :: q ∧ sep ∉ p := by
  induction cs generalizing p with
  | nil => simp [splitOnce]
  | cons c cs ih =>
    rw [splitOnce]
    split_ifs with h
    · subst h
      cases p with
      | nil => simp
      | cons d p => simp +contextual
    · cases p with
      | nil => simp [h]
      | cons d p =>
        simp only [Option.map_eq_some_iff, Prod.exists, Prod.mk.injEq, List.cons.injEq, cons_append, mem_cons]
        constructor
        · rintro ⟨p', q', hc, ⟨rfl, rfl⟩, rfl⟩
          exact ⟨⟨rfl, (ih.mp hc).1⟩, not_or.mpr ⟨fun heq => h heq.symm, (ih.mp hc).2⟩⟩
        · rintro ⟨⟨rfl, hcs⟩, hp⟩
          exact ⟨p, q, ih.mpr ⟨hcs, (not_or.mp hp).2⟩, ⟨rfl, rfl⟩, rfl⟩

theorem splitOnce_append {sep : Char} {p : List Char} (h : sep ∉ p) (q : List Char) :
    splitOnce sep (p ++ sep :: q) = some (p, q) := splitOnce_eq_some_iff.mpr ⟨rfl, h⟩

theorem splitOnce_of_notMem {sep : Char} {cs : List Char} (h : sep ∉ cs) : splitOnce sep cs = none := by
  rw [Option.eq_none_iff_forall_not_mem]
  rintro ⟨p, q⟩ hc
  exact h ((splitOnce_eq_some_iff.mp hc).1 ▸ by simp)

/-- A numeral of an unsigned type: digits, not none of them, and a value that the type has. -/
structure Numeral (max : ℕ) (digits : List Char) (n : ℕ) : Prop where
  nonempty : digits ≠ []
  digit : ∀ c ∈ digits, c.isDigit
  value : Nat.ofDigitChars 10 digits 0 = n
  le : n ≤ max

variable {digits : List Char}

theorem Numeral.notMem {max n : ℕ} (h : Numeral max digits n) (hc : c.isDigit = false) :
    c ∉ digits := fun hm => by simp [h.digit c hm] at hc

/-- What is parsed beside the numerals has a sign. -/
theorem numeral_iff {max n : ℕ} :
    Numeral max digits n ↔ parseUnsigned max (String.ofList digits) = some n ∧ '+' ∉ digits := by
  rw [parseUnsigned, String.toList_ofList]
  constructor
  · intro h
    have hs := h.notMem (c := '+') rfl
    have hd : digits.all Char.isDigit = true := all_eq_true.mpr h.digit
    have hv : digits.foldl (fun n c => 10 * n + (c.toNat - '0'.toNat)) 0 = n := h.value
    split
    · simp at hs
    · simp only [hd, hv, h.le]
      simp [h.nonempty, hs]
  · rintro ⟨h, hs⟩
    split at h
    · simp at hs
    · simp only [Bool.or_eq_true, List.isEmpty_iff, Bool.not_eq_eq_eq_not, Bool.not_true] at h
      split_ifs at h with hd hle
      rw [not_or, Bool.not_eq_false, all_eq_true] at hd
      cases h
      exact ⟨hd.1, hd.2, rfl, hle⟩

theorem mem_of_contains {sub : String} (h : contains s sub = true) (hc : c ∈ sub.toList) : c ∈ s.toList :=
  (of_decide_eq_true h).subset hc

/-- What stands before the first `sep` of a list that has one is determined by the list. -/
theorem lead_unique {s : List α} (hp : sep ∉ p) (hq : sep ∉ q) (h : p ++ sep :: r = q ++ sep :: s) :
    p = q ∧ r = s := by
  induction p generalizing q with
  | nil =>
    cases q with
    | nil => exact ⟨rfl, (List.cons.inj h).2⟩
    | cons y q => exact absurd ((List.cons.inj h).1 ▸ mem_cons_self) hq
  | cons x p ih =>
    cases q with
    | nil => exact absurd ((List.cons.inj h).1 ▸ mem_cons_self) hp
    | cons y q =>
      obtain ⟨rfl, hr⟩ := List.cons.inj h
      obtain ⟨rfl, rfl⟩ := ih (not_mem_of_not_mem_cons hp) (not_mem_of_not_mem_cons hq) hr
      exact ⟨rfl, rfl⟩

/-- What follows the last `sep` of a list that has one is determined by the list. -/
theorem suffix_unique {s : List α} (hr : sep ∉ r) (hs : sep ∉ s) (h : p ++ sep :: r = q ++ sep :: s) :
    p = q ∧ r = s := by
  have hre : r.reverse ++ sep :: p.reverse = s.reverse ++ sep :: q.reverse := by
    simpa using congrArg reverse h
  obtain ⟨hl, hf⟩ := lead_unique (mt mem_reverse.mp hr) (mt mem_reverse.mp hs) hre
  exact ⟨reverse_injective hf, reverse_injective hl⟩

theorem append_colon_inj {p q r : String} (hp : ':' ∉ p.toList) (hq : ':' ∉ q.toList)
    (h : p ++ ":" ++ r = q ++ ":" ++ s) : p = q ∧ r = s := by
  have hl := congrArg String.toList h
  simp only [String.toList_append, append_assoc] at hl
  obtain ⟨hle, hr⟩ := lead_unique hp hq hl
  exact ⟨String.toList_inj.mp hle, String.toList_inj.mp hr⟩

theorem append_colon_last_inj {p q r : String} (hr : ':' ∉ r.toList) (hs : ':' ∉ s.toList)
    (h : p ++ ":" ++ r = q ++ ":" ++ s) : p = q ∧ r = s := by
  have hl := congrArg String.toList h
  simp only [String.toList_append, append_assoc] at hl
  obtain ⟨hle, hre⟩ := suffix_unique hr hs hl
  exact ⟨String.toList_inj.mp hle, String.toList_inj.mp hre⟩

end AgentiumOs.Lib.Text
