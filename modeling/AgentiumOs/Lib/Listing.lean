import AgentiumOs.Lib.Decimal

/-! Numbered lines as text: a right-justified number, a tab, and the line. What was written can be
read back line by line, also with comment lines between the rows. -/

namespace AgentiumOs.Lib.Listing

open List

/-- A number in at least `width` columns. -/
def number (width n : ℕ) : List Char := List.replicate (width - n.repr.length) ' ' ++ n.repr.toList

def row (width : ℕ) (line : ℕ × String) : List Char := number width line.1 ++ '\t' :: line.2.toList

def readRow (cs : List Char) : ℕ × String :=
  ((String.ofList ((cs.takeWhile (· ≠ '\t')).dropWhile (· = ' '))).toNat?.getD 0,
    String.ofList ((cs.dropWhile (· ≠ '\t')).drop 1))

def unlines (rows : List (List Char)) : List Char := rows.flatMap (· ++ ['\n'])

/-- The first character of a line that is not a space is a `#`. -/
def isComment (cs : List Char) : Bool := (cs.dropWhile (· = ' ')).head? = some '#'

def isRow (line : List Char) : Bool := !line.isEmpty && !isComment line

def read (cs : List Char) : List (ℕ × String) := ((cs.splitOn '\n').filter isRow).map readRow

variable {c : Char} {n : ℕ}

theorem isDigit_of_mem_repr (h : c ∈ n.repr.toList) : c.isDigit = true := by
  rw [Decimal.repr_toList] at h
  exact Nat.isDigit_of_mem_toDigits (by decide) (by decide) h

theorem notMem_repr (hc : c.isDigit = false) : c ∉ n.repr.toList := by
  intro h
  rw [isDigit_of_mem_repr h] at hc
  cases hc

theorem repr_eq_cons (n : ℕ) : ∃ d ds, n.repr.toList = d :: ds ∧ d.isDigit = true := by
  have hne : n.repr.toList ≠ [] := Decimal.repr_toList n ▸ Nat.toDigits_ne_nil
  obtain ⟨d, ds, h⟩ := exists_cons_of_ne_nil hne
  exact ⟨d, ds, h, isDigit_of_mem_repr (h ▸ mem_cons_self)⟩

theorem numeral_repr {max : ℕ} (h : n ≤ max) : Text.Numeral max n.repr.toList n := by
  have hv : Nat.ofDigitChars 10 n.repr.toList 0 = n := by
    rw [Decimal.repr_toList]
    exact Nat.ofDigitChars_ten_toDigits
  exact ⟨by simp, fun _ => isDigit_of_mem_repr, hv, h⟩

variable (w : ℕ)

theorem dropWhile_number (n : ℕ) (rest : List Char) :
    (number w n ++ rest).dropWhile (· = ' ') = n.repr.toList ++ rest := by
  obtain ⟨d, ds, hr, hd⟩ := repr_eq_cons n
  have hs : ∀ c ∈ replicate (w - n.repr.length) ' ', decide (c = ' ') = true := by
    intro c hc
    exact decide_eq_true (eq_of_mem_replicate hc)
  have hne : d ≠ ' ' := by
    rintro rfl
    exact absurd hd (by decide)
  rw [number, append_assoc, dropWhile_append_of_pos hs, hr, cons_append,
    dropWhile_cons_of_neg (by simpa using hne)]

theorem notMem_number (hs : c ≠ ' ') (hd : c.isDigit = false) (w n : ℕ) : c ∉ number w n := by
  intro h
  rcases mem_append.mp h with h | h
  · exact hs (eq_of_mem_replicate h)
  · exact notMem_repr hd h

theorem readRow_row (line : ℕ × String) : readRow (row w line) = line := by
  have hta : ∀ c ∈ number w line.1, decide (c ≠ '\t') = true := by
    intro c hc
    exact decide_eq_true fun heq => notMem_number (by decide) (by decide) w line.1 (heq ▸ hc)
  have hn : (row w line).takeWhile (· ≠ '\t') = number w line.1 := by
    rw [row, takeWhile_append_of_pos hta, takeWhile_cons_of_neg (by decide), append_nil]
  have ht : (row w line).dropWhile (· ≠ '\t') = '\t' :: line.2.toList := by
    rw [row, dropWhile_append_of_pos hta, dropWhile_cons_of_neg (by decide)]
  have hd := dropWhile_number w line.1 []
  rw [append_nil, append_nil] at hd
  rw [readRow, hn, ht, hd, drop_one, tail_cons, String.ofList_toList, String.ofList_toList,
    Nat.toNat?_repr, Option.getD_some]

theorem newline_notMem_row {line : ℕ × String} (h : '\n' ∉ line.2.toList) : '\n' ∉ row w line := by
  rw [row, mem_append, mem_cons]
  exact not_or.mpr ⟨notMem_number (by decide) (by decide) w line.1, not_or.mpr ⟨by decide, h⟩⟩

theorem isComment_row (line : ℕ × String) : isComment (row w line) = false := by
  obtain ⟨d, ds, hr, hd⟩ := repr_eq_cons line.1
  rw [isComment, row, dropWhile_number, hr, cons_append, head?_cons, decide_eq_false_iff_not, Option.some.injEq]
  rintro rfl
  exact absurd hd (by decide)

theorem isComment_append {lead : List Char} (h : isComment lead = true) (rest : List Char) :
    isComment (lead ++ rest) = true := by
  obtain ⟨cs, hcs⟩ := head?_eq_some_iff.mp (of_decide_eq_true h)
  rw [isComment, dropWhile_append, hcs]
  rfl

/-- The rows of a text are read back, with comments in front of them. -/
theorem read_intercalate {co : List (List Char)} (hco : ∀ c ∈ co, isComment c = true ∧ '\n' ∉ c)
    {lines : List (ℕ × String)} (hl : ∀ line ∈ lines, '\n' ∉ line.2.toList) (hne : co ≠ [] ∨ lines ≠ []) :
    read (['\n'].intercalate (co ++ lines.map (row w))) = lines := by
  have hf : ∀ piece ∈ co ++ lines.map (row w), '\n' ∉ piece := by
    intro piece hp
    rcases mem_append.mp hp with h | h
    · exact (hco piece h).2
    · obtain ⟨line, hli, rfl⟩ := mem_map.mp h
      exact newline_notMem_row w (hl line hli)
  have hs : co ++ lines.map (row w) ≠ [] := by
    rw [ne_eq, append_eq_nil_iff, map_eq_nil_iff]
    exact fun h => hne.elim (· h.1) (· h.2)
  have hsk : co.filter isRow = [] := by
    refine filter_eq_nil_iff.mpr fun c hc => ?_
    simp [isRow, (hco c hc).1]
  have hk : (lines.map (row w)).filter isRow = lines.map (row w) := by
    refine filter_eq_self.mpr fun piece hp => ?_
    obtain ⟨line, -, rfl⟩ := mem_map.mp hp
    rw [isRow, isComment_row]
    simp [row]
  have hi : readRow ∘ row w = id := funext (readRow_row w)
  rw [read, splitOn_intercalate '\n' hf hs, filter_append, hsk, hk, nil_append, map_map, hi, map_id]

variable {rows : List (List Char)}

theorem unlines_eq (hne : rows ≠ []) : unlines rows = ['\n'].intercalate rows ++ ['\n'] := by
  induction rows with
  | nil => exact absurd rfl hne
  | cons first rest ih =>
    cases rest with
    | nil => simp [unlines]
    | cons s rest =>
      have hr := ih (cons_ne_nil s rest)
      rw [unlines, flatMap_cons, ← unlines, hr]
      simp

theorem intercalate_eq_concat (hne : rows ≠ []) (hr : ∀ p ∈ rows, p ≠ [] ∧ '\n' ∉ p) :
    ∃ init last, ['\n'].intercalate rows = init ++ [last] ∧ last ≠ '\n' := by
  induction rows with
  | nil => exact absurd rfl hne
  | cons f rest ih =>
    cases rest with
    | nil =>
      obtain ⟨hf, hfr⟩ := hr f mem_cons_self
      refine ⟨f.dropLast, f.getLast hf, ?_, fun heq => hfr (heq ▸ getLast_mem hf)⟩
      rw [dropLast_concat_getLast]
      simp
    | cons s rest =>
      obtain ⟨init, last, heq, hl⟩ :=
        ih (cons_ne_nil s rest) fun p h => hr p (mem_cons_of_mem _ h)
      exact ⟨f ++ '\n' :: init, last, by rw [intercalate_cons_cons, heq]; simp, hl⟩

/-- The line feeds at the end of a text that ends with a row are dropped. -/
theorem trimEnd_unlines (lead : List Char) (hne : rows ≠ []) (hr : ∀ p ∈ rows, p ≠ [] ∧ '\n' ∉ p) :
    (lead ++ unlines rows).rdropWhile (· = '\n') = lead ++ ['\n'].intercalate rows := by
  obtain ⟨init, last, heq, hl⟩ := intercalate_eq_concat hne hr
  rw [unlines_eq hne, ← append_assoc, rdropWhile_concat_pos _ _ _ (by decide), heq, ← append_assoc]
  exact rdropWhile_concat_neg _ _ _ (by simpa using hl)

end AgentiumOs.Lib.Listing
