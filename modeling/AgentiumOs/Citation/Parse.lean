import AgentiumOs.Lib.Fallible
import AgentiumOs.Lib.Text

/-! Citations: the parser against the grammar of the documented forms. `#n` cites an entry of the
history, `@k` and `@p/k` an archive entry, with the lines that are meant after a colon; a `!` in
front makes it counter-evidence. Every citation of the grammar is parsed to what it denotes; what
is parsed beside it has a signed number or a first line with its letter written twice. -/

namespace AgentiumOs.Citation

open Lib Lib.Fallible List Text

inductive ParsedCitation where
  | history (n : ℕ) (negated : Bool)
  | archive (archivePrefix localIndex : ℕ) (lines : Option (ℕ × ℕ)) (negated : Bool)
  deriving DecidableEq

def u32Max : ℕ := 2 ^ 32 - 1

def usizeMax : ℕ := 2 ^ 64 - 1

/-- A number of an unsigned type; `message` is the error of any text that is not one. -/
def number (max : ℕ) (cs : List Char) (message : String) : Except String ℕ :=
  match Text.parseUnsigned max (String.ofList cs) with
  | some n => .ok n
  | none => .error message

def quoted (cs : List Char) : String := "'" ++ String.ofList cs ++ "'"

def parseArchiveRefPart (part : List Char) : Except String (ℕ × ℕ) :=
  if part = [] then .error "empty archive ref"
  else match Text.splitOnce '/' part with
    | some (prefixRaw, localRaw) =>
        if prefixRaw = [] ∨ localRaw = [] then .error ("invalid composite archive ref: " ++ quoted part)
        else do
          let archivePrefix ← number u32Max prefixRaw ("bad archive prefix: " ++ quoted prefixRaw)
          let localIndex ← number u32Max localRaw ("bad archive local index: " ++ quoted localRaw)
          return (archivePrefix, localIndex)
    | none => do
        let localIndex ← number u32Max part ("bad archive ref number: " ++ quoted part)
        return (1, localIndex)

/-- A line number without its letter. -/
def stripLead : List Char → List Char
  | 'L' :: cs | 'l' :: cs => cs
  | cs => cs

/-- The letter is taken off the whole range, and then off each of its line numbers. -/
def parseLineRange (s : List Char) : Except String (ℕ × ℕ) :=
  match Text.splitOnce '-' (stripLead s) with
  | some (l1Raw, l2Raw) => do
      let start ← number usizeMax (stripLead l1Raw) ("bad start line: " ++ quoted (stripLead l1Raw))
      let stop ← number usizeMax (stripLead l2Raw) ("bad end line: " ++ quoted (stripLead l2Raw))
      if start = 0 ∨ stop = 0 then .error "line numbers are 1-based; 0 is not valid"
      else if stop < start then .error ("start line " ++ toString start ++ " > end line " ++ toString stop)
      else return (start, stop)
  | none => do
      let line ← number usizeMax (stripLead s) ("bad line number: " ++ quoted s)
      if line = 0 then .error "line numbers are 1-based; 0 is not valid" else return (line, line)

/-- The body of a citation `s`, after its `!`. -/
def parseBody (s : String) (negated : Bool) : List Char → Except String ParsedCitation
  | '#' :: rest => do
      let n ← number u32Max rest ("invalid history ref: " ++ quoted s.toList)
      return .history n negated
  | '@' :: rest => do
      let (refPart, linePart) := match Text.splitOnce ':' rest with
        | some (refPart, linePart) => (refPart, some linePart)
        | none => (rest, none)
      let (archivePrefix, localIndex) ← (parseArchiveRefPart refPart).mapError
        fun reason => "invalid archive ref in " ++ quoted s.toList ++ ": " ++ reason
      let lines ← (linePart.mapM parseLineRange).mapError
        fun e => "invalid line range in " ++ quoted s.toList ++ ": " ++ e
      return .archive archivePrefix localIndex lines negated
  | _ => .error ("citation must start with '#' or '!#' (history) or '@' or '!@' (archive); got: " ++ quoted s.toList)

def ParsedCitation.parse (s : String) : Except String ParsedCitation :=
  match s.toList with
  | '!' :: inner => parseBody s true inner
  | body => parseBody s false body

section Grammar

/-- A line number, with or without its letter. -/
def LineNumber (cs : List Char) (n : ℕ) : Prop :=
  ∃ lead ∈ [[], ['L'], ['l']], ∃ digits, cs = lead ++ digits ∧ Text.Numeral usizeMax digits n

inductive LineRange : List Char → ℕ × ℕ → Prop
  | one {cs a} (h : LineNumber cs a) (ha : 1 ≤ a) : LineRange cs (a, a)
  | span {cs ds a b} (h : LineNumber cs a) (h' : LineNumber ds b) (ha : 1 ≤ a) (hab : a ≤ b) :
      LineRange (cs ++ '-' :: ds) (a, b)

inductive ArchiveRef : List Char → ℕ × ℕ → Prop
  | flat {cs k} (h : Text.Numeral u32Max cs k) : ArchiveRef cs (1, k)
  | composite {cs ds p k} (h : Text.Numeral u32Max cs p) (h' : Text.Numeral u32Max ds k) :
      ArchiveRef (cs ++ '/' :: ds) (p, k)

inductive Body (negated : Bool) : List Char → ParsedCitation → Prop
  | history {cs n} (h : Text.Numeral u32Max cs n) : Body negated ('#' :: cs) (.history n negated)
  | archive {cs r} (h : ArchiveRef cs r) : Body negated ('@' :: cs) (.archive r.1 r.2 none negated)
  | lines {cs ds r range} (h : ArchiveRef cs r) (hlines : LineRange ds range) :
      Body negated ('@' :: (cs ++ ':' :: ds)) (.archive r.1 r.2 (some range) negated)

def Denotes (s : List Char) (c : ParsedCitation) : Prop :=
  ∃ negated body, s = (if negated then '!' :: body else body) ∧ Body negated body c

end Grammar

def isLead (c : Char) : Bool := c == 'L' || c == 'l'

/-- A line range whose letter is written twice. -/
def doubled : List Char → Bool
  | c :: d :: _ => isLead c && isLead d
  | _ => false

def doubledLead (cs : List Char) : Bool := (Text.splitOnce ':' cs).any fun cut => doubled cut.2

variable {max n : ℕ} {cs ds l : List Char} {r : ℕ × ℕ} {c : ParsedCitation}

theorem numeral_iff_number (me : String) : Text.Numeral max cs n ↔ number max cs me = .ok n ∧ '+' ∉ cs := by
  rw [numeral_iff, number]
  split <;> simp [*]

theorem number_of_numeral (h : Text.Numeral max cs n) (me : String) : number max cs me = .ok n :=
  ((numeral_iff_number me).mp h).1

theorem pure_eq_ok : (pure a : Except String α) = .ok b ↔ a = b := by
  simp [pure, Except.pure]

theorem archiveRef_iff : ArchiveRef cs r ↔ parseArchiveRefPart cs = .ok r ∧ '+' ∉ cs := by
  constructor
  · rintro (⟨h⟩ | ⟨h, h'⟩)
    · have hc := splitOnce_of_notMem (h.notMem (c := '/') rfl)
      simp only [parseArchiveRefPart, if_neg h.nonempty, hc, number_of_numeral h]
      exact ⟨rfl, h.notMem rfl⟩
    · have hc := splitOnce_append (h.notMem (c := '/') rfl)
      rw [parseArchiveRefPart, if_neg (by simp), hc]
      simp only [h.nonempty, h'.nonempty, number_of_numeral h, number_of_numeral h']
      exact ⟨rfl, by simp [h.notMem (c := '+') rfl, h'.notMem (c := '+') rfl]⟩
  · rintro ⟨h, hs⟩
    rw [parseArchiveRefPart] at h
    split_ifs at h
    cases hc : splitOnce '/' cs with
    | none =>
      simp only [hc, bind_eq_ok, pure_eq_ok] at h
      obtain ⟨k, hk, rfl⟩ := h
      exact .flat ((numeral_iff_number _).mpr ⟨hk, hs⟩)
    | some cut =>
      obtain ⟨rfl, -⟩ := splitOnce_eq_some_iff.mp hc
      simp only [hc] at h
      split_ifs at h
      simp only [bind_eq_ok, pure_eq_ok] at h
      obtain ⟨p, hp, k, hk, rfl⟩ := h
      simp only [mem_append, mem_cons, not_or] at hs
      exact .composite ((numeral_iff_number _).mpr ⟨hp, hs.1⟩) ((numeral_iff_number _).mpr ⟨hk, hs.2.2⟩)

theorem stripLead_of_numeral (h : Text.Numeral max cs n) : stripLead cs = cs := by
  unfold stripLead
  split
  · exact absurd (h.digit 'L' mem_cons_self) (by decide)
  · exact absurd (h.digit 'l' mem_cons_self) (by decide)
  · rfl

theorem lead_append_stripLead (cs : List Char) : ∃ lead ∈ [[], ['L'], ['l']], cs = lead ++ stripLead cs := by
  unfold stripLead
  split <;> simp

theorem lineNumber_iff : LineNumber cs n ↔ Text.Numeral usizeMax (stripLead cs) n := by
  constructor
  · rintro ⟨lead, hl, digits, rfl, h⟩
    simp only [mem_cons, not_mem_nil, or_false] at hl
    rcases hl with rfl | rfl | rfl
    · rwa [nil_append, stripLead_of_numeral h]
    · exact h
    · exact h
  · intro h
    obtain ⟨lead, hl, hcs⟩ := lead_append_stripLead cs
    exact ⟨lead, hl, _, hcs, h⟩

theorem LineNumber.ne_nil (h : LineNumber cs n) : cs ≠ [] := by
  rintro rfl
  exact (lineNumber_iff.mp h).nonempty rfl

theorem LineNumber.notMem {d : Char} (h : LineNumber cs n) (hd : d.isDigit = false) (hl : isLead d = false) :
    d ∉ cs := by
  obtain ⟨lead, hm, digits, rfl, hdi⟩ := h
  have hn := hdi.notMem hd
  simp only [isLead, Bool.or_eq_false_iff, beq_eq_false_iff_ne] at hl
  simp only [mem_cons, not_mem_nil, or_false] at hm
  rcases hm with rfl | rfl | rfl <;> simp [hn, hl]

theorem stripLead_append (h : cs ≠ []) : stripLead (cs ++ ds) = stripLead cs ++ ds := by
  obtain ⟨c, cs, rfl⟩ := exists_cons_of_ne_nil h
  unfold stripLead
  split <;> simp_all

theorem LineRange.parse (h : LineRange cs r) : parseLineRange cs = .ok r := by
  cases h with
  | one h ha =>
    have hn := lineNumber_iff.mp h
    have hc := splitOnce_of_notMem (hn.notMem (c := '-') rfl)
    simp only [parseLineRange, hc, number_of_numeral hn]
    exact if_neg (by omega)
  | @span cs ds a b h h' ha hab =>
    have hs := lineNumber_iff.mp h
    have hst := lineNumber_iff.mp h'
    have hc : splitOnce '-' (stripLead (cs ++ '-' :: ds)) = some (stripLead cs, ds) := by
      rw [stripLead_append h.ne_nil, splitOnce_append (hs.notMem rfl)]
    simp only [parseLineRange, hc, stripLead_of_numeral hs, number_of_numeral hs, number_of_numeral hst]
    refine (if_neg (by omega)).trans (if_neg (by omega))

theorem doubled_append (h : LineNumber cs n) (ds : List Char) : doubled (cs ++ ds) = false := by
  obtain ⟨lead, hm, di, rfl, hdi⟩ := h
  obtain ⟨d, di, rfl⟩ := exists_cons_of_ne_nil hdi.nonempty
  have hd : isLead d = false := by
    by_contra hl
    simp only [isLead, Bool.not_eq_false, Bool.or_eq_true, beq_iff_eq] at hl
    rcases hl with rfl | rfl <;> exact absurd (hdi.digit _ mem_cons_self) (by decide)
  simp only [mem_cons, not_mem_nil, or_false] at hm
  rcases hm with rfl | rfl | rfl
  · cases hr : di ++ ds <;> simp [doubled, hd, hr]
  · simp [doubled, hd]
  · simp [doubled, hd]

theorem LineRange.plain (h : LineRange cs r) : '+' ∉ cs ∧ doubled cs = false := by
  cases h with
  | one h ha => exact ⟨h.notMem rfl rfl, by simpa using doubled_append h []⟩
  | span h h' ha hab =>
    exact ⟨by simp [h.notMem (d := '+') rfl rfl, h'.notMem (d := '+') rfl rfl], doubled_append h _⟩

variable {m s : String}

theorem lineNumber_of_number (h : number usizeMax (stripLead cs) m = .ok n)
    (hs : '+' ∉ cs) : LineNumber cs n := by
  obtain ⟨lead, -, hcs⟩ := lead_append_stripLead cs
  have hs' : '+' ∉ stripLead cs := fun hp => hs (hcs ▸ mem_append_right lead hp)
  exact lineNumber_iff.mpr ((numeral_iff_number _).mpr ⟨h, hs'⟩)

/-- Without a doubled letter, the one that is taken off the whole range is that of its first line. -/
theorem LineNumber.of_stripLead (h : LineNumber l n) (hcs : stripLead cs = l ++ '-' :: ds)
    (hl : doubled cs = false) : ∃ l', LineNumber l' n ∧ cs = l' ++ '-' :: ds := by
  obtain ⟨lead, hm, hc⟩ := lead_append_stripLead cs
  obtain ⟨lead', hm', d, rfl, hd⟩ := h
  rw [hcs] at hc
  subst hc
  simp only [mem_cons, not_mem_nil, or_false] at hm hm'
  rcases hm' with rfl | hm'
  · exact ⟨lead ++ d, ⟨lead, by simp [hm], d, rfl, hd⟩, by simp⟩
  · rcases hm with rfl | rfl | rfl
    · exact ⟨lead' ++ d, ⟨lead', by simp [hm'], d, rfl, hd⟩, rfl⟩
    all_goals rcases hm' with rfl | rfl <;> simp [doubled, isLead] at hl

theorem lineRange_of_parse (h : parseLineRange cs = .ok r) (hs : '+' ∉ cs) (hl : doubled cs = false) :
    LineRange cs r := by
  rw [parseLineRange] at h
  cases hc : splitOnce '-' (stripLead cs) with
  | none =>
    simp only [hc, bind_eq_ok] at h
    obtain ⟨a, ha, h⟩ := h
    split_ifs at h with hz
    cases h
    exact .one (lineNumber_of_number ha hs) (Nat.one_le_iff_ne_zero.mpr hz)
  | some cut =>
    obtain ⟨hst, -⟩ := splitOnce_eq_some_iff.mp hc
    obtain ⟨lead, -, hcs⟩ := lead_append_stripLead cs
    have hs' : '+' ∉ lead ++ (cut.1 ++ '-' :: cut.2) := by rwa [← hst, ← hcs]
    simp only [mem_append, mem_cons, not_or] at hs'
    simp only [hc, bind_eq_ok] at h
    obtain ⟨a, ha, b, hb, h⟩ := h
    split_ifs at h with hz hlt
    cases h
    obtain ⟨first, hf, rfl⟩ := (lineNumber_of_number ha hs'.2.1).of_stripLead hst hl
    exact .span hf (lineNumber_of_number hb hs'.2.2.2) (by omega) (by omega)

theorem map_eq_ok {α β : Type} {x : Except String α} {f : α → β} {b : β} :
    f <$> x = .ok b ↔ ∃ a, x = .ok a ∧ f a = b := by
  cases x <;> simp

theorem mapError_eq_ok {α : Type} {x : Except String α} {f : String → String} {a : α} :
    x.mapError f = .ok a ↔ x = .ok a := by
  cases x <;> simp [Except.mapError]

theorem ArchiveRef.colon_notMem (h : ArchiveRef cs r) : ':' ∉ cs := by
  cases h with
  | flat h => exact h.notMem rfl
  | composite h h' => simp [h.notMem (c := ':') rfl, h'.notMem (c := ':') rfl]

variable {neg : Bool} {body : List Char}

theorem Body.parse (h : Body neg body c) (s : String) : parseBody s neg body = .ok c := by
  cases h with
  | history h =>
    simp only [parseBody, number_of_numeral h]
    rfl
  | archive h =>
    simp only [parseBody, splitOnce_of_notMem h.colon_notMem, (archiveRef_iff.mp h).1]
    rfl
  | lines h hl =>
    simp only [parseBody, splitOnce_append h.colon_notMem, (archiveRef_iff.mp h).1, Option.mapM_some, hl.parse]
    rfl

theorem doubledLead_cons (h : d ≠ ':') : doubledLead (d :: cs) = doubledLead cs := by
  simp [doubledLead, splitOnce, h, Option.any_map]

theorem doubledLead_of_notMem (h : ':' ∉ cs) : doubledLead cs = false := by
  simp [doubledLead, splitOnce_of_notMem h]

theorem doubledLead_append (h : ':' ∉ cs) : doubledLead (cs ++ ':' :: ds) = doubled ds := by
  simp [doubledLead, splitOnce_append h]

theorem Body.plain (h : Body neg body c) : '+' ∉ body ∧ doubledLead body = false := by
  cases h with
  | history h =>
    rw [doubledLead_cons (by decide)]
    exact ⟨not_mem_cons_of_ne_of_not_mem (by decide) (h.notMem rfl), doubledLead_of_notMem (h.notMem rfl)⟩
  | archive h =>
    rw [doubledLead_cons (by decide)]
    exact ⟨not_mem_cons_of_ne_of_not_mem (by decide) (archiveRef_iff.mp h).2, doubledLead_of_notMem h.colon_notMem⟩
  | lines h hl =>
    rw [doubledLead_cons (by decide), doubledLead_append h.colon_notMem]
    exact ⟨by simp [(archiveRef_iff.mp h).2, hl.plain.1], hl.plain.2⟩

theorem body_of_parse (h : parseBody s neg body = .ok c) (hs : '+' ∉ body)
    (hl : doubledLead body = false) : Body neg body c := by
  unfold parseBody at h
  split at h
  · simp only [bind_eq_ok, pure_eq_ok] at h
    obtain ⟨n, hn, rfl⟩ := h
    exact .history ((numeral_iff_number _).mpr ⟨hn, not_mem_of_not_mem_cons hs⟩)
  · rename_i rest
    have hs := not_mem_of_not_mem_cons hs
    cases hcu : splitOnce ':' rest with
    | none =>
      simp only [hcu, bind_eq_ok, pure_eq_ok, mapError_eq_ok] at h
      obtain ⟨r, hr, lines, hli, rfl⟩ := h
      cases hli
      exact .archive (archiveRef_iff.mpr ⟨hr, hs⟩)
    | some cut =>
      obtain ⟨rfl, hc⟩ := splitOnce_eq_some_iff.mp hcu
      rw [doubledLead_cons (by decide), doubledLead_append hc] at hl
      simp only [mem_append, mem_cons, not_or] at hs
      simp only [hcu, bind_eq_ok, pure_eq_ok, mapError_eq_ok, Option.mapM_some, map_eq_ok] at h
      obtain ⟨r, hr, _, ⟨range, hra, rfl⟩, rfl⟩ := h
      exact .lines (archiveRef_iff.mpr ⟨hr, hs.1⟩) (lineRange_of_parse hra hs.2.2 hl)
  · cases h

theorem Denotes.plain {s : List Char} (h : Denotes s c) : '+' ∉ s ∧ doubledLead s = false := by
  obtain ⟨neg, body, rfl, h⟩ := h
  cases neg with
  | true => exact ⟨not_mem_cons_of_ne_of_not_mem (by decide) h.plain.1, (doubledLead_cons (by decide)).trans h.plain.2⟩
  | false => exact h.plain

theorem Denotes.parse (h : Denotes s.toList c) : ParsedCitation.parse s = .ok c := by
  obtain ⟨neg, body, hs, h⟩ := h
  rw [ParsedCitation.parse, hs]
  cases neg with
  | true => exact h.parse s
  | false =>
    rw [if_neg Bool.false_ne_true]
    split
    · cases h
    · exact h.parse s

/-- The parser reads every citation of the grammar as what it denotes; beside them it reads signed
numbers and ranges whose first line has its letter twice. -/
theorem denotes_iff_parse (s : String) (c : ParsedCitation) :
    Denotes s.toList c ↔ ParsedCitation.parse s = .ok c ∧ '+' ∉ s.toList ∧ doubledLead s.toList = false := by
  constructor
  · intro h
    exact ⟨h.parse, h.plain⟩
  · rintro ⟨h, hsi, hl⟩
    rw [ParsedCitation.parse] at h
    split at h
    · rename_i i hs
      rw [hs] at hsi hl
      rw [doubledLead_cons (by decide)] at hl
      exact ⟨true, i, hs, body_of_parse h (not_mem_of_not_mem_cons hsi) hl⟩
    · exact ⟨false, s.toList, rfl, body_of_parse h hsi hl⟩

theorem sign_and_doubled_letter_accepted :
    (ParsedCitation.parse "#+5" = .ok (.history 5 false) ∧ ¬ ∃ c, Denotes "#+5".toList c) ∧
      ParsedCitation.parse "@1:LL5-6" = .ok (.archive 1 1 (some (5, 6)) false) ∧
        ¬ ∃ c, Denotes "@1:LL5-6".toList c := by
  refine ⟨⟨by decide, ?_⟩, by decide, ?_⟩
  all_goals
    rintro ⟨c, h⟩
    exact absurd h.plain (by decide)

end AgentiumOs.Citation
