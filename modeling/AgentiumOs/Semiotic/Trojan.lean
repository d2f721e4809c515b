import AgentiumOs.Semiotic.Lint

/-! What detection reports, against the whole-word occurrences of the phrases. The
regular expression engine is assumed to find exactly these. -/

namespace AgentiumOs.Semiotic

open Lib List

variable {V : Type} (isWord : Char → Bool) (P : Platform V)

/-- `\b`: one of the two characters around the position is a word character. -/
def atBoundary (t : List Char) (i : ℕ) : Bool := (decide (0 < i) && t[i - 1]?.any isWord) != t[i]?.any isWord

/-- The positions at which a phrase stands as a whole word. -/
def occurrences (phrase t : List Char) : List ℕ :=
  (List.range t.length).filter fun i =>
    phrase.isPrefixOf (t.drop i) && atBoundary isWord t i && atBoundary isWord t (i + phrase.length)

def bytesBefore (t : List Char) (i : ℕ) : ℕ := (String.ofList (t.take i)).utf8ByteSize

/-- The engine finds the first whole word, and compiles the pattern of the defusers. -/
structure FindsWords : Prop where
  isWord_ascii : ∀ c : Char, c.val < 128 → isWord c = (c.isAlphanum || c = '_')
  isMatch : ∀ phrase ∈ trojans, ∀ t, P.regexIsMatch (wordPattern P phrase) t =
    some (!(occurrences isWord phrase.toList t.toList).isEmpty)
  find : ∀ phrase ∈ trojans, ∀ t, P.regexFind (wordPattern P phrase) t =
    (occurrences isWord phrase.toList t.toList).head?.map fun i =>
      (bytesBefore t.toList i, bytesBefore t.toList (i + phrase.length))
  compiles : ∀ window, (P.regexIsMatch defusers window).isSome

/-- No defuser matches within the 60 characters from position `i` on. -/
def undefused (t : List Char) (i : ℕ) : Bool :=
  P.regexIsMatch defusers (String.ofList ((t.drop i).take 60)) = some false

/-- Some whole-word occurrence outside the longer phrases is not defused. -/
def Reported (t : List Char) (phrase : String) : Prop :=
  ∃ i ∈ occurrences isWord phrase.toList t, undefused P t (i + phrase.length) ∧
    ∀ longer ∈ trojans, longer ≠ phrase → Text.contains longer phrase →
      ∀ j ∈ occurrences isWord longer.toList t, ¬ (j ≤ i ∧ i + phrase.length ≤ j + longer.length)

instance (t : List Char) (phrase : String) : Decidable (Reported isWord P t phrase) :=
  inferInstanceAs (Decidable (∃ i ∈ _, _))

/-- A longer phrase around it stands somewhere in the text. -/
def Covered (t : List Char) (phrase : String) : Prop :=
  ∃ longer ∈ trojans, longer ≠ phrase ∧ Text.contains longer phrase ∧ occurrences isWord longer.toList t ≠ []

instance (t : List Char) (phrase : String) : Decidable (Covered isWord t phrase) :=
  inferInstanceAs (Decidable (∃ longer ∈ trojans, _))

/-- The 60 bytes after the first `i` characters; none if they end inside a character. -/
def bytesAfter (t : String) (i : ℕ) : Option String :=
  Text.sliceBytes t (bytesBefore t.toList i) (min t.utf8ByteSize (bytesBefore t.toList i + 60))

variable {isWord P} {t l phrase : String}

theorem keepUndefused_eq (hE : FindsWords isWord P) (hp : ph ⊆ trojans) : keepUndefused P t ph =
    if ∀ p ∈ ph, ∀ i ∈ (occurrences isWord p.toList t.toList).head?, (bytesAfter t (i + p.length)).isSome then
      some (ph.filter fun p => (occurrences isWord p.toList t.toList).head?.any fun i =>
        (bytesAfter t (i + p.length)).any (P.regexIsMatch defusers · = some false))
    else none := by
  induction ph with
  | nil => rfl
  | cons p ph ih =>
    rw [keepUndefused, hE.find p (hp mem_cons_self), ih (subset_of_cons_subset hp)]
    simp only [forall_mem_cons, filter_cons]
    cases hh : (occurrences isWord p.toList t.toList).head? with
    | none => simp
    | some i =>
      have hb : Text.sliceBytes t (bytesBefore t.toList (i + p.length))
          (min t.utf8ByteSize (bytesBefore t.toList (i + p.length) + 60)) = bytesAfter t (i + p.length) := rfl
      simp only [Option.map_some, hb]
      cases hw : bytesAfter t (i + p.length) with
      | none => simp [hw]
      | some window =>
        obtain ⟨d, hd⟩ := Option.isSome_iff_exists.mp (hE.compiles window)
        cases d with
        | false =>
          simp [hw, hd]
          split <;> rfl
        | true => simp [hw, hd]

/-- The phrases for which a defuser is looked for. -/
theorem detect_eq (hE : FindsWords isWord P) (ht : t = P.toLowercase te) :
    ∃ e, detect P te = keepUndefused P t e ∧ ∀ phrase, phrase ∈ e ↔
      phrase ∈ trojans ∧ occurrences isWord phrase.toList t.toList ≠ [] ∧ ¬ Covered isWord t.toList phrase := by
  subst ht
  refine ⟨_, rfl, fun phrase => ?_⟩
  have hn : trojans.Nodup := by decide +kernel
  have hf (p) : p ∈ ((trojans.filter fun p => (P.regexIsMatch (wordPattern P p) (P.toLowercase te)).getD
      false).mergeSort fun a b => decide (a ≤ b)).destutter (· ≠ ·) ↔
        p ∈ trojans ∧ occurrences isWord p.toList (P.toLowercase te).toList ≠ [] := by
    rw [destutter_of_isChain, mem_mergeSort, mem_filter]
    · refine and_congr_right fun h => ?_
      simp [hE.isMatch p h]
    · exact ((mergeSort_perm _ _).nodup_iff.mpr (hn.filter _)).isChain
  simp only [mem_filter, hf, and_assoc, Bool.not_eq_true', any_eq_false, Covered]
  refine and_congr_right fun _ => and_congr_right fun _ => ?_
  grind

theorem reported_iff (h : ¬ Covered isWord t.toList phrase) : Reported isWord P t.toList phrase ↔
    ∃ j ∈ occurrences isWord phrase.toList t.toList, undefused P t.toList (j + phrase.length) := by
  refine exists_congr fun j => and_congr_right fun _ => and_iff_left fun l hl hne hc k hk => ?_
  exact absurd ⟨l, hl, hne, hc, ne_nil_of_mem hk⟩ h

/-- Detection does not panic and reports the phrases that stand outside the longer ones without a
defuser, exactly when for each phrase of the text this one is not met outside a longer one that is
there, or else the 60 bytes after its first occurrence end with a character and are not defused
just if some occurrence is not. -/
theorem detect_reported_iff (hE : FindsWords isWord P) (text : String) : let t := P.toLowercase text
    (∃ found, detect P text = some found ∧
      ∀ phrase, phrase ∈ found ↔ phrase ∈ trojans ∧ Reported isWord P t.toList phrase) ↔
    ∀ phrase ∈ trojans, ∀ i ∈ (occurrences isWord phrase.toList t.toList).head?,
      if Covered isWord t.toList phrase then ¬ Reported isWord P t.toList phrase
      else ∃ window ∈ bytesAfter t (i + phrase.length), P.regexIsMatch defusers window = some false ↔
        ∃ j ∈ occurrences isWord phrase.toList t.toList, undefused P t.toList (j + phrase.length) := by
  intro t
  obtain ⟨e, hd, hm⟩ := detect_eq hE (rfl : t = _)
  rw [hd, keepUndefused_eq hE fun p hp => ((hm p).mp hp).1]
  constructor
  · rintro ⟨found, hd, hr⟩ phrase hp i hi
    split_ifs at hd with hw
    cases hd
    have hr := hr phrase
    rw [mem_filter, hm] at hr
    split_ifs with hc
    · grind
    · have hne : occurrences isWord phrase.toList t.toList ≠ [] := by
        rintro h
        simp [h] at hi
      obtain ⟨window, hwi⟩ := Option.isSome_iff_exists.mp (hw phrase ((hm phrase).mpr ⟨hp, hne, hc⟩) i hi)
      refine ⟨window, hwi, ?_⟩
      rw [← reported_iff hc]
      simpa [hp, hne, hc, Option.mem_def.mp hi, hwi] using hr
  · intro h
    have hw : ∀ p ∈ e, ∀ i ∈ (occurrences isWord p.toList t.toList).head?,
        (bytesAfter t (i + p.length)).isSome := by
      intro p hp i hi
      obtain ⟨hp, -, hc⟩ := (hm p).mp hp
      have hp := h p hp i hi
      rw [if_neg hc] at hp
      obtain ⟨window, hwi, -⟩ := hp
      simp [Option.mem_def.mp hwi]
    refine ⟨_, if_pos hw, fun phrase => ?_⟩
    rw [mem_filter, hm, and_assoc]
    refine and_congr_right fun hp => ?_
    cases hi : (occurrences isWord phrase.toList t.toList).head? with
    | none =>
      have hno := head?_eq_none_iff.mp hi
      simp [Reported, hno]
    | some i =>
      have hp := h phrase hp i hi
      have hne := ne_nil_of_mem (mem_of_head? hi)
      split_ifs at hp with hc
      · simp [hp, hc]
      · obtain ⟨window, hwi, hr⟩ := hp
        rw [← reported_iff hc] at hr
        simp [hne, hc, Option.mem_def.mp hwi, hr]

def asciiWord (c : Char) : Bool := c.isAlphanum || c = '_'

/-- A platform that reads a pattern as a word between two boundaries, and knows one defuser. -/
def wordPlatform : Platform String where
  toLowercase := id
  regexEscape := id
  regexIsMatch := fun pattern t =>
    some (if pattern = defusers then Text.contains t "more than"
      else !(occurrences asciiWord ((pattern.toList.drop 2).rdrop 2) t.toList).isEmpty)
  regexFind := fun pattern t =>
    let word := (pattern.toList.drop 2).rdrop 2
    (occurrences asciiWord word t.toList).head?.map fun i =>
      (bytesBefore t.toList i, bytesBefore t.toList (i + word.length))
  toJson := id
  debug := id
  hashOrder := id
  hashOrder_perm := .refl

theorem wordPlatform_finds : FindsWords asciiWord wordPlatform := by
  have hw : ∀ phrase, ((wordPattern wordPlatform phrase).toList.drop 2).rdrop 2 = phrase.toList := by
    intro phrase
    simp only [wordPattern, wordPlatform, String.toList_append, id]
    exact rdrop_append_length ..
  have hd : ∀ phrase, wordPattern wordPlatform phrase ≠ defusers := by
    intro phrase h
    have h := congrArg (·.toList.head?) h
    simp [wordPattern, defusers] at h
  refine ⟨fun _ _ => rfl, fun phrase _ t => ?_, fun phrase _ t => ?_, fun _ => rfl⟩
  · change some (if _ then _ else _) = _
    rw [if_neg (hd phrase), hw]
  · change Option.map _ _ = _
    rw [hw]
    rfl

theorem twice_stale_reported : ∃ found, detect wordPlatform "stale rows and stale files" = some found ∧
    ∀ phrase, phrase ∈ found ↔
      phrase ∈ trojans ∧ Reported asciiWord wordPlatform "stale rows and stale files".toList phrase :=
  (detect_reported_iff wordPlatform_finds _).mpr (by decide +kernel)

/-- The second occurrence is not examined, and the window ends inside a character. -/
theorem second_stale_missed : (detect wordPlatform "stale for more than a day, or simply very stale" = some [] ∧
      Reported asciiWord wordPlatform "stale for more than a day, or simply very stale".toList "stale") ∧
    detect wordPlatform ("stale" ++ String.ofList (List.replicate 59 '.') ++ "é") = none := by
  decide +kernel

end AgentiumOs.Semiotic
