import AgentiumOs.Archive.RefNumbers

/-! What a line `#N` of the history resolves to. Lines are numbered by the pair of their activity
and their source, their texts are kept by the activity alone. -/

namespace AgentiumOs.Archive

open Lib Function

/-- The text inserted last for a line that meets a condition. -/
def lastText (inserted : List (HistoryEntry × String)) (p : HistoryEntry → Bool) : Option String :=
  (inserted.filter fun line => p line.1).getLast?.map Prod.snd

theorem lastText_append (b af : List (HistoryEntry × String)) (p : HistoryEntry → Bool) :
    lastText (b ++ af) p = (lastText af p).or (lastText b p) := by
  simp [lastText, Option.map_or]

namespace RefOp

/-- The line and the text that an operation inserts; a failed assertion inserts nothing. -/
def inserts (t : RefTable) : RefOp → List (HistoryEntry × String)
  | insertHistory entry content => [(entry, content)]
  | insertVirtualHistory n entry content =>
      if (t.historyStableKeyToN (historyStableKey entry)).getD n = n then [(entry, content)] else []
  | _ => []

variable {t t' : RefTable} {op : RefOp} {n : ℕ} {co : String}

theorem Acts.key_mono (h : Acts t op t') (hn : t.historyStableKeyToN key = some n) :
    t'.historyStableKeyToN key = some n := by
  have hp : ∀ {k : String} (m : ℕ), t.historyStableKeyToN k = none →
      update t.historyStableKeyToN k (some m) key = some n := by
    intro k m hk
    have hne : key ≠ k := fun heq => by simp [← heq, hn] at hk
    rw [update_of_ne hne, hn]
  cases h with
  | registers entry co hke => exact hp t.next hke
  | registersLine m entry co hke => exact hp m hke
  | _ => exact hn

variable {entry : HistoryEntry}

theorem line_of_inserts (h : (entry, co) ∈ op.inserts t) : op.line? = some entry := by
  cases op with
  | insertHistory e c =>
    cases List.mem_singleton.mp h
    rfl
  | insertVirtualHistory n e c =>
    simp only [inserts] at h
    split at h
    · cases List.mem_singleton.mp h
      rfl
    · cases h
  | _ => cases h

theorem Acts.history_cases (h : Acts t op t') (hn : t'.history n = some entry) : t.history n = some entry ∨
      t'.historyStableKeyToN (historyStableKey entry) = some n ∧ ∃ co, (entry, co) ∈ op.inserts t := by
  have hp : ∀ {m : ℕ} {e : HistoryEntry}, update t.history m (some e) n = some entry →
      t.history n = some entry ∨ m = n ∧ e = entry := by
    intro m e hm
    by_cases hne : n = m
    · rw [hne, update_self] at hm
      exact .inr ⟨hne.symm, Option.some.inj hm⟩
    · rw [update_of_ne hne] at hm
      exact .inl hm
  cases h with
  | refills e co m hk hh =>
    refine (hp hn).imp_right ?_
    rintro ⟨rfl, rfl⟩
    exact ⟨hk, co, List.mem_cons_self⟩
  | registers e co hk =>
    refine (hp hn).imp_right ?_
    rintro ⟨rfl, rfl⟩
    exact ⟨update_self _ _ _, co, List.mem_cons_self⟩
  | replaysLine m e co hk =>
    refine (hp hn).imp_right ?_
    rintro ⟨rfl, rfl⟩
    exact ⟨hk, co, by simp [inserts, hk]⟩
  | registersLine m e co hk =>
    refine (hp hn).imp_right ?_
    rintro ⟨rfl, rfl⟩
    exact ⟨update_self _ _ _, co, by simp [inserts, hk]⟩
  | _ => exact .inl hn

theorem Acts.text_eq (h : Acts t op t') (aa : String) : t'.historyTextByActivity aa =
      (lastText (op.inserts t) fun entry => entry.activityAnchor = aa).or (t.historyTextByActivity aa) := by
  have hp : ∀ (e : HistoryEntry) (co : String),
      update t.historyTextByActivity e.activityAnchor (some co) aa =
        (lastText [(e, co)] fun entry => entry.activityAnchor = aa).or
          (t.historyTextByActivity aa) := by
    intro e co
    by_cases he : e.activityAnchor = aa
    · simp [lastText, he]
    · simp [lastText, he, update_of_ne (Ne.symm he)]
  cases h with
  | repeats e co m hk hh | refills e co m hk hh | registers e co hk => exact hp e co
  | replaysLine m e co hk =>
    simp only [inserts, hk, Option.getD_some]
    exact hp e co
  | registersLine m e co hk =>
    simp only [inserts, hk, Option.getD_none]
    exact hp e co
  | asserts n e co m hk hne =>
    simp only [inserts, hk, Option.getD_some, if_neg hne]
    rfl
  | _ => rfl

end RefOp

open RefOp

/-- The lines that a sequence of operations inserts, with their texts. -/
def insertedLines (ops : List RefOp) : List (HistoryEntry × String) :=
  Run.collect RefTable.step (fun t op => op.inserts t) .new ops

def RefTable.number (t : RefTable) (entry : HistoryEntry) : Option ℕ :=
  t.historyStableKeyToN (historyStableKey entry)

/-- What the lines inserted so far say about the table. -/
structure Holds (lines : List (HistoryEntry × String)) (t : RefTable) : Prop where
  history : ∀ n entry, t.history n = some entry → t.number entry = some n ∧ ∃ content, (entry, content) ∈ lines
  number : ∀ entry content, (entry, content) ∈ lines → ∃ n, t.number entry = some n
  registered : Registered t
  text : ∀ activityAnchor, t.historyTextByActivity activityAnchor =
    lastText lines fun entry => entry.activityAnchor = activityAnchor

variable {t : RefTable} {entry : HistoryEntry} {n : ℕ}

theorem Holds.step (h : Holds l t) (op : RefOp) : Holds (l ++ op.inserts t) (op.apply t) := by
  have ha := acts t op
  refine ⟨fun n entry hn => ?_, fun entry c hm => ?_, ha.registered h.registered, fun aa => ?_⟩
  · rcases ha.history_cases hn with ho | ⟨hk, c, hi⟩
    · obtain ⟨hk, c, hm⟩ := h.history n entry ho
      exact ⟨ha.key_mono hk, c, List.mem_append_left _ hm⟩
    · exact ⟨hk, c, List.mem_append_right _ hi⟩
  · rcases List.mem_append.mp hm with ho | hi
    · obtain ⟨n, hn⟩ := h.number entry c ho
      exact ⟨n, ha.key_mono hn⟩
    · refine Option.ne_none_iff_exists'.mp fun hno => ?_
      exact ((ha.key_eq_none_iff _).mp hno).2 entry (line_of_inserts hi) rfl
  · rw [ha.text_eq, lastText_append, h.text]

theorem holds_run (ops : List RefOp) : Holds (insertedLines ops) (.run ops) := by
  induction ops using List.reverseRecOn with
  | nil => exact ⟨fun _ _ h => (by cases h), fun _ _ h => (by cases h), fun _ _ h => (by cases h), fun _ => rfl⟩
  | append_singleton ops op ih =>
    rw [insertedLines, Run.collect_concat, RefTable.run_concat]
    exact ih.step op

def DistinctNumbers (ops : List RefOp) : Prop :=
  ∀ line ∈ insertedLines ops, ∀ line' ∈ insertedLines ops,
    (RefTable.run ops).number line.1 = (RefTable.run ops).number line'.1 → line.1 = line'.1

instance (ops : List RefOp) : Decidable (DistinctNumbers ops) := by
  unfold DistinctNumbers
  infer_instance

/-- The number of a pair resolves to the text that was last inserted for its activity. -/
theorem resolve_eq_lastText (hd : DistinctNumbers ops) (hi : (entry, content) ∈ insertedLines ops)
    (hn : (RefTable.run ops).number entry = some n) :
    (RefTable.run ops).resolve n =
      lastText (insertedLines ops) fun e => e.activityAnchor = entry.activityAnchor := by
  have h := holds_run ops
  obtain ⟨entry', he'⟩ := Option.ne_none_iff_exists'.mp (h.registered _ n hn)
  obtain ⟨hnu, content', hi'⟩ := h.history n entry' he'
  have hs : entry' = entry := hd _ hi' _ hi (hnu.trans hn.symm)
  rw [RefTable.resolve, RefTable.getHistory, he', hs]
  exact h.text entry.activityAnchor

theorem insertHistory_again (hn : t.number entry = some n) (c : String) :
    (t.insertHistory entry c).1 = n ∧ (t.insertHistory entry c).2.next = t.next := by
  unfold RefTable.number at hn
  simp only [RefTable.insertHistory, hn, true_and]
  split <;> rfl

/-- As long as no two pairs have one number, the number of a pair resolves to the text that was last
inserted for it exactly when no other text was inserted after it for its activity; the pair keeps
its number, and another source of the activity leaves what the number resolves to exactly when it
brings the same text. -/
theorem history_ref_text_iff {ops : List RefOp} (hdistinct : DistinctNumbers ops) {entry : HistoryEntry}
    {text : String} (hins : (entry, text) ∈ insertedLines ops) :
    ∃ n, (RefTable.run ops).number entry = some n ∧
      ((RefTable.run ops).resolve n = (lastText (insertedLines ops) fun e => e = entry) ↔
        (lastText (insertedLines ops) fun e => e.activityAnchor = entry.activityAnchor) =
          lastText (insertedLines ops) fun e => e = entry) ∧
      (∀ content, ((RefTable.run ops).insertHistory entry content).1 = n ∧
        ((RefTable.run ops).insertHistory entry content).2.next = (RefTable.run ops).next) ∧
      ∀ other content, other.activityAnchor = entry.activityAnchor →
        DistinctNumbers (ops ++ [.insertHistory other content]) →
        (((RefTable.run ops).insertHistory other content).2.resolve n = (RefTable.run ops).resolve n ↔
          (RefTable.run ops).resolve n = some content) := by
  obtain ⟨n, hn⟩ := (holds_run ops).number entry text hins
  refine ⟨n, hn, by rw [resolve_eq_lastText hdistinct hins hn], insertHistory_again hn, ?_⟩
  intro other content ha haf
  have hl : insertedLines (ops ++ [.insertHistory other content]) = insertedLines ops ++ [(other, content)] :=
    Run.collect_concat _ _ _ _ _
  have hrun : RefTable.run (ops ++ [.insertHistory other content]) =
      ((RefTable.run ops).insertHistory other content).2 := RefTable.run_concat ops _
  have hk : (RefTable.run (ops ++ [.insertHistory other content])).number entry = some n := by
    rw [RefTable.run_concat]
    exact (acts _ _).key_mono hn
  have hr := resolve_eq_lastText haf (hl ▸ List.mem_append_left _ hins) hk
  rw [hl, lastText_append, hrun] at hr
  have hla : lastText [(other, content)] (fun e => e.activityAnchor = entry.activityAnchor) = some content := by
    simp [lastText, ha]
  rw [hr, hla, Option.some_or, eq_comm]

def updatedMessage : List RefOp :=
  [.insertHistory ⟨"evt-1", "message"⟩ "hello", .insertHistory ⟨"evt-1", "message"⟩ "hello again"]

theorem updated_message_resolves :
    DistinctNumbers updatedMessage ∧ ∃ n, (RefTable.run updatedMessage).resolve n = some "hello again" := by
  have hd : DistinctNumbers updatedMessage := by decide
  have hins : (⟨"evt-1", "message"⟩, "hello") ∈ insertedLines updatedMessage := by decide
  obtain ⟨n, -, ht, -⟩ := history_ref_text_iff hd hins
  exact ⟨hd, n, ht.mpr (by decide)⟩

/-- The text of the tool call of an activity takes the place of the text of its message. -/
theorem message_resolves_to_tool_call : (RefTable.new.insertHistory ⟨"evt-1", "message"⟩ "hello").1 = 1 ∧
      (RefTable.run [.insertHistory ⟨"evt-1", "message"⟩ "hello"]).resolve 1 = some "hello" ∧
      (RefTable.run [.insertHistory ⟨"evt-1", "message"⟩ "hello",
        .insertHistory ⟨"evt-1", "tool_call"⟩ "search"]).resolve 1 = some "search" := by
  decide

end AgentiumOs.Archive
