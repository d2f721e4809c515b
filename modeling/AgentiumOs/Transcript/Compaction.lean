import AgentiumOs.Transcript.Engine

/-! The part of a transcript that a compaction summarises. It is chosen by its number of lines, but
kept as the ordering key of its last line and applied by comparison, so lines with the same key on
the other side of the boundary go with it. -/

namespace AgentiumOs.Transcript

/-- What the choice of the range reads of the policy. -/
structure CompactionTriggerPolicy where
  itemThreshold : ℕ
  recentTailRetention : ℕ

structure CompactableRange where
  coveredEventOrderStart : ℕ
  coveredEventOrderEnd : ℕ
  recentTailStartEventOrder : ℕ
  deriving DecidableEq

open CompactableRange

def CompactionTriggerPolicy.splitAt (policy : CompactionTriggerPolicy) (items : List ConversationContextItem) : ℕ :=
  items.length - max policy.recentTailRetention 1

def selectCompactableRange (items : List ConversationContextItem) (policy : CompactionTriggerPolicy) :
    Option CompactableRange :=
  if items.length < policy.itemThreshold then none
  else if items.length ≤ max policy.recentTailRetention 1 then none
  else
    let prefixRows := items.take (policy.splitAt items)
    let tailRows := items.drop (policy.splitAt items)
    if prefixRows.isEmpty then none
    else
      let coveredStart := (prefixRows.head?.map ConversationContextItem.timestampMs).getD 0
      some
        { coveredEventOrderStart := coveredStart
          coveredEventOrderEnd := (prefixRows.getLast?.map ConversationContextItem.timestampMs).getD coveredStart
          recentTailStartEventOrder := (tailRows.head?.map ConversationContextItem.timestampMs).getD (2 ^ 64 - 1) }

/-- An item is summarised if its key is covered, live planning apart. -/
def CompactableRange.covers (range : CompactableRange) (item : ConversationContextItem) : Bool :=
  item.timestampMs ≤ range.coveredEventOrderEnd && !itemIsLivePlanningObligation item

def partitionItemsForCompaction (items : List ConversationContextItem) (range : CompactableRange) :
    List ConversationContextItem × List ConversationContextItem :=
  (items.filter fun item => item.timestampMs ≤ range.coveredEventOrderEnd && !itemIsLivePlanningObligation item,
    items.filter fun item => range.coveredEventOrderEnd < item.timestampMs || itemIsLivePlanningObligation item)

variable {range : CompactableRange}

theorem CompactableRange.covers_eq_true : range.covers i = true ↔
      i.timestampMs ≤ range.coveredEventOrderEnd ∧ itemIsLivePlanningObligation i = false := by
  simp [covers]

theorem partitionItemsForCompaction_eq (items : List ConversationContextItem) (range : CompactableRange) :
    partitionItemsForCompaction items range =
      (items.filter range.covers, items.filter fun item => !range.covers item) := by
  refine congrArg (Prod.mk _) (List.filter_congr fun item _ => ?_)
  rw [covers, Bool.not_and, Bool.not_not, ← decide_not, decide_eq_decide.mpr not_le]

def ContextCompactionHead.Records (head : ContextCompactionHead) (range : CompactableRange) : Prop :=
  head.coveredEventOrderStart = range.coveredEventOrderStart ∧ head.coveredEventOrderEnd = range.coveredEventOrderEnd

theorem applyCompactionProfile_eq (hh : head.Records range) (items : List ConversationContextItem) :
    applyCompactionProfile .agentPromptCompacted items (some head) =
      head.summaryItem :: (partitionItemsForCompaction items range).2 := by
  simp [applyCompactionProfile, applyAgentPromptCompaction, partitionItemsForCompaction, hh.2]

/-- The boundary by key is the boundary by number: what is not live planning has a covered key
before it and none after it. -/
def CompactableRange.Splits (range : CompactableRange) (items : List ConversationContextItem)
    (policy : CompactionTriggerPolicy) : Prop :=
  (∀ item ∈ items.take (policy.splitAt items), itemIsLivePlanningObligation item = false →
      item.timestampMs ≤ range.coveredEventOrderEnd) ∧
    ∀ item ∈ items.drop (policy.splitAt items), itemIsLivePlanningObligation item = false →
      range.coveredEventOrderEnd < item.timestampMs

variable {items : List ConversationContextItem} {policy : CompactionTriggerPolicy}

theorem filter_covers_iff : items.filter range.covers =
        (items.take (policy.splitAt items)).filter (fun item => !itemIsLivePlanningObligation item) ↔
      range.Splits items policy := by
  have hs : items.filter range.covers = (items.take (policy.splitAt items)).filter range.covers ++
      (items.drop (policy.splitAt items)).filter range.covers := by
    rw [← List.filter_append, List.take_append_drop]
  -- before the boundary the two filters agree as soon as every key is covered
  have hb : (∀ item ∈ items.take (policy.splitAt items), itemIsLivePlanningObligation item = false →
      item.timestampMs ≤ range.coveredEventOrderEnd) →
      (items.take (policy.splitAt items)).filter range.covers =
        (items.take (policy.splitAt items)).filter fun item => !itemIsLivePlanningObligation item := by
    intro hk
    refine List.filter_congr fun item hi => ?_
    rw [Bool.eq_iff_iff, covers_eq_true, Bool.not_eq_true']
    exact and_iff_right_of_imp (hk item hi)
  constructor
  · intro heq
    have hk : ∀ item ∈ items.take (policy.splitAt items), itemIsLivePlanningObligation item = false →
        item.timestampMs ≤ range.coveredEventOrderEnd := by
      intro item hi hl
      have hm : item ∈ items.filter range.covers := by
        rw [heq]
        exact List.mem_filter.mpr ⟨hi, by rw [hl]; rfl⟩
      exact (covers_eq_true.mp (List.mem_filter.mp hm).2).1
    refine ⟨hk, fun item hi hl => ?_⟩
    rw [hs, hb hk, List.append_right_eq_self] at heq
    have hno := List.filter_eq_nil_iff.mp heq item hi
    rw [covers_eq_true] at hno
    exact not_le.mp fun hle => hno ⟨hle, hl⟩
  · rintro ⟨hk, ha⟩
    have hn : (items.drop (policy.splitAt items)).filter range.covers = [] := by
      refine List.filter_eq_nil_iff.mpr fun item hi hc => ?_
      obtain ⟨hle, hl⟩ := covers_eq_true.mp hc
      exact absurd hle (ha item hi hl).not_ge
    rw [hs, hb hk, hn, List.append_nil]

theorem coveredEventOrderEnd_eq (h : selectCompactableRange items policy = some range) :
    ∃ l, (items.take (policy.splitAt items)).getLast? = some l ∧
      range.coveredEventOrderEnd = l.timestampMs := by
  simp only [selectCompactableRange] at h
  split_ifs at h with _ _ he
  cases hl : (items.take (policy.splitAt items)).getLast? with
  | none => exact absurd (List.isEmpty_iff.mpr (List.getLast?_eq_none_iff.mp hl)) he
  | some l =>
    cases h
    simp [hl]

/-- Items that are not live planning have keys up to that of the last item before the recent tail if
they come before the tail, and later keys if they are in it. -/
def TailHasLaterKeys (items : List ConversationContextItem) (policy : CompactionTriggerPolicy) : Prop :=
  ∀ last ∈ (items.take (policy.splitAt items)).getLast?,
    (∀ item ∈ items.take (policy.splitAt items), itemIsLivePlanningObligation item = false →
      item.timestampMs ≤ last.timestampMs) ∧
    ∀ item ∈ items.drop (policy.splitAt items), itemIsLivePlanningObligation item = false →
      last.timestampMs < item.timestampMs

instance (items : List ConversationContextItem) (policy : CompactionTriggerPolicy) :
    Decidable (TailHasLaterKeys items policy) := by
  unfold TailHasLaterKeys
  infer_instance

/-- A compaction summarises the items before the recent tail that are not live planning, and a prompt
shows its summary and then all other items in order, each item being either summarised or kept,
exactly when the keys of the tail are later ones. -/
theorem compaction_splits_iff {items : List ConversationContextItem} {policy : CompactionTriggerPolicy}
    {range : CompactableRange} {head : ContextCompactionHead}
    (hrange : selectCompactableRange items policy = some range)
    (hhead : head.Records range) :
    ((partitionItemsForCompaction items range).1 =
        (items.take (items.length - max 1 policy.recentTailRetention)).filter
          (fun item => !itemIsLivePlanningObligation item) ∧
      applyCompactionProfile .agentPromptCompacted items (some head) =
        head.summaryItem :: (partitionItemsForCompaction items range).2 ∧
      ∃ summarised, partitionItemsForCompaction items range =
        (items.filter summarised, items.filter fun item => !summarised item)) ↔
      TailHasLaterKeys items policy := by
  obtain ⟨last, hl, h⟩ := coveredEventOrderEnd_eq hrange
  have hk : range.Splits items policy ↔ TailHasLaterKeys items policy := by
    simp [Splits, TailHasLaterKeys, hl, h]
  have hsh := applyCompactionProfile_eq hhead items
  have hs := partitionItemsForCompaction_eq items range
  rw [← hk, ← filter_covers_iff, max_comm]
  constructor
  · rintro ⟨hc, -⟩
    rwa [hs] at hc
  · intro hc
    exact ⟨by rwa [hs], hsh, range.covers, hs⟩

def messageAt (timestampMs : ℕ) (activityAnchor : String) : ConversationContextItem :=
  ⟨timestampMs, activityAnchor, "user", .message activityAnchor [], none⟩

def keepOne : CompactionTriggerPolicy := ⟨1, 1⟩

def manualHead (coveredEventOrderStart coveredEventOrderEnd : ℕ) : ContextCompactionHead :=
  ⟨"compact-1", coveredEventOrderStart, coveredEventOrderEnd, "earlier work", .manualOperator, 3, none⟩

theorem compaction_of_distinct_keys :
    selectCompactableRange [messageAt 1 "a", messageAt 2 "b"] keepOne = some ⟨1, 1, 2⟩ ∧
      (manualHead 1 1).Records ⟨1, 1, 2⟩ ∧
      (partitionItemsForCompaction [messageAt 1 "a", messageAt 2 "b"] ⟨1, 1, 2⟩).1 = [messageAt 1 "a"] := by
  have hr : selectCompactableRange [messageAt 1 "a", messageAt 2 "b"] keepOne = some ⟨1, 1, 2⟩ := by decide
  have hh : (manualHead 1 1).Records ⟨1, 1, 2⟩ := ⟨rfl, rfl⟩
  exact ⟨hr, hh, ((compaction_splits_iff hr hh).mpr (by decide)).1⟩

/-- The item that the policy retains has the key of the item before it and is summarised with it. -/
theorem compaction_of_shared_key :
    selectCompactableRange [messageAt 1 "a", messageAt 1 "b"] keepOne = some ⟨1, 1, 1⟩ ∧
      partitionItemsForCompaction [messageAt 1 "a", messageAt 1 "b"] ⟨1, 1, 1⟩ =
        ([messageAt 1 "a", messageAt 1 "b"], []) := by
  decide

end AgentiumOs.Transcript
