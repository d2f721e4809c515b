import AgentiumOs.Daemon.ClickupPoll
import AgentiumOs.Daemon.Cycle
import AgentiumOs.Lib.Listing
import AgentiumOs.Lib.Run

/-! Cycles over the lists of a ClickUp source. A task that reaches a terminal status is reported if
the last snapshot that was persisted shows it before; the snapshot of a poll without events is not
persisted, so a task that was reopened in such a poll is not reported when it is closed again. -/

namespace AgentiumOs.Daemon

open ClickupStatus List Lib
open Lib.Json (Value)

structure ClickupTaskSource where
  listIds : List String
  listIds_ne : sortedListIds listIds ≠ []

theorem nonBlank_of_mem_parsedListIds (h : listId ∈ parsedListIds l) :
    nonBlank (some listId) = some listId ∧ listId ≠ "" := by
  obtain ⟨raw, -, hr⟩ := mem_filterMap.mp h
  obtain ⟨ht, hne⟩ := Option.filter_eq_some_iff.mp hr
  obtain rfl : Text.trim raw = listId := Option.some.inj ht
  have hne : Text.trim raw ≠ "" := by simpa using hne
  refine ⟨Option.filter_eq_some_iff.mpr ⟨?_, by simpa using hne⟩, hne⟩
  rw [Option.map_some, Text.trim_trim]

namespace ClickupTaskSource

variable (source : ClickupTaskSource)

def sourceName : String := ",".intercalate (sortedListIds source.listIds)

def sourceKey : String := clickupSourceKey source.listIds

theorem sourceName_ne : source.sourceName ≠ "" := by
  rw [sourceName]
  cases hi : sortedListIds source.listIds with
  | nil => exact absurd hi source.listIds_ne
  | cons f r =>
    have hm : f ∈ sortedListIds source.listIds := by simp [hi]
    have hf := (nonBlank_of_mem_parsedListIds (mem_sortedListIds.mp hm)).2
    cases r with
    | nil => simpa using hf
    | cons second r =>
      simp

end ClickupTaskSource

def toolPollState (source : SourceState) : ClickupPollState :=
  ⟨source.clickupTaskSnapshot, source.clickupLifecycleRevisions⟩

def persistToolPollState (source : SourceState) (toolState : ClickupPollState) : SourceState :=
  { source with
    clickupTaskSnapshot := toolState.taskSnapshot
    clickupLifecycleRevisions := toolState.lifecycleRevisions }

def ClickupTaskSource.sourcePoll (source : ClickupTaskSource) (outcome : ClickupPollOutcome) : SourcePoll :=
  ⟨source.sourceName, source.sourceName_ne, outcome.sourceLabel, .clickup outcome.lifecycleEvents⟩

/-- What is polled from the lists, and the state with the new snapshot. -/
def ClickupTaskSource.poll (source : ClickupTaskSource) (client : ClickUpClient) (state : TaskDaemonState) :
    Except String (SourcePoll × TaskDaemonState) :=
  let previous := state.source source.sourceKey
  match pollClickupLists client source.listIds (toolPollState previous) with
  | .error _ => .error "polling ClickUp lists"
  | .ok outcome =>
      .ok (source.sourcePoll outcome, state.setSource source.sourceKey (persistToolPollState previous outcome.state))

/-- A terminal status has an `e`, and so is never taken for a revision. -/
theorem e_mem_slug {st : ClickupStatus} (h : st.terminal) : 'e' ∈ st.slug.toList := by
  have hw : ∀ w ∈ ["cancel", "closed", "complete", "done", "resolved"], 'e' ∈ w.toList := by decide
  have hn : 'e' ∈ st.normalized.toList := by
    rw [terminal, classifyNormalizedStatus, any_eq_true] at h
    obtain ⟨w, hwo, hc⟩ := h
    have he := hw w hwo
    exact Text.mem_of_contains hc he
  rw [ClickupStatus.slug, Text.replaceChar, String.toList_ofList]
  exact mem_flatMap.mpr ⟨'e', hn, by simp⟩

theorem append_revision (b : String) (re : ℕ) :
    b ++ ":r" ++ toString re = b ++ ":" ++ ("r" ++ toString re) := by
  have hm : ":r" = ":" ++ "r" := by decide
  rw [hm, String.append_assoc, String.append_assoc, String.append_assoc]

variable {kind : ClickupLifecycleEventKind} {keys : List String}

theorem keyLead_injective (h : kind.keyLead = kind'.keyLead) : kind = kind' := by
  revert h
  cases kind <;> cases kind' <;> decide

theorem exists_asTaskKey_eq (kind : ClickupLifecycleEventKind) (taskId : String) (sl : Option String) (re : ℕ) :
    ∃ rest, asTaskKey kind taskId sl re = kind.keyLead ++ ":" ++ rest := by
  have hr : ∀ rest : String, ∃ rest', (if 1 < re then kind.keyLead ++ ":" ++ rest ++ ":r" ++ toString re
      else kind.keyLead ++ ":" ++ rest) = kind.keyLead ++ ":" ++ rest' := by
    intro rest
    split
    · exact ⟨rest ++ (":r" ++ toString re), by simp [String.append_assoc]⟩
    · exact ⟨rest, rfl⟩
  cases kind with
  | created | removed => exact hr taskId
  | terminal =>
    have hre := hr (taskId ++ (":" ++ sl.getD "unknown"))
    simp only [← String.append_assoc] at hre
    exact hre

theorem kind_eq_of_asTaskKey_eq {kind kind' : ClickupLifecycleEventKind} {taskId taskId' : String}
    {slug slug' : Option String} {revision revision' : ℕ}
    (h : asTaskKey kind taskId slug revision = asTaskKey kind' taskId' slug' revision') : kind = kind' := by
  obtain ⟨rest, hr⟩ := exists_asTaskKey_eq kind taskId slug revision
  obtain ⟨rest', hr'⟩ := exists_asTaskKey_eq kind' taskId' slug' revision'
  rw [hr, hr'] at h
  have hf : ∀ k : ClickupLifecycleEventKind, ':' ∉ k.keyLead.toList := by
    intro k
    cases k <;> decide
  exact keyLead_injective (Text.append_colon_inj (hf kind) (hf kind') h).1

variable {taskId : String} {task : ClickupTaskRecord} {current : SortedMap String ClickupTaskRecord}

theorem kind_eq_of_key_eq {change : Change} {revision : ℕ} {sl : Option String} {revision' : ℕ}
    (h : (change.lifecycleEvent revision).key = asTaskKey kind taskId sl revision') : change.kind = kind := by
  cases change with
  | created task => exact @kind_eq_of_asTaskKey_eq .created kind task.id taskId none sl revision revision' h
  | terminal task p =>
    exact @kind_eq_of_asTaskKey_eq .terminal kind task.id taskId (some task.status.slug) sl revision revision' h
  | removed id p => exact @kind_eq_of_asTaskKey_eq .removed kind id taskId none sl revision revision' h

/-- A text that a terminal event's key can have in the place of its status. -/
def StatusSlug (slug : String) : Prop := ':' ∉ slug.toList ∧ 'e' ∈ slug.toList

theorem asTaskKey_terminal (taskId slug : String) (re : ℕ) : asTaskKey .terminal taskId (some slug) re =
      if 1 < re then "clickup-terminal" ++ ":" ++ taskId ++ ":" ++ slug ++ ":" ++ ("r" ++ toString re)
      else "clickup-terminal" ++ ":" ++ taskId ++ ":" ++ slug := by
  rw [← append_revision]
  rfl

/-- The key of a terminal event has the task and the revision, if the status is without colons. -/
theorem asTaskKey_terminal_inj {taskId' slug slug' : String} (hs : StatusSlug slug) (hs' : StatusSlug slug')
    {revision revision' : ℕ} (hp : 0 < revision) (hp' : 0 < revision')
    (h : asTaskKey .terminal taskId (some slug) revision = asTaskKey .terminal taskId' (some slug') revision') :
    taskId = taskId' ∧ revision = revision' := by
  have hf : ∀ n : ℕ, ':' ∉ ("r" ++ toString n).toList := fun n =>
    Text.notMem_append (by decide) (Decimal.colon_notMem_repr n)
  have hn : ∀ n : ℕ, 'e' ∉ ("r" ++ toString n).toList := fun n =>
    Text.notMem_append (by decide) (Listing.notMem_repr (by decide))
  have hi : "clickup-terminal" ++ ":" ++ taskId ++ ":" ++ slug = "clickup-terminal" ++ ":" ++ taskId' ++ ":" ++ slug' →
      taskId = taskId' := by
    intro heq
    have hle := (Text.append_colon_last_inj hs.1 hs'.1 heq).1
    exact (Text.append_colon_inj (by decide) (by decide) hle).2
  rw [asTaskKey_terminal, asTaskKey_terminal] at h
  -- a revision stands at the end of the key exactly if it is not the first
  by_cases hl : 1 < revision
  · by_cases hl' : 1 < revision'
    · rw [if_pos hl, if_pos hl'] at h
      obtain ⟨hb, hr⟩ := Text.append_colon_last_inj (hf revision) (hf revision') h
      exact ⟨hi hb, Nat.repr_injective ((String.append_right_inj "r").mp hr)⟩
    · rw [if_pos hl, if_neg hl'] at h
      have hla := (Text.append_colon_last_inj (hf revision) hs'.1 h).2
      exact absurd (hla ▸ hs'.2) (hn revision)
  · by_cases hl' : 1 < revision'
    · rw [if_neg hl, if_pos hl'] at h
      have hla := (Text.append_colon_last_inj hs.1 (hf revision') h).2
      exact absurd (hla ▸ hs.2) (hn revision')
    · rw [if_neg hl, if_neg hl'] at h
      exact ⟨hi h, by omega⟩

/-- How often an event of a kind was reported for a task. -/
def counter (revisions : SortedMap String ℕ) (kind : ClickupLifecycleEventKind) (taskId : String) : ℕ :=
  (revisions.get (revisionSlot kind taskId)).getD 0

variable (revisions : SortedMap String ℕ)

theorem counter_le_next (kind kind' : ClickupLifecycleEventKind) (taskId taskId' : String) :
    counter revisions kind' taskId' ≤ counter (nextLifecycleRevision revisions kind taskId).2 kind' taskId' := by
  rw [counter, counter, nextLifecycleRevision, SortedMap.get_insert]
  split
  · rename_i hs
    rw [hs]
    exact Nat.le_succ _
  · exact le_rfl

theorem counter_le_lifecycleEvents (ch : List Change) (kind : ClickupLifecycleEventKind) (taskId : String) :
    counter revisions kind taskId ≤ counter (Change.lifecycleEvents revisions ch).2 kind taskId := by
  induction ch generalizing revisions with
  | nil => exact le_rfl
  | cons change ch ih => exact (counter_le_next revisions change.kind kind change.taskId taskId).trans (ih _)

theorem exists_change_of_mem {revisions : SortedMap String ℕ} {ch : List Change}
    {e : ClickupLifecycleEventRecord} (h : e ∈ (Change.lifecycleEvents revisions ch).1) :
    ∃ change ∈ ch, ∃ r, e = change.lifecycleEvent r ∧ counter revisions change.kind change.taskId < r ∧
      r ≤ counter (Change.lifecycleEvents revisions ch).2 change.kind change.taskId := by
  induction ch generalizing revisions with
  | nil => cases h
  | cons f ch ih =>
    rw [Change.lifecycleEvents] at h ⊢
    rcases mem_cons.mp h with rfl | hr
    · refine ⟨f, mem_cons_self, _, rfl, Nat.lt_succ_self _, ?_⟩
      refine le_trans ?_ (counter_le_lifecycleEvents _ ch f.kind f.taskId)
      rw [counter, nextLifecycleRevision, SortedMap.get_insert, if_pos rfl, Option.getD_some]
    · obtain ⟨change, hm, r, he, hlt, hle⟩ := ih hr
      refine ⟨change, mem_cons_of_mem _ hm, r, he, ?_, hle⟩
      exact (counter_le_next revisions f.kind change.kind f.taskId change.taskId).trans_lt hlt

theorem exists_event_of_mem {ch : List Change} {change : Change} (h : change ∈ ch) :
    ∃ revision, change.lifecycleEvent revision ∈ (Change.lifecycleEvents revisions ch).1 ∧
      counter revisions change.kind change.taskId < revision := by
  induction ch generalizing revisions with
  | nil => cases h
  | cons f ch ih =>
    rcases mem_cons.mp h with rfl | hr
    · exact ⟨_, mem_cons_self, Nat.lt_succ_self _⟩
    · obtain ⟨revision, he, hlt⟩ := ih (nextLifecycleRevision revisions f.kind f.taskId).2 hr
      refine ⟨revision, mem_cons_of_mem _ he, ?_⟩
      exact (counter_le_next revisions f.kind change.kind f.taskId change.taskId).trans_lt hlt

/-- The snapshot and the revisions stay, and no tasks but these are seen in addition. -/
structure Keeps (before after : SourceState) (keys : List String) : Prop where
  snapshot : after.clickupTaskSnapshot = before.clickupTaskSnapshot
  revisions : after.clickupLifecycleRevisions = before.clickupLifecycleRevisions
  seen : ∀ key, after.hasSeenTask key → before.hasSeenTask key ∨ key ∈ keys

variable (s : SourceState)

theorem Keeps.refl (keys : List String) : Keeps s s keys := ⟨rfl, rfl, fun _ => .inl⟩

theorem Keeps.trans {s t u : SourceState} (hst : Keeps s t keys) (htu : Keeps t u keys) : Keeps s u keys :=
  ⟨htu.snapshot.trans hst.snapshot, htu.revisions.trans hst.revisions,
    fun key hk => (htu.seen key hk).elim (hst.seen key) .inr⟩

theorem keeps_markTaskSeen {key : String} (hk : key ∈ keys) (sa : ℕ) :
    Keeps s (s.markTaskSeen key sa) keys := by
  refine ⟨rfl, rfl, fun key' h => ?_⟩
  rw [SourceState.hasSeenTask, SourceState.markTaskSeen, SortedMap.contains, SortedMap.get_insert] at h
  split at h
  · rename_i heq
    exact .inr (heq ▸ hk)
  · exact .inl h

theorem keeps_pruneSeenTasks (m : ℕ) (keys : List String) : Keeps s (s.pruneSeenTasks m) keys := by
  rw [SourceState.pruneSeenTasks]
  split
  · exact .refl s keys
  · refine ⟨rfl, rfl, fun key h => .inl ?_⟩
    rw [SourceState.hasSeenTask, SortedMap.contains, SortedMap.get_filter] at h
    split at h
    · exact h
    · cases h

theorem keeps_foldl_markTaskSeen (e : List ClickupLifecycleEventRecord) (sa : ℕ) (s : SourceState)
    (hk : ∀ ev ∈ e, ev.key ∈ keys) :
    Keeps s (e.foldl (fun s ev => s.markTaskSeen ev.key sa) s) keys := by
  induction e generalizing s with
  | nil => exact .refl s keys
  | cons ev e ih =>
    rw [forall_mem_cons] at hk
    exact (keeps_markTaskSeen s hk.1 sa).trans (ih _ hk.2)

/-- The circumstances of a cycle over ClickUp lists. -/
structure ClickupCycle where
  client : ClickUpClient
  load : Option String := none
  sinks : List TaskSink
  seenAt : ℕ := 0
  save : Option String := none

namespace ClickupCycle

variable (source : ClickupTaskSource) (c : ClickupCycle)

def surroundings : Surroundings where
  load := c.load
  poll := source.poll c.client
  sinks := c.sinks
  seenAt := c.seenAt
  save := c.save

/-- The state is loaded and saved, some sink takes ClickUp events, and every sink delivers. -/
structure Delivers (c : ClickupCycle) : Prop where
  load : c.load = none
  save : c.save = none
  accept : ∃ sink ∈ c.sinks, sink.acceptsSource .clickup
  deliver : ∀ sink ∈ c.sinks, ∀ event, sink.deliver event = none

/-- The tasks that are collected, if the poll succeeds. -/
def collected : Option (SortedMap String ClickupTaskRecord) :=
  match c.load with
  | some _ => none
  | none => (collectTasks c.client source.listIds).toOption

end ClickupCycle

/-- The ClickUp events that a cycle has delivered. -/
def CycleOutcome.lifecycleEvents (outcome : CycleOutcome) : List ClickupLifecycleEventRecord :=
  if outcome.delivered.isEmpty then []
  else
    match outcome.result with
    | .error _ => []
    | .ok event =>
        match event.payload with
        | .slack _ => []
        | .clickup lifecycleEvents => lifecycleEvents

section Cycle

variable (d : TaskDaemon) (source : ClickupTaskSource)

def clickupCycle (persisted : Option TaskDaemonState) (c : ClickupCycle) : Option TaskDaemonState × CycleOutcome :=
  d.runOnceImpl persisted (c.surroundings source)

def remembered (persisted : Option TaskDaemonState) : SourceState := (persisted.getD {}).source source.sourceKey

/-- What the poll of a cycle finds, given the tasks it collects. -/
def found (persisted : Option TaskDaemonState) (current : SortedMap String ClickupTaskRecord) : ClickupPollOutcome :=
  pollOutcome (sortedListIds source.listIds) (toolPollState (remembered source persisted)) current

variable {d source} {persisted : Option TaskDaemonState} {c : ClickupCycle}

theorem collected_eq_some :
    c.collected source = some current ↔ c.load = none ∧ collectTasks c.client source.listIds = .ok current := by
  rw [ClickupCycle.collected]
  cases c.load with
  | some e => simp
  | none => cases collectTasks c.client source.listIds <;> simp [Except.toOption]

theorem polled_eq_some (h : c.collected source = some current) : polled persisted (c.surroundings source) =
      some (source.sourcePoll (found source persisted current),
        (persisted.getD {}).setSource source.sourceKey
          (persistToolPollState (remembered source persisted) (found source persisted current).state)) := by
  obtain ⟨hl, hc⟩ := collected_eq_some.mp h
  have hp : pollClickupLists c.client source.listIds (toolPollState ((persisted.getD {}).source source.sourceKey)) =
      .ok (found source persisted current) := pollClickupLists_eq_ok.mpr ⟨current, hc, rfl⟩
  rw [polled]
  simp only [ClickupCycle.surroundings, hl, ClickupTaskSource.poll, hp]
  rfl

theorem polled_eq_none (h : c.collected source = none) : polled persisted (c.surroundings source) = none := by
  rw [ClickupCycle.collected] at h
  rw [polled]
  cases hl : c.load with
  | some e => simp [ClickupCycle.surroundings, hl]
  | none =>
    rw [hl] at h
    simp only [ClickupCycle.surroundings, hl, ClickupTaskSource.poll, pollClickupLists]
    cases hc : collectTasks c.client source.listIds with
    | error e => rfl
    | ok current =>
      rw [hc] at h
      cases h

variable (st : TaskDaemonState)

theorem remembered_saved :
    remembered source (d.saved st) = (st.source source.sourceKey).pruneSeenTasks d.maxSeenTasksPerSource :=
  TaskDaemonState.source_pruned d.maxSeenTasksPerSource st source.sourceKey

variable (s : SourceState) (t : SourceState) (o : ClickupPollOutcome)

theorem source_touch :
    ((st.setSource source.sourceKey s).touch (source.sourcePoll o)).source source.sourceKey = s := by
  show (((st.setSource source.sourceKey s).setSource source.sourceKey _).source source.sourceKey) = s
  rw [TaskDaemonState.source_setSource]
  exact TaskDaemonState.source_setSource st source.sourceKey s

theorem keeps_touch (keys : List String) :
    Keeps s (remembered source (d.saved ((st.setSource source.sourceKey s).touch (source.sourcePoll o)))) keys := by
  rw [remembered_saved, source_touch]
  exact keeps_pruneSeenTasks s d.maxSeenTasksPerSource keys

theorem keeps_markSeen (sa : ℕ) :
    Keeps s
      (remembered source (d.saved (markSeen ((st.setSource source.sourceKey s).touch (source.sourcePoll o))
        ((source.sourcePoll o).unseen t) sa)))
      (o.lifecycleEvents.map (·.key)) := by
  rw [remembered_saved]
  refine Keeps.trans ?_ (keeps_pruneSeenTasks _ d.maxSeenTasksPerSource _)
  show Keeps s ((((st.setSource source.sourceKey s).touch (source.sourcePoll o)).setSource source.sourceKey
    ((o.lifecycleEvents.filter fun e => !t.hasSeenTask e.key).foldl
      (fun s e => s.markTaskSeen e.key sa)
      (((st.setSource source.sourceKey s).touch (source.sourcePoll o)).source source.sourceKey))).source
        source.sourceKey) _
  rw [TaskDaemonState.source_setSource, source_touch]
  exact keeps_foldl_markTaskSeen _ sa s fun e he => mem_map_of_mem (mem_filter.mp he).1

theorem clickupCycle_of_failed (h : c.collected source = none) : (clickupCycle d source persisted c).1 = persisted := by
  obtain ⟨e, he⟩ := @runOnceImpl_of_not_polled d persisted _ (polled_eq_none h)
  exact congrArg Prod.fst he

/-- A cycle changes nothing, or leaves what its poll found, with its events seen at most. -/
theorem clickupCycle_cases (persisted : Option TaskDaemonState) (c : ClickupCycle) :
    (clickupCycle d source persisted c).1 = persisted ∨ ∃ current, c.collected source = some current ∧
        Keeps (persistToolPollState (remembered source persisted) (found source persisted current).state)
          (remembered source (clickupCycle d source persisted c).1)
          ((found source persisted current).lifecycleEvents.map (·.key)) := by
  cases hc : c.collected source with
  | none => exact .inl (clickupCycle_of_failed hc)
  | some current =>
    rw [clickupCycle, runOnceImpl_of_polled (polled_eq_some hc)]
    obtain hs | ht | hse := @publishPoll_fst d persisted (c.surroundings source)
      (source.sourcePoll (found source persisted current)) _
    · exact .inl hs
    · refine .inr ⟨current, rfl, ?_⟩
      rw [ht]
      exact keeps_touch _ _ _ _
    · refine .inr ⟨current, rfl, ?_⟩
      rw [hse]
      exact keeps_markSeen _ _ _ _ _

/-- When the sinks deliver, a poll without events fails and leaves everything as it was; any other
is saved, and its events that were not seen before are delivered. -/
theorem clickupCycle_of_delivers (hd : c.Delivers) {current : SortedMap String ClickupTaskRecord}
    (hc : c.collected source = some current) :
    ((found source persisted current).lifecycleEvents = [] →
      clickupCycle d source persisted c = (persisted, ⟨.error .missingSourceCursor, []⟩)) ∧
    ((found source persisted current).lifecycleEvents ≠ [] →
      Keeps (persistToolPollState (remembered source persisted) (found source persisted current).state)
        (remembered source (clickupCycle d source persisted c).1)
        ((found source persisted current).lifecycleEvents.map (·.key)) ∧
      (clickupCycle d source persisted c).2.lifecycleEvents =
        (found source persisted current).lifecycleEvents.filter
          fun ev => !(remembered source persisted).hasSeenTask ev.key) := by
  rw [clickupCycle, runOnceImpl_of_polled (polled_eq_some hc)]
  generalize found source persisted current = o
  have hs : ((persisted.getD {}).setSource source.sourceKey
      (persistToolPollState (remembered source persisted) o.state)).source
        (source.sourcePoll o).sourceKey =
      persistToolPollState (remembered source persisted) o.state :=
    TaskDaemonState.source_setSource _ source.sourceKey _
  constructor
  · intro hn
    exact publishPoll_of_isEmpty (by simp [ClickupTaskSource.sourcePoll, SourcePoll.isEmpty, hn]) _
  · intro hso
    have hpo : ¬ (source.sourcePoll o).isEmpty := by
      simpa [ClickupTaskSource.sourcePoll, SourcePoll.isEmpty] using hso
    set unseen := o.lifecycleEvents.filter fun ev => !(remembered source persisted).hasSeenTask ev.key
      with hu
    have hp : ((source.sourcePoll o).unseen
        (persistToolPollState (remembered source persisted) o.state)).payload = .clickup unseen := rfl
    by_cases hne : unseen = [] ∧ ¬ d.emitEmptyBatches
    · obtain ⟨ev, heq⟩ := @publishPoll_of_nothing_new d persisted (c.surroundings source)
        (source.sourcePoll o) _ hd.save hpo (by rw [hs, SourcePoll.isEmpty, hp, hne.1]; rfl) hne.2
      rw [heq]
      exact ⟨keeps_touch _ _ _ _, hne.1.symm⟩
    · have he : unseen = [] → d.emitEmptyBatches := by
        intro hni
        by_contra he
        exact hne ⟨hni, he⟩
      obtain ⟨ev, hev, heq | ⟨e, de, hf, -⟩⟩ := @publishPoll_of_something d persisted (c.surroundings source)
        (source.sourcePoll o)
        ((persisted.getD {}).setSource source.sourceKey (persistToolPollState (remembered source persisted) o.state))
        hd.save hd.accept hpo
        (fun hem => he (by rw [hs, SourcePoll.isEmpty, hp] at hem; simpa using hem))
      · rw [heq]
        refine ⟨keeps_markSeen _ _ _ _ _, ?_⟩
        rw [hs, hp] at hev
        have hi : (accepting (c.surroundings source).sinks (source.sourcePoll o).sourceKind).isEmpty = false :=
          isEmpty_eq_false_iff.mpr (accepting_ne_nil hd.accept)
        simp [CycleOutcome.lifecycleEvents, hev, hi]
      · have hn := deliverToSinks_of_delivers hd.deliver ev
        cases hn.symm.trans hf

end Cycle

theorem id_of_get_currentRecords (h : (currentRecords ta).get taskId = some task) : task.id = taskId := by
  induction ta using reverseRecOn with
  | nil => cases h
  | append_singleton ta last ih =>
    have hi : currentRecords (ta ++ [last]) = (currentRecords ta).insert last.id last := by
      simp [currentRecords]
    rw [hi, SortedMap.get_insert] at h
    split at h
    · rename_i hid
      cases h
      exact hid.symm
    · exact ih h

theorem id_of_get_collected {source : ClickupTaskSource} {c : ClickupCycle}
    (hc : c.collected source = some current) (h : current.get taskId = some task) : task.id = taskId := by
  obtain ⟨tasks, -, rfl⟩ := collectTasks_eq_ok (collected_eq_some.mp hc).2
  exact id_of_get_currentRecords h

theorem terminal_mem_changes_iff (hi : ∀ taskId task, current.get taskId = some task → task.id = taskId) :
    .terminal task sn ∈ changes p current ↔ current.get task.id = some task ∧ p.get task.id = some sn ∧
        (ClickupStatus.fromSnapshot sn.status).terminal = false ∧ task.status.terminal := by
  have hch : ∀ task', currentChange p task' = some (.terminal task sn) ↔
      task' = task ∧ p.get task.id = some sn ∧
        (fromSnapshot sn.status).terminal = false ∧ task.status.terminal := by
    intro task'
    rw [currentChange]
    constructor
    · intro h
      split at h
      · cases h
      · rename_i found hf
        dsimp only at h
        split at h
        · rename_i hc
          cases h
          simp only [Bool.and_eq_true, Bool.not_eq_true'] at hc
          exact ⟨rfl, hf, hc.1.1, hc.1.2⟩
        · cases h
    · rintro ⟨rfl, hp, ho, hd⟩
      -- statuses of different classes differ
      have hcha : task'.status.changedFrom (fromSnapshot sn.status) = true := by
        rw [changedFrom, decide_eq_true_eq]
        intro heq
        rw [terminal] at ho hd
        rw [heq, ho] at hd
        cases hd
      rw [hp]
      simp only [ho, hd, hcha]
      rfl
  rw [changes, mem_append, mem_filterMap]
  constructor
  · rintro (⟨⟨taskId, task'⟩, he, heq⟩ | hre)
    · obtain ⟨rfl, hr⟩ := (hch task').mp heq
      have hg := SortedMap.mem_entries.mp he
      rw [← hi taskId task' hg] at hg
      exact ⟨hg, hr⟩
    · obtain ⟨entry, -, heq⟩ := mem_filterMap.mp hre
      rw [removedChange] at heq
      split at heq <;> cases heq
  · rintro ⟨hg, hr⟩
    exact .inl ⟨(task.id, task), SortedMap.mem_entries.mpr hg, (hch task).mpr ⟨rfl, hr⟩⟩

def ColonFree (current : SortedMap String ClickupTaskRecord) : Prop :=
  ∀ entry ∈ current.entries, entry.2.status.terminal → ':' ∉ entry.2.status.slug.toList

instance (current : SortedMap String ClickupTaskRecord) : Decidable (ColonFree current) :=
  inferInstanceAs (Decidable (∀ entry ∈ current.entries, entry.2.status.terminal → ':' ∉ entry.2.status.slug.toList))

theorem ColonFree.statusSlug (h : ColonFree current) (ht : current.get taskId = some task)
    (hd : task.status.terminal) : StatusSlug task.status.slug :=
  ⟨h (taskId, task) (SortedMap.mem_entries.mpr ht) hd, e_mem_slug hd⟩

/-- The key of a terminal event with a revision that is not yet used has not been seen. -/
def Fresh (s : SourceState) : Prop :=
  ∀ taskId slug revision, StatusSlug slug → counter s.clickupLifecycleRevisions .terminal taskId < revision →
    ¬ s.hasSeenTask (asTaskKey .terminal taskId (some slug) revision)

theorem fresh_of_keeps {l : List String} {b after : SourceState}
    (hi : ∀ taskId task, current.get taskId = some task → task.id = taskId) (hc : ColonFree current)
    (hf : Fresh b)
    (hk : Keeps (persistToolPollState b (pollOutcome l (toolPollState b) current).state) after
      ((pollOutcome l (toolPollState b) current).lifecycleEvents.map (·.key))) : Fresh after := by
  intro taskId slug revision hs hlt hse
  have hr : after.clickupLifecycleRevisions = (Change.lifecycleEvents b.clickupLifecycleRevisions
      (changes b.clickupTaskSnapshot current)).2 := hk.revisions
  rw [hr] at hlt
  rcases hk.seen _ hse with hb | hn
  · refine hf taskId slug revision hs ?_ hb
    exact (counter_le_lifecycleEvents b.clickupLifecycleRevisions _ .terminal taskId).trans_lt hlt
  · obtain ⟨event, he, hke⟩ := mem_map.mp hn
    obtain ⟨change, hch, revision', rfl, hp, hle⟩ := exists_change_of_mem he
    cases change with
    | created task | removed id p => cases kind_eq_of_key_eq hke
    | terminal task p =>
      obtain ⟨hg, -, -, hd⟩ := (terminal_mem_changes_iff hi).mp hch
      obtain ⟨rfl, rfl⟩ :=
        asTaskKey_terminal_inj (hc.statusSlug hg hd) hs (Nat.zero_lt_of_lt hp) (Nat.zero_lt_of_lt hlt) hke
      exact absurd hle (Nat.not_le.mpr hlt)

section Run

variable {d : TaskDaemon} {source : ClickupTaskSource}

theorem fresh_exec {st : Option TaskDaemonState} (hf : Fresh (remembered source st)) {cy : List ClickupCycle}
    (hc : ∀ c ∈ cy, ∀ current, c.collected source = some current → ColonFree current) :
    Fresh (remembered source (Run.exec (clickupCycle d source) st cy)) := by
  induction cy generalizing st with
  | nil => exact hf
  | cons c cy ih =>
    rw [forall_mem_cons] at hc
    refine ih ?_ hc.2
    rcases clickupCycle_cases (d := d) st c with hs | ⟨current, hcu, hk⟩
    · rwa [hs]
    · exact fresh_of_keeps (fun _ _ => id_of_get_collected hcu) (hc.1 current hcu) hf hk

variable {persisted : Option TaskDaemonState}

theorem exec_of_failed (hf : ∀ c ∈ f, c.collected source = none) :
    Run.exec (clickupCycle d source) persisted f = persisted := by
  induction f with
  | nil => rfl
  | cons c f ih =>
    rw [forall_mem_cons] at hf
    rw [Run.exec_cons, clickupCycle_of_failed hf.1, ih hf.2]

/-- The last snapshot shows the task with a status that is not terminal. -/
def RememberedOpen (s : SourceState) (taskId : String) : Prop :=
  ∃ snapshot, s.clickupTaskSnapshot.get taskId = some snapshot ∧
    (ClickupStatus.fromSnapshot snapshot.status).terminal = false

/-- The cycle delivers a terminal event for the task as it is now. -/
def DeliversTerminal (outcome : CycleOutcome) (task : ClickupTaskRecord) : Prop :=
  ∃ event ∈ outcome.lifecycleEvents, event.event = .terminal ∧ event.taskId = task.id ∧
    event.snapshot = clickupTaskSnapshotValue task

theorem deliversTerminal_iff {c : ClickupCycle} (hde : c.Delivers)
    {current : SortedMap String ClickupTaskRecord} (hcu : c.collected source = some current)
    (hco : ColonFree current) (hf : Fresh (remembered source persisted)) {task : ClickupTaskRecord}
    (ht : current.get task.id = some task) (hd : task.status.terminal) :
    DeliversTerminal (clickupCycle d source persisted c).2 task ↔
      RememberedOpen (remembered source persisted) task.id := by
  have hi : ∀ taskId task, current.get taskId = some task → task.id = taskId := fun _ _ => id_of_get_collected hcu
  obtain ⟨hn, hs⟩ := @clickupCycle_of_delivers d source persisted c hde current hcu
  constructor
  · rintro ⟨event, hm, hk, hid, -⟩
    by_cases he : (found source persisted current).lifecycleEvents = []
    · rw [hn he] at hm
      cases hm
    · rw [(hs he).2] at hm
      obtain ⟨change, hc, r, rfl, -⟩ := exists_change_of_mem (mem_filter.mp hm).1
      cases change with
      | created task' | removed id p => cases hk
      | terminal task' p =>
        obtain ⟨-, hp, ho, -⟩ := (terminal_mem_changes_iff hi).mp hc
        rw [show task'.id = task.id from hid] at hp
        exact ⟨p, hp, ho⟩
  · rintro ⟨sn, hsn, ho⟩
    have hc : .terminal task sn ∈ changes (remembered source persisted).clickupTaskSnapshot current :=
      (terminal_mem_changes_iff hi).mpr ⟨ht, hsn, ho, hd⟩
    obtain ⟨r, hev, hlt⟩ :=
      exists_event_of_mem (remembered source persisted).clickupLifecycleRevisions hc
    have he : (found source persisted current).lifecycleEvents ≠ [] := ne_nil_of_mem hev
    refine ⟨(Change.terminal task sn).lifecycleEvent r, ?_, rfl, rfl, rfl⟩
    have hu := hf task.id task.status.slug r (hco.statusSlug ht hd) hlt
    have hke : (remembered source persisted).hasSeenTask
        ((Change.terminal task sn).lifecycleEvent r).key = false := Bool.eq_false_iff.mpr hu
    rw [(hs he).2]
    exact mem_filter.mpr ⟨hev, by rw [hke]; rfl⟩

/-- A task has a status that is not terminal in one successful poll and a terminal one in the next.
This is reported exactly if the first of them found something to report, or the snapshot from before
it shows the task as not terminal, too. -/
theorem terminal_event_delivered_iff {start : Option TaskDaemonState} (hstart : remembered source start = {})
    {pre failed : List ClickupCycle} {c₁ c₂ : ClickupCycle}
    (hcolon : ∀ c ∈ pre ++ c₁ :: failed ++ [c₂], ∀ current, c.collected source = some current → ColonFree current)
    (hd₁ : c₁.Delivers) (hd₂ : c₂.Delivers) (hfailed : ∀ c ∈ failed, c.collected source = none)
    {current₁ current₂ : SortedMap String ClickupTaskRecord} (hcu₁ : c₁.collected source = some current₁)
    (hcu₂ : c₂.collected source = some current₂) {taskId : String} {task₁ task₂ : ClickupTaskRecord}
    (ht₁ : current₁.get taskId = some task₁) (ht₂ : current₂.get taskId = some task₂)
    (hopen : task₁.status.terminal = false) (hdone : task₂.status.terminal) :
    DeliversTerminal
        (clickupCycle d source (Run.exec (clickupCycle d source) start (pre ++ c₁ :: failed)) c₂).2 task₂ ↔
      (found source (Run.exec (clickupCycle d source) start pre) current₁).lifecycleEvents ≠ [] ∨
        RememberedOpen (remembered source (Run.exec (clickupCycle d source) start pre)) taskId := by
  have hf : Fresh (remembered source (Run.exec (clickupCycle d source) start (pre ++ c₁ :: failed))) := by
    refine fresh_exec ?_ fun c hc => hcolon c (mem_append_left _ hc)
    rw [hstart]
    exact fun _ _ _ _ _ h => (by cases h)
  obtain rfl := id_of_get_collected hcu₂ ht₂
  rw [deliversTerminal_iff hd₂ hcu₂ (hcolon c₂ (by simp) current₂ hcu₂) hf ht₂ hdone,
    Run.exec_append, Run.exec_cons, exec_of_failed hfailed]
  obtain ⟨hn, hs⟩ :=
    @clickupCycle_of_delivers d source (Run.exec (clickupCycle d source) start pre) c₁ hd₁ current₁ hcu₁
  by_cases he : (found source (Run.exec (clickupCycle d source) start pre) current₁).lifecycleEvents = []
  · rw [hn he]
    simp [he]
  · -- the snapshot of the first poll is persisted
    have hsn := (hs he).1.snapshot
    have hrow : (remembered source
        (clickupCycle d source (Run.exec (clickupCycle d source) start pre) c₁).1).clickupTaskSnapshot.get
        task₂.id = some task₁.taskSnapshot := by
      rw [hsn]
      show (current₁.map ClickupTaskRecord.taskSnapshot).get task₂.id = _
      rw [SortedMap.get_map, ht₁, Option.map_some]
    refine ⟨fun _ => .inl he, fun _ => ⟨task₁.taskSnapshot, hrow, ?_⟩⟩
    rw [ClickupTaskRecord.taskSnapshot, fromSnapshot_original]
    exact hopen

end Run

/-- A cycle over a list with one task in this status. -/
def taskInStatus (status : String) : ClickupCycle where
  client := onePage (.object [("id", .string "a"), ("status", .object [("status", .string status)])])
  sinks := [⟨"stdout", fun _ => true, fun _ => none⟩]

def taskRecord (status : String) : ClickupTaskRecord := .fromRaw ⟨"a", none, some status, none, none, none⟩ "L1"

def oneList : ClickupTaskSource := ⟨["L1"], by decide +kernel⟩

/-- A task that was found in one poll is done in the next. -/
theorem terminal_event_delivered_after_creation :
    DeliversTerminal (clickupCycle ⟨false, 500⟩ oneList
      (Run.exec (clickupCycle ⟨false, 500⟩ oneList) none [taskInStatus "open"]) (taskInStatus "done")).2
      (taskRecord "done") := by
  have ho : (taskInStatus "open").collected oneList = some (currentRecords [taskRecord "open"]) := by decide +kernel
  have hd : (taskInStatus "done").collected oneList = some (currentRecords [taskRecord "done"]) := by decide +kernel
  have hde : ∀ st, (taskInStatus st).Delivers := fun st =>
    ⟨rfl, rfl, ⟨_, mem_singleton_self _, rfl⟩, fun sink hs event => by cases mem_singleton.mp hs; rfl⟩
  refine (@terminal_event_delivered_iff ⟨false, 500⟩ oneList none rfl [] [] (taskInStatus "open")
    (taskInStatus "done") ?_
    (hde "open") (hde "done") nofun _ _ ho hd "a" (taskRecord "open") (taskRecord "done")
    (by decide +kernel) (by decide +kernel) (by decide +kernel) (by decide +kernel)).mpr (.inl (by decide +kernel))
  intro c hc current hcu
  rcases mem_cons.mp hc with rfl | hc
  · cases ho.symm.trans hcu
    decide +kernel
  · cases mem_singleton.mp hc
    cases hd.symm.trans hcu
    decide +kernel

/-- A task is done, reopened and done again. The poll that finds it open has nothing to report and
its snapshot is lost, so the second time is not reported. -/
theorem reopened_task_is_not_reported :
    (taskInStatus "open").collected oneList = some (currentRecords [taskRecord "open"]) ∧
      (taskInStatus "done").collected oneList = some (currentRecords [taskRecord "done"]) ∧
      (taskRecord "open").status.terminal = false ∧ (taskRecord "done").status.terminal = true ∧
      ¬ DeliversTerminal (clickupCycle ⟨false, 500⟩ oneList
        (Run.exec (clickupCycle ⟨false, 500⟩ oneList) none [taskInStatus "done", taskInStatus "open"])
          (taskInStatus "done")).2 (taskRecord "done") := by
  have ho : (clickupCycle ⟨false, 500⟩ oneList
      (Run.exec (clickupCycle ⟨false, 500⟩ oneList) none [taskInStatus "done", taskInStatus "open"])
        (taskInStatus "done")).2 = ⟨.error .missingSourceCursor, []⟩ := by
    decide +kernel
  refine ⟨by decide +kernel, by decide +kernel, by decide +kernel, by decide +kernel, ?_⟩
  rw [ho]
  rintro ⟨event, h, -⟩
  cases h

end AgentiumOs.Daemon
