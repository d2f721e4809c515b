import AgentiumOs.Daemon.State
import AgentiumOs.Lib.Fallible
import AgentiumOs.Lib.StableSort

/-! Polling the tasks of ClickUp lists and comparing them with those of the last poll. A task counts
as removed when the poll did not collect it: because it is gone, because its entry was skipped as
malformed, or because the pages with it were not fetched. -/

namespace AgentiumOs.Daemon

open List Lib
open Lib.Json (Value)

def maxClickupListTaskPages : ℕ := 50

/-- A status by its text, which is neither empty nor surrounded by white space; the normalized text
and the class follow from it. -/
structure ClickupStatus where
  original : String
  trimmed : Text.trim original = original
  nonempty : original ≠ ""
  deriving DecidableEq

namespace ClickupStatus

def normalize (raw : String) : String :=
  Text.toAsciiLowercase (" ".intercalate (Text.splitWhitespace raw.toList))

def classifyNormalizedStatus (status : String) : Bool :=
  ["cancel", "closed", "complete", "done", "resolved"].any (Text.contains status)

def fromOptional (raw : Option String) : ClickupStatus :=
  match raw with
  | none => ⟨"unknown", by decide, by decide⟩
  | some raw =>
      if h : Text.trim raw = "" then ⟨"unknown", by decide, by decide⟩ else ⟨Text.trim raw, Text.trim_trim raw, h⟩

def fromSnapshot (raw : String) : ClickupStatus := fromOptional (some raw)

variable (status : ClickupStatus)

def normalized : String := normalize status.original

def terminal : Bool := classifyNormalizedStatus status.normalized

def changedFrom (previous : ClickupStatus) : Bool := status.normalized ≠ previous.normalized

def slug : String := Text.replaceChar ' ' "-" status.normalized

theorem fromSnapshot_original : fromSnapshot status.original = status := by
  obtain ⟨o, ht, hne⟩ := status
  simp [fromSnapshot, fromOptional, ht, dif_neg hne]

end ClickupStatus

inductive ClickupPriority where
  | urgent
  | high
  | normal
  | low
  | unknown
  deriving DecidableEq

def ClickupPriority.fromOptional (raw : Option String) : ClickupPriority :=
  let normalized := Text.replaceChar ' ' "" ((raw.map ClickupStatus.normalize).getD "")
  if normalized = "1" ∨ normalized = "urgent" then .urgent
  else if normalized = "2" ∨ normalized = "high" then .high
  else if normalized = "4" ∨ normalized = "low" then .low
  else if normalized = "3" ∨ normalized = "normal" then .normal
  else .unknown

def taskPriorityWire : ClickupPriority → String
  | .urgent => "urgent"
  | .high => "high"
  | .normal => "normal"
  | .low => "low"
  | .unknown => "unknown"

namespace ClickupLifecycleEventKind

def keyLead : ClickupLifecycleEventKind → String
  | created => "clickup-created"
  | terminal => "clickup-terminal"
  | removed => "clickup-removed"

def revisionCounterLead : ClickupLifecycleEventKind → String
  | created => "created"
  | terminal => "terminal"
  | removed => "removed"

end ClickupLifecycleEventKind

section

variable (revisions : SortedMap String ℕ) (kind : ClickupLifecycleEventKind) (taskId : String)

/-- The key of an event; only a terminal one has a status. -/
def asTaskKey (terminalStatusSlug : Option String) (revision : ℕ) : String :=
  let base :=
    match kind with
    | .created | .removed => kind.keyLead ++ ":" ++ taskId
    | .terminal => kind.keyLead ++ ":" ++ taskId ++ ":" ++ terminalStatusSlug.getD "unknown"
  if 1 < revision then base ++ ":r" ++ toString revision else base

def revisionSlot : String :=
  kind.revisionCounterLead ++ ":" ++ taskId

def nextLifecycleRevision : ℕ × SortedMap String ℕ :=
  let next := (revisions.get (revisionSlot kind taskId)).getD 0 + 1
  (next, revisions.insert (revisionSlot kind taskId) next)

end

/-- The members of a record, which may also be listed in the order of its fields. -/
def structFields (names : List String) : Value → Option (List (String × Value))
  | .object members => some members
  | .array items => if items.length ≤ names.length then some (names.zip items) else none
  | _ => none

def optionalText : Option Value → Option (Option String)
  | none | some .null => some none
  | some (.string s) => some (some s)
  | some _ => none

structure RawTask where
  id : String
  name : Option String
  status : Option String
  description : Option String
  url : Option String
  priority : Option String

def rawTaskFields : List String := ["id", "name", "status", "description", "url", "priority"]

def entryId (entry : Value) : Option String := do
  let fields ← structFields rawTaskFields entry
  (← fields.lookup "id").asStr

/-- The status is a record with a text, or absent. -/
def rawTaskStatus : Option Value → Option (Option String)
  | none | some .null => some none
  | some v => do
      let fields ← structFields ["status"] v
      let status ← (← fields.lookup "status").asStr
      pure (some status)

def rawTaskPriority : Option Value → Option (Option String)
  | none | some .null => some none
  | some v => do
      let fields ← structFields ["priority"] v
      optionalText (fields.lookup "priority")

/-- An entry that is not of this form is skipped. -/
def RawTask.ofValue (entry : Value) : Option RawTask := do
  let id ← entryId entry
  let fields ← structFields rawTaskFields entry
  let name ← optionalText (fields.lookup "name")
  let status ← rawTaskStatus (fields.lookup "status")
  let description ← optionalText (fields.lookup "description")
  let url ← optionalText (fields.lookup "url")
  let priority ← rawTaskPriority (fields.lookup "priority")
  pure ⟨id, name, status, description, url, priority⟩

structure RawTaskList where
  tasks : List Value
  lastPage : Option Bool

def RawTaskList.ofValue (v : Value) : Option RawTaskList := do
  let fields ← structFields ["tasks", "last_page"] v
  let tasks ←
    match fields.lookup "tasks" with
    | none => some []
    | some (.array tasks) => some tasks
    | some _ => none
  let lastPage ←
    match fields.lookup "last_page" with
    | none | some .null => some none
    | some (.bool b) => some (some b)
    | some _ => none
  pure ⟨tasks, lastPage⟩

structure ClickupTaskRecord where
  id : String
  listId : String
  name : String
  status : ClickupStatus
  description : Option String
  url : Option String
  priority : ClickupPriority
  deriving DecidableEq

/-- A text without the white space around it, if there is any left. -/
def nonBlank (s : Option String) : Option String := (s.map Text.trim).filter (· ≠ "")

def ClickupTaskRecord.fromRaw (raw : RawTask) (listId : String) : ClickupTaskRecord where
  id := raw.id
  listId
  name := (nonBlank raw.name).getD ("ClickUp task " ++ raw.id)
  status := .fromOptional raw.status
  description := nonBlank raw.description
  url := nonBlank raw.url
  priority := .fromOptional raw.priority

/-- What the service answers: the key, and each page of each list. -/
structure ClickUpClient where
  apiKey : Except String String
  page : String → ℕ → Except String Value

namespace ClickUpClient

variable (client : ClickUpClient)

def rawPage (listId : String) (page : ℕ) : Except String RawTaskList :=
  match client.page listId page with
  | .error _ => .error ("fetching ClickUp list tasks for list " ++ listId ++ " page " ++ toString page)
  | .ok json =>
      match RawTaskList.ofValue json with
      | none => .error ("parsing ClickUp list response for list " ++ listId ++ " page " ++ toString page)
      | some raw => .ok raw

/-- The pages from `page` on, at most `left`. A page that repeats the one before is dropped and ends
the list, as do a last and an empty page. -/
def fetchPages (listId : String) (previous : Option (List Value)) (page : ℕ) :
    (left : ℕ) → Except String (List RawTaskList)
  | 0 => pure []
  | left + 1 => do
      let raw ← client.rawPage listId page
      if previous = some raw.tasks then pure []
      else if raw.lastPage.getD false || raw.tasks.isEmpty then pure [raw]
      else
        let rest ← fetchPages listId (some raw.tasks) (page + 1) left
        pure (raw :: rest)

def listPages (listId : String) : Except String (List RawTaskList) :=
  client.fetchPages listId none 0 maxClickupListTaskPages

end ClickUpClient

def pageTasks (listId : String) (page : RawTaskList) : List ClickupTaskRecord :=
  page.tasks.filterMap fun entry => (RawTask.ofValue entry).map fun raw => .fromRaw raw listId

variable (client : ClickUpClient) (listIds : List String) (previous : ClickupPollState)

def fetchListTasks (listId : String) : Except String (List ClickupTaskRecord) := do
  let pages ← client.listPages listId
  pure (pages.flatMap (pageTasks listId))

/-! ### Changes since the last poll -/

/-- A member that is left out if its text is absent or empty. -/
def textMember (key : String) (text : Option String) : List (String × Value) :=
  match text.filter (· ≠ "") with
  | none => []
  | some s => [(key, .string s)]

def clickupTaskSnapshotValue (task : ClickupTaskRecord) : Value :=
  .object ([("id", .string task.id), ("list_id", .string task.listId), ("name", .string task.name),
      ("status", .string task.status.original)] ++ textMember "description" task.description ++
    textMember "url" task.url ++ textMember "priority" (some (taskPriorityWire task.priority)))

def clickupPreviousSnapshotValue (previous : ClickupTaskSnapshot) : Value :=
  .object ([("list_id", .string previous.listId), ("name", .string previous.name),
    ("status", .string previous.status)] ++
    textMember "url" previous.url)

inductive Change where
  | created (task : ClickupTaskRecord)
  | terminal (task : ClickupTaskRecord) (previous : ClickupTaskSnapshot)
  | removed (taskId : String) (previous : ClickupTaskSnapshot)

namespace Change

def kind : Change → ClickupLifecycleEventKind
  | created _ => .created
  | terminal .. => .terminal
  | removed .. => .removed

def taskId : Change → String
  | created task | terminal task _ => task.id
  | removed taskId _ => taskId

/-- `created_lifecycle_event`, `terminal_lifecycle_event` and `removed_lifecycle_event`. -/
def lifecycleEvent (revision : ℕ) : Change → ClickupLifecycleEventRecord
  | created task =>
      { key := asTaskKey .created task.id none revision
        event := .created
        taskId := task.id
        listId := task.listId
        revision
        snapshot := clickupTaskSnapshotValue task
        previousSnapshot := none }
  | terminal task previous =>
      { key := asTaskKey .terminal task.id (some task.status.slug) revision
        event := .terminal
        taskId := task.id
        listId := task.listId
        revision
        snapshot := clickupTaskSnapshotValue task
        previousSnapshot := some (clickupPreviousSnapshotValue previous) }
  | removed taskId previous =>
      { key := asTaskKey .removed taskId none revision
        event := .removed
        taskId
        listId := previous.listId
        revision
        snapshot := clickupPreviousSnapshotValue previous
        previousSnapshot := none }

/-- The events of the changes, each with the next revision of its kind and task. -/
def lifecycleEvents (revisions : SortedMap String ℕ) :
    List Change → List ClickupLifecycleEventRecord × SortedMap String ℕ
  | [] => ([], revisions)
  | change :: changes =>
      let (revision, revisions) := nextLifecycleRevision revisions change.kind change.taskId
      let (events, revisions) := lifecycleEvents revisions changes
      (change.lifecycleEvent revision :: events, revisions)

end Change

section

variable (previous : SortedMap String ClickupTaskSnapshot)

/-- How a task that is there differs from the last poll. -/
def currentChange (task : ClickupTaskRecord) : Option Change :=
  match previous.get task.id with
  | none => some (.created task)
  | some snapshot =>
      let previousStatus := ClickupStatus.fromSnapshot snapshot.status
      if !previousStatus.terminal && task.status.terminal && task.status.changedFrom previousStatus then
        some (.terminal task snapshot)
      else none

variable (current : SortedMap String ClickupTaskRecord)

def removedChange (entry : String × ClickupTaskSnapshot) : Option Change :=
  if current.contains entry.1 then none else some (.removed entry.1 entry.2)

/-- First those of the tasks that are there, in the order of their ids, then those of the others. -/
def changes : List Change :=
  current.entries.filterMap (fun entry => currentChange previous entry.2) ++
    previous.entries.filterMap (removedChange current)

end

def ClickupTaskRecord.taskSnapshot (task : ClickupTaskRecord) : ClickupTaskSnapshot :=
  ⟨task.listId, task.name, task.status.original, task.url⟩

structure ClickupPollState where
  taskSnapshot : SortedMap String ClickupTaskSnapshot := .empty
  lifecycleRevisions : SortedMap String ℕ := .empty
  deriving DecidableEq

structure ClickupPollOutcome where
  sourceKey : String
  sourceLabel : String
  lifecycleEvents : List ClickupLifecycleEventRecord
  itemsScanned : ℕ
  state : ClickupPollState
  deriving DecidableEq

def parsedListIds : List String := listIds.filterMap fun raw => nonBlank (some raw)

def sortedListIds : List String :=
  ((parsedListIds listIds).insertionSort (· ≤ ·)).destutter (· ≠ ·)

def normalizedListIds : Except String (List String) :=
  if sortedListIds listIds = [] then .error "clickup source requires at least one list id"
  else .ok (sortedListIds listIds)

def clickupSourceKey : String := "clickup:" ++ ",".intercalate (sortedListIds listIds)

def clickupSourceLabel : String :=
  match parsedListIds listIds with
  | [listId] => "clickup:list:" ++ listId
  | listIds => "clickup:lists:" ++ ",".intercalate listIds

/-- The tasks by their ids; of a task that was collected several times, the last. -/
def currentRecords (tasks : List ClickupTaskRecord) : SortedMap String ClickupTaskRecord :=
  tasks.foldl (fun current task => current.insert task.id task) .empty

/-- The outcome of a poll for the tasks that it has collected. -/
def pollOutcome (current : SortedMap String ClickupTaskRecord) : ClickupPollOutcome :=
  let (lifecycleEvents, lifecycleRevisions) :=
    Change.lifecycleEvents previous.lifecycleRevisions (changes previous.taskSnapshot current)
  { sourceKey := clickupSourceKey listIds
    sourceLabel := clickupSourceLabel listIds
    lifecycleEvents
    itemsScanned := current.entries.length
    state := ⟨current.map ClickupTaskRecord.taskSnapshot, lifecycleRevisions⟩ }

def collectTasks : Except String (SortedMap String ClickupTaskRecord) := do
  let listIds ← normalizedListIds listIds
  let _ ← client.apiKey.mapError fun _ => "resolve CLICKUP_API_KEY for ClickUp poll"
  let tasks ← listIds.mapM (fetchListTasks client)
  pure (currentRecords tasks.flatten)

def pollClickupLists :
    Except String ClickupPollOutcome := do
  let current ← collectTasks client listIds
  pure (pollOutcome (sortedListIds listIds) previous current)

/-! ### Which tasks are collected -/

/-- A page to which the polling of a list comes and whose tasks it takes. -/
def Reached (client : ClickUpClient) (listId : String) : ℕ → Prop
  | 0 => True
  | page + 1 =>
      page + 1 < maxClickupListTaskPages ∧ Reached client listId page ∧
        ∃ raw next, client.rawPage listId page = .ok raw ∧ client.rawPage listId (page + 1) = .ok next ∧
          raw.lastPage.getD false = false ∧ raw.tasks ≠ [] ∧ next.tasks ≠ raw.tasks

/-- The task stands on some page of a monitored list. -/
def Listed (taskId : String) : Prop :=
  ∃ listId ∈ parsedListIds listIds, ∃ page raw, client.rawPage listId page = .ok raw ∧
    ∃ entry ∈ raw.tasks, entryId entry = some taskId

/-- The task has an entry of the expected form on a page that is reached. -/
def Collected (taskId : String) : Prop :=
  ∃ listId ∈ parsedListIds listIds, ∃ page raw, Reached client listId page ∧ client.rawPage listId page = .ok raw ∧
    ∃ entry ∈ raw.tasks, ∃ task, RawTask.ofValue entry = some task ∧ task.id = taskId

section

variable {client : ClickUpClient} {listId : String} {page : ℕ}

theorem Reached.lt (h : Reached client listId page) : page < maxClickupListTaskPages := by
  cases page with
  | zero => decide
  | succ page => exact h.1

theorem Reached.of_le (hle : page ≤ l) (h : Reached client listId l) : Reached client listId page := by
  induction l with
  | zero => rwa [Nat.le_zero.mp hle]
  | succ l ih =>
    rcases Nat.le_succ_iff.mp hle with hle | rfl
    · exact ih hle h.2.1
    · exact h

/-- What is known when a page is asked for: the one before was taken and is not the last. -/
def Prior (client : ClickUpClient) (listId : String) (previous : Option (List Value)) : ℕ → Prop
  | 0 => previous = none
  | page + 1 =>
      Reached client listId page ∧ ∃ raw, client.rawPage listId page = .ok raw ∧ previous = some raw.tasks ∧
        raw.lastPage.getD false = false ∧ raw.tasks ≠ []

variable {pr : Option (List Value)} {pa : List RawTaskList} {raw : RawTaskList}

theorem reached_iff_of_prior (hp : Prior client listId pr page)
    (hlt : page < maxClickupListTaskPages) (hra : client.rawPage listId page = .ok raw) :
    Reached client listId page ↔ pr ≠ some raw.tasks := by
  cases page with
  | zero =>
    obtain rfl : pr = none := hp
    simp [Reached]
  | succ page =>
    obtain ⟨hr, before, hb, rfl, hl, hne⟩ := hp
    constructor
    · rintro ⟨-, -, before', raw', hb', hra', -, -, hd⟩ heq
      cases hb.symm.trans hb'
      cases hra.symm.trans hra'
      exact hd (Option.some.inj heq).symm
    · intro hd
      exact ⟨hlt, hr, before, raw, hb, hra, hl, hne, fun heq => hd (congrArg some heq.symm)⟩

theorem not_reached_succ (hr : client.rawPage listId page = .ok raw)
    (he : (raw.lastPage.getD false || raw.tasks.isEmpty) = true) : ¬ Reached client listId (page + 1) := by
  rintro ⟨-, -, raw', next, hr', -, hl, hne, -⟩
  cases hr.symm.trans hr'
  rw [hl, Bool.false_or, List.isEmpty_iff] at he
  exact hne he

theorem mem_fetchPages (hl : page + left = maxClickupListTaskPages) (hpr : Prior client listId pr page)
    (hpa : client.fetchPages listId pr page left = .ok pa) (raw : RawTaskList) :
    raw ∈ pa ↔ ∃ p, page ≤ p ∧ Reached client listId p ∧ client.rawPage listId p = .ok raw := by
  induction left generalizing pr page pa with
  | zero =>
    cases hpa
    simp only [not_mem_nil, false_iff, not_exists, not_and]
    intro p hle hr
    exact absurd hr.lt (by omega)
  | succ left ih =>
    rw [ClickUpClient.fetchPages] at hpa
    cases hf : client.rawPage listId page with
    | error e =>
      rw [hf] at hpa
      cases hpa
    | ok first =>
      rw [hf] at hpa
      have hr := reached_iff_of_prior hpr (by omega) hf
      change (if pr = some first.tasks then pure []
        else if (first.lastPage.getD false || first.tasks.isEmpty) = true then pure [first]
        else do
          let r ← client.fetchPages listId (some first.tasks) (page + 1) left
          pure (first :: r)) = Except.ok pa at hpa
      -- the page itself, and those after it
      have hs : (∃ p, page ≤ p ∧ Reached client listId p ∧ client.rawPage listId p = .ok raw) ↔
          (Reached client listId page ∧ raw = first) ∨
            ∃ p, page + 1 ≤ p ∧ Reached client listId p ∧ client.rawPage listId p = .ok raw := by
        constructor
        · rintro ⟨p, hle, hp, hra⟩
          rcases Nat.eq_or_lt_of_le hle with rfl | hlt
          · exact .inl ⟨hp, Except.ok.inj (hra.symm.trans hf)⟩
          · exact .inr ⟨p, hlt, hp, hra⟩
        · rintro (⟨hp, rfl⟩ | ⟨p, hlt, hp, hra⟩)
          · exact ⟨page, le_rfl, hp, hf⟩
          · exact ⟨p, Nat.le_of_succ_le hlt, hp, hra⟩
      rw [hs]
      split at hpa
      · rename_i hrp
        cases hpa
        have hno : ¬ Reached client listId page := fun h => hr.mp h hrp
        simp only [not_mem_nil, hno, false_and, false_or, false_iff, not_exists, not_and]
        exact fun p hle hp => absurd (hp.of_le (Nat.le_of_succ_le hle)) hno
      · rename_i hd
        have hpg := hr.mpr hd
        split at hpa
        · rename_i he
          cases hpa
          have hn : ¬ ∃ p, page + 1 ≤ p ∧ Reached client listId p ∧ client.rawPage listId p = .ok raw :=
            fun ⟨p, hle, hp, _⟩ => not_reached_succ hf he (hp.of_le hle)
          simp only [mem_singleton, hpg, hn, true_and, or_false]
        · rename_i hm
          rw [Bool.not_eq_true, Bool.or_eq_false_iff, isEmpty_eq_false_iff] at hm
          have hne : Prior client listId (some first.tasks) (page + 1) :=
            ⟨hpg, first, hf, rfl, hm.1, hm.2⟩
          cases hre : client.fetchPages listId (some first.tasks) (page + 1) left with
          | error e =>
            rw [hre] at hpa
            cases hpa
          | ok r =>
            rw [hre] at hpa
            cases hpa
            rw [mem_cons, ih (by omega) hne hre]
            simp [hpg]

theorem mem_listPages (hp : client.listPages listId = .ok pa) (raw : RawTaskList) :
    raw ∈ pa ↔ ∃ page, Reached client listId page ∧ client.rawPage listId page = .ok raw := by
  rw [mem_fetchPages (Nat.zero_add _) rfl hp]
  simp

theorem mem_fetchListTasks (ht : fetchListTasks client listId = .ok t) (taskId : String) :
    (∃ ta ∈ t, ta.id = taskId) ↔ ∃ page raw, Reached client listId page ∧ client.rawPage listId page = .ok raw ∧
        ∃ entry ∈ raw.tasks, ∃ ta, RawTask.ofValue entry = some ta ∧ ta.id = taskId := by
  rw [fetchListTasks] at ht
  cases hp : client.listPages listId with
  | error e =>
    rw [hp] at ht
    cases ht
  | ok pa =>
    rw [hp] at ht
    cases ht
    constructor
    · rintro ⟨ta, hm, rfl⟩
      obtain ⟨raw, hra, hta⟩ := mem_flatMap.mp hm
      obtain ⟨entry, he, hpr⟩ := mem_filterMap.mp hta
      obtain ⟨r, hr, rfl⟩ := Option.map_eq_some_iff.mp hpr
      obtain ⟨page, hre, hpa⟩ := (mem_listPages hp raw).mp hra
      exact ⟨page, raw, hre, hpa, entry, he, r, hr, rfl⟩
    · rintro ⟨page, raw, hre, hpa, entry, he, r, hr, rfl⟩
      refine ⟨.fromRaw r listId, mem_flatMap.mpr ⟨raw, ?_, ?_⟩, rfl⟩
      · exact (mem_listPages hp raw).mpr ⟨page, hre, hpa⟩
      · exact mem_filterMap.mpr ⟨entry, he, by rw [hr]; rfl⟩

end

theorem contains_currentRecords (t : List ClickupTaskRecord) (taskId : String) :
    (currentRecords t).contains taskId ↔ ∃ task ∈ t, task.id = taskId := by
  -- over the tasks from the last on, which is inserted last
  induction t using reverseRecOn with
  | nil => simp [currentRecords, SortedMap.contains]
  | append_singleton t task ih =>
    have hi : currentRecords (t ++ [task]) = (currentRecords t).insert task.id task := by
      simp [currentRecords]
    rw [SortedMap.contains] at ih
    rw [hi, SortedMap.contains, SortedMap.get_insert]
    by_cases ht : taskId = task.id
    · simp [ht]
    · simp [ht, ih, Ne.symm ht]

variable {listIds : List String} {current : SortedMap String ClickupTaskRecord}

theorem mem_sortedListIds : listId ∈ sortedListIds listIds ↔ listId ∈ parsedListIds listIds := by
  rw [sortedListIds, StableSort.mem_destutter, mem_insertionSort]

theorem map_lifecycleEvents (revisions : SortedMap String ℕ) (c : List Change) :
    (Change.lifecycleEvents revisions c).1.map (fun e => (e.event, e.taskId)) =
      c.map fun change => (change.kind, change.taskId) := by
  induction c generalizing revisions with
  | nil => rfl
  | cons change c ih =>
    rw [Change.lifecycleEvents, map_cons, ih]
    cases change <;> rfl

variable {previous : SortedMap String ClickupTaskSnapshot} {client : ClickUpClient}

theorem currentChange_kind_ne (h : currentChange previous task = some change) : change.kind ≠ .removed := by
  rw [currentChange] at h
  split at h
  · cases h
    exact nofun
  · dsimp only at h
    split at h
    · cases h
      exact nofun
    · cases h

theorem removed_mem_changes_iff :
    (.removed, taskId) ∈ (changes previous current).map (fun change => (change.kind, change.taskId)) ↔
      previous.contains taskId ∧ ¬ current.contains taskId := by
  rw [mem_map]
  constructor
  · rintro ⟨change, hm, heq⟩
    have hk : change.kind = .removed := congrArg Prod.fst heq
    rcases mem_append.mp hm with hm | hm
    · obtain ⟨entry, -, hc⟩ := mem_filterMap.mp hm
      exact absurd hk (currentChange_kind_ne hc)
    · obtain ⟨⟨id, s⟩, he, hc⟩ := mem_filterMap.mp hm
      rw [removedChange] at hc
      split at hc
      · cases hc
      · rename_i hg
        cases hc
        obtain rfl : id = taskId := congrArg Prod.snd heq
        exact ⟨by rw [SortedMap.contains, SortedMap.mem_entries.mp he]; rfl, hg⟩
  · rintro ⟨ht, hg⟩
    obtain ⟨s, hs⟩ := Option.isSome_iff_exists.mp ht
    refine ⟨.removed taskId s, mem_append_right _ ?_, rfl⟩
    exact mem_filterMap.mpr ⟨(taskId, s), SortedMap.mem_entries.mpr hs, if_neg hg⟩

theorem collectTasks_eq_ok (h : collectTasks client listIds = .ok current) :
    ∃ t, (sortedListIds listIds).mapM (fetchListTasks client) = .ok t ∧ current = currentRecords t.flatten := by
  rw [collectTasks, normalizedListIds] at h
  by_cases hi : sortedListIds listIds = []
  · rw [if_pos hi] at h
    cases h
  · rw [if_neg hi] at h
    cases hk : client.apiKey with
    | error e =>
      rw [hk] at h
      cases h
    | ok key =>
      rw [hk] at h
      cases ht : (sortedListIds listIds).mapM (fetchListTasks client) with
      | error e => simp [ht, bind, Except.bind, Except.mapError] at h
      | ok t =>
        simp only [ht, bind, Except.bind, Except.mapError, pure, Except.pure, Except.ok.injEq] at h
        exact ⟨t, rfl, h.symm⟩

theorem pollClickupLists_eq_ok {previous : ClickupPollState} {o : ClickupPollOutcome} :
    pollClickupLists client listIds previous = .ok o ↔ ∃ current, collectTasks client listIds = .ok current ∧
        o = pollOutcome (sortedListIds listIds) previous current := by
  rw [pollClickupLists]
  cases collectTasks client listIds with
  | error e => exact ⟨fun h => (by cases h), fun ⟨_, h, _⟩ => (by cases h)⟩
  | ok current => simp [bind, Except.bind, pure, Except.pure, eq_comm]

theorem contains_collectTasks_iff (h : collectTasks client listIds = .ok current) (taskId : String) :
    current.contains taskId ↔ Collected client listIds taskId := by
  obtain ⟨tasks, hta, rfl⟩ := collectTasks_eq_ok h
  rw [contains_currentRecords]
  constructor
  · rintro ⟨t, hm, hid⟩
    obtain ⟨o, ho, ht⟩ := mem_flatten.mp hm
    obtain ⟨listId, hl, hf⟩ := Fallible.mem_of_mapM_eq_ok hta ho
    exact ⟨listId, mem_sortedListIds.mp hl, (mem_fetchListTasks hf taskId).mp ⟨t, ht, hid⟩⟩
  · rintro ⟨listId, hl, hc⟩
    obtain ⟨o, ho, hf⟩ := Fallible.exists_mem_of_mapM_eq_ok hta (mem_sortedListIds.mpr hl)
    obtain ⟨t, ht, hid⟩ := (mem_fetchListTasks hf taskId).mpr hc
    exact ⟨t, mem_flatten.mpr ⟨o, ho, ht⟩, hid⟩

/-- A successful poll reports only tasks as removed that are on no page of the lists exactly if each
task of the last poll that is still listed was collected. -/
theorem removed_only_unlisted_iff {client : ClickUpClient} {listIds : List String} {previous : ClickupPollState}
    {outcome : ClickupPollOutcome} (h : pollClickupLists client listIds previous = .ok outcome) :
    (∀ event ∈ outcome.lifecycleEvents, event.event = .removed → ¬ Listed client listIds event.taskId) ↔
      ∀ taskId, previous.taskSnapshot.contains taskId → Listed client listIds taskId →
        Collected client listIds taskId := by
  obtain ⟨current, hc, rfl⟩ := pollClickupLists_eq_ok.mp h
  have he : ∀ taskId, (∃ event ∈ (pollOutcome (sortedListIds listIds) previous current).lifecycleEvents,
      event.event = .removed ∧ event.taskId = taskId) ↔
        previous.taskSnapshot.contains taskId ∧ ¬ Collected client listIds taskId := by
    intro taskId
    rw [← contains_collectTasks_iff hc, ← removed_mem_changes_iff,
      ← map_lifecycleEvents previous.lifecycleRevisions]
    simp [pollOutcome]
  constructor
  · intro ho taskId ht hl
    by_contra hm
    obtain ⟨event, hmem, hk, rfl⟩ := (he taskId).mpr ⟨ht, hm⟩
    exact ho event hmem hk hl
  · intro hall event hmem hk hl
    obtain ⟨ht, hm⟩ := (he event.taskId).mp ⟨event, hmem, hk, rfl⟩
    exact hm (hall event.taskId ht hl)

def onePage (entry : Value) : ClickUpClient where
  apiKey := .ok "pk_1"
  page _ _ := .ok (.object [("tasks", .array [entry]), ("last_page", .bool true)])

def rememberedTask : ClickupPollState := { taskSnapshot := SortedMap.empty.insert "a" ⟨"L1", "Task a", "open", none⟩ }

/-- The entry of a task may have nothing but the id. -/
theorem removed_only_unlisted_of_bare_entry :
    pollClickupLists (onePage (.object [("id", .string "a")])) ["L1"] rememberedTask =
        .ok (pollOutcome ["L1"] rememberedTask
          (currentRecords [.fromRaw ⟨"a", none, none, none, none, none⟩ "L1"])) ∧
      ∀ event ∈ (pollOutcome ["L1"] rememberedTask
          (currentRecords [.fromRaw ⟨"a", none, none, none, none, none⟩ "L1"])).lifecycleEvents,
        event.event = .removed → ¬ Listed (onePage (.object [("id", .string "a")])) ["L1"] event.taskId := by
  have hp : pollClickupLists (onePage (.object [("id", .string "a")])) ["L1"] rememberedTask =
      .ok (pollOutcome ["L1"] rememberedTask
        (currentRecords [.fromRaw ⟨"a", none, none, none, none, none⟩ "L1"])) := by
    decide +kernel
  refine ⟨hp, (removed_only_unlisted_iff hp).mpr ?_⟩
  rintro taskId - ⟨listId, h, page, raw, hraw, entry, he, hid⟩
  cases hraw
  cases mem_singleton.mp he
  exact ⟨listId, h, 0, _, trivial, rfl, _, he, ⟨taskId, none, none, none, none, none⟩, by cases hid; rfl, rfl⟩

/-- An entry whose status has no text is skipped, and the task is reported as removed though it is
listed. -/
theorem removed_task_is_listed :
    (∃ outcome, pollClickupLists (onePage (.object [("id", .string "a"), ("status", .object [])])) ["L1"]
        rememberedTask =
        .ok outcome ∧ outcome.lifecycleEvents.map (fun event => (event.event, event.taskId)) = [(.removed, "a")]) ∧
      Listed (onePage (.object [("id", .string "a"), ("status", .object [])])) ["L1"] "a" := by
  refine ⟨⟨pollOutcome ["L1"] rememberedTask (currentRecords []), by decide +kernel, by decide +kernel⟩, ?_⟩
  exact ⟨"L1", by decide +kernel, 0, _, rfl, _, mem_singleton_self _, rfl⟩

end AgentiumOs.Daemon
