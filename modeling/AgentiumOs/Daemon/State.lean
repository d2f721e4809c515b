import AgentiumOs.Lib.Json
import AgentiumOs.Lib.SortedMap
import AgentiumOs.Lib.Text

/-! What the task daemon polls, what it remembers of each source, and the event that it delivers. -/

namespace AgentiumOs.Daemon

open Lib
open Lib.Json (Value)

inductive TaskSourceKind where
  | slack
  | clickup
  deriving DecidableEq

def TaskSourceKind.asStr : TaskSourceKind → String
  | slack => "slack"
  | clickup => "clickup"

structure SlackMessage where
  ts : String
  threadTs : Option String := none
  userId : Option String := none
  text : String := ""
  subtype : Option String := none
  deriving DecidableEq

inductive ClickupLifecycleEventKind where
  | created
  | terminal
  | removed
  deriving DecidableEq

structure ClickupLifecycleEventRecord where
  key : String
  event : ClickupLifecycleEventKind
  taskId : String
  listId : String
  revision : ℕ
  snapshot : Value
  previousSnapshot : Option Value
  deriving DecidableEq

structure ClickupTaskSnapshot where
  listId : String
  name : String
  status : String
  url : Option String
  deriving DecidableEq

structure SourceState where
  resolvedId : Option String := none
  resolvedLabel : Option String := none
  lastSeenTs : Option String := none
  backfillLatestTs : Option String := none
  pendingLastSeenTs : Option String := none
  seenTaskKeys : SortedMap String ℕ := .empty
  clickupTaskSnapshot : SortedMap String ClickupTaskSnapshot := .empty
  clickupLifecycleRevisions : SortedMap String ℕ := .empty

namespace SourceState

def hasSeenTask (s : SourceState) (taskKey : String) : Bool := s.seenTaskKeys.contains taskKey

def markTaskSeen (s : SourceState) (taskKey : String) (seenAtUnix : ℕ) : SourceState :=
  { s with seenTaskKeys := s.seenTaskKeys.insert taskKey seenAtUnix }

/-- The oldest first, those of one second by their keys. -/
def byAge (s : SourceState) : List (String × ℕ) :=
  s.seenTaskKeys.entries.insertionSort fun a b => a.2 < b.2 ∨ a.2 = b.2 ∧ a.1 ≤ b.1

def pruneSeenTasks (maxEntries : ℕ) (s : SourceState) : SourceState :=
  if s.seenTaskKeys.entries.length ≤ maxEntries then s
  else
    let removed := (s.byAge.take (s.byAge.length - maxEntries)).map Prod.fst
    { s with seenTaskKeys := s.seenTaskKeys.filter (· ∉ removed) }

end SourceState

structure TaskDaemonState where
  sources : SortedMap String SourceState := .empty

namespace TaskDaemonState

/-- What is remembered of a source; nothing if it has not been polled. -/
def source (state : TaskDaemonState) (sourceKey : String) : SourceState := (state.sources.get sourceKey).getD {}

/-- A change of what is remembered of a source, which creates it if it is missing. -/
def setSource (state : TaskDaemonState) (sourceKey : String) (s : SourceState) : TaskDaemonState :=
  { state with sources := state.sources.insert sourceKey s }

def pruned (maxSeenTasksPerSource : ℕ) (state : TaskDaemonState) : TaskDaemonState :=
  { state with sources := state.sources.map (SourceState.pruneSeenTasks maxSeenTasksPerSource) }

@[simp] theorem source_setSource (st : TaskDaemonState) (sk : String) (s : SourceState) :
    (st.setSource sk s).source sk = s := by
  rw [source, setSource, SortedMap.get_insert, if_pos rfl, Option.getD_some]

theorem source_pruned (maxSeenTasksPerSource : ℕ) (st : TaskDaemonState) (sk : String) :
    (st.pruned maxSeenTasksPerSource).source sk = (st.source sk).pruneSeenTasks maxSeenTasksPerSource := by
  rw [source, source, pruned, SortedMap.get_map]
  cases st.sources.get sk with
  | none => rfl
  | some s => rfl

end TaskDaemonState

inductive SourcePollPayload where
  | slack (messages : List SlackMessage)
  | clickup (lifecycleEvents : List ClickupLifecycleEventRecord)
  deriving DecidableEq

def SourcePollPayload.sourceKind : SourcePollPayload → TaskSourceKind
  | slack _ => .slack
  | clickup _ => .clickup

/-- What was polled from a source. A source has a name: the channel, or the lists. -/
structure SourcePoll where
  sourceName : String
  sourceName_ne : sourceName ≠ ""
  sourceLabel : String
  payload : SourcePollPayload

namespace SourcePoll

def sourceKind (poll : SourcePoll) : TaskSourceKind := poll.payload.sourceKind

def sourceKey (poll : SourcePoll) : String := poll.sourceKind.asStr ++ ":" ++ poll.sourceName

def messages (poll : SourcePoll) : List SlackMessage :=
  match poll.payload with
  | .slack messages => messages
  | .clickup _ => []

def clickupLifecycleEvents (poll : SourcePoll) : List ClickupLifecycleEventRecord :=
  match poll.payload with
  | .slack _ => []
  | .clickup lifecycleEvents => lifecycleEvents

def isEmpty (poll : SourcePoll) : Bool :=
  match poll.payload with
  | .slack messages => messages.isEmpty
  | .clickup lifecycleEvents => lifecycleEvents.isEmpty

end SourcePoll

def slackSourceCursor (messages : List SlackMessage) : Option String := do
  let first ← messages.head?
  let last ← messages.getLast?
  pure ("slack:" ++ first.ts ++ ":" ++ last.ts ++ ":" ++ toString messages.length)

def cursorKeySeparator : String := "\x1f"

def clickupSourceCursor (events : List ClickupLifecycleEventRecord) : Option String :=
  if events.isEmpty then none
  else
    let taskKeys := ((events.map (·.key)).insertionSort (· ≤ ·)).destutter (· ≠ ·)
    some ("clickup:" ++ cursorKeySeparator.intercalate taskKeys)

def SourcePoll.sourceCursor (poll : SourcePoll) : Option String :=
  match poll.payload with
  | .slack messages => slackSourceCursor messages
  | .clickup lifecycleEvents => clickupSourceCursor lifecycleEvents

/-- The ids that are made from it by hashing are left out. -/
structure HostPollLineage where
  sourceCursor : String
  sourceMessageTs : List String
  deriving DecidableEq

def mintPollLineage (poll : SourcePoll) : Option HostPollLineage :=
  poll.sourceCursor.map fun sourceCursor => ⟨sourceCursor, poll.messages.map SlackMessage.ts⟩

theorem slackSourceCursor_isSome_iff (m : List SlackMessage) : (slackSourceCursor m).isSome ↔ m ≠ [] := by
  cases m with
  | nil => simp [slackSourceCursor]
  | cons first rest => simp [slackSourceCursor, List.getLast?_cons]

theorem mintPollLineage_isSome_iff (p : SourcePoll) : (mintPollLineage p).isSome ↔ ¬ p.isEmpty := by
  rw [mintPollLineage, Option.isSome_map, SourcePoll.sourceCursor, SourcePoll.isEmpty]
  cases p.payload with
  | slack messages => rw [slackSourceCursor_isSome_iff, List.isEmpty_iff]
  | clickup lifecycleEvents => cases lifecycleEvents <;> simp [clickupSourceCursor]

structure ProducedEvent where
  sourceKind : TaskSourceKind
  sourceKey : String
  sourceLabel : String
  payload : SourcePollPayload
  lineage : HostPollLineage
  deriving DecidableEq

def slackChannelId (sourceKey : String) : Except String String :=
  match (Text.withoutLead sourceKey "slack:").filter (· ≠ "") with
  | some id => .ok id
  | none => .error ("slack source_key must be slack:<channel_id>, got " ++ sourceKey)

def pollToProducedEvent (poll : SourcePoll) (lineage : HostPollLineage) : Except String ProducedEvent := do
  let sourceKey := Text.trim poll.sourceKey
  if sourceKey = "" then throw ("invalid source_key " ++ poll.sourceKey)
  if poll.sourceKind = .slack then
    let _ ← slackChannelId poll.sourceKey
  pure ⟨poll.sourceKind, sourceKey, poll.sourceLabel, poll.payload, lineage⟩

theorem pollToProducedEvent_isOk (p : SourcePoll) (l : HostPollLineage) :
    ∃ e, pollToProducedEvent p l = .ok e ∧ e.sourceKind = p.sourceKind ∧ e.payload = p.payload := by
  refine ⟨⟨p.sourceKind, Text.trim p.sourceKey, p.sourceLabel, p.payload, l⟩, ?_, rfl, rfl⟩
  have ht : Text.trim p.sourceKey ≠ "" :=
    Text.trim_ne_empty (c := ':') (by simp [SourcePoll.sourceKey]) (by decide)
  cases hk : p.sourceKind with
  | clickup => simp [pollToProducedEvent, ht, hk]; rfl
  | slack =>
    have hke : p.sourceKey = "slack:" ++ p.sourceName := by
      rw [SourcePoll.sourceKey, hk]
      rfl
    have hc : slackChannelId p.sourceKey = .ok p.sourceName := by
      have hn : (some p.sourceName).filter (· ≠ "") = some p.sourceName :=
        Option.filter_eq_some_iff.mpr ⟨rfl, by simpa using p.sourceName_ne⟩
      rw [slackChannelId, hke, Text.withoutLead_append, hn]
    simp [pollToProducedEvent, ht, hk, hc]

end AgentiumOs.Daemon
