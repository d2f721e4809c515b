import AgentiumOs.Tasks.Graph
import AgentiumOs.Lib.Fallible

/-! The graph-backed task store: recording a status or an artifact, canceling a
task, and applying a stream chunk. The calls run in `TaskM`, so an error keeps
what was committed before it. Each read and each write of the store may fail; a
write fails before its transaction or after it. Wire upserts and message inserts
write nothing to the graph. -/

namespace AgentiumOs.Tasks

open Lib Lib.Fallible

abbrev TaskM := Program TaskError TaskGraph

/-- What happens to a write. Everything between the checks and the transaction
that can fail fails before it. -/
inductive WriteFault where
  | none
  | beforeCommit (reason : String)
  | afterCommit (reason : String)

structure StoreFaults where
  scopeRead : Option String
  stateRead : Option String
  write : WriteFault

def StoreFaults.quiet : StoreFaults := { scopeRead := none, stateRead := none, write := .none }

def readStore {α : Type} (fault : Option String) (read : TaskGraph → α) : TaskM α :=
  match fault with
  | some reason => throw (.store reason)
  | none => do pure (read (← get))

def writeStore (fault : WriteFault) (write : TaskGraph → TaskGraph) : TaskM Unit :=
  match fault with
  | .none => modify write
  | .beforeCommit reason => throw (.store reason)
  | .afterCommit reason => do
      modify write
      throw (.store reason)

/-- An artifact; its type is the string member `artifact_type` of its metadata. -/
structure Artifact where
  artifactId : Option String
  artifactType : Option String

def Artifact.default : Artifact := { artifactId := none, artifactType := none }

structure TaskStatusUpdateEvent where
  contextId : Option String
  taskId : Option String
  status : Option TaskStatus

structure TaskArtifactUpdateEvent where
  contextId : Option String
  taskId : Option String
  lastChunk : Option Bool
  append : Option Bool
  artifact : Option Artifact

inductive TaskUpdateEvent where
  | status (event : TaskStatusUpdateEvent)
  | artifact (event : TaskArtifactUpdateEvent)

/-- The gate of the state machine on the state that was read: a task without a
state can only be submitted, and nothing follows a terminal state. -/
def isAllowedFrom (current : Option TaskStateNode) (new : TaskStateTag) : Bool :=
  match current.map (·.newStatus.tag) with
  | none => new = .submitted
  | some tag => if isTerminalState tag then false else isAllowedTransition tag new

/-- The state a call for `contextId` reads as current: none when the task is not
scoped to that context. -/
def readCurrent (faults : StoreFaults) (taskId contextId : String) : TaskM (Option TaskStateNode) := do
  let isScoped ← readStore faults.scopeRead (·.resolveScoped contextId taskId)
  if isScoped then readStore faults.stateRead (·.head taskId) else pure none

def recordStatusUpdate (faults : StoreFaults) (taskId contextId : String) (status : TaskStatus) :
    TaskM (Option TaskUpdateEvent) := do
  let newStatus ← wireStatusToKind status
  let current ← readCurrent faults taskId contextId
  if isAllowedFrom current newStatus.tag then
    writeStore faults.write (·.addStatusChanged contextId taskId ⟨newStatus, current.map (·.newStatus)⟩)
    pure (some (.status ⟨some contextId, some taskId, some status⟩))
  else
    pure none

def recordArtifactUpdate (faults : StoreFaults) (taskId contextId : String) (artifact : Artifact)
    (append lastChunk : Option Bool) : TaskM (Option TaskUpdateEvent) := do
  writeStore faults.write (·.addArtifactGenerated contextId taskId ⟨artifact.artifactId, artifact.artifactType⟩)
  pure (some (.artifact ⟨some contextId, some taskId, lastChunk, append, some artifact⟩))

def ensureTaskExists (faults : StoreFaults) (taskId : String) (contextId : Option String) : TaskM Unit :=
  match contextId with
  | none => pure ()
  | some contextId => writeStore faults.write (·.addTaskExists contextId taskId)

/-- `cancel` finds a context by the task id and writes the canceled state into it
without consulting the state machine. The hydrated task or nothing is returned;
here an error stands for nothing. -/
def cancel (faults : StoreFaults) (hydrateFault : Option String) (taskId : String) : TaskM (Option TaskNode) := do
  match ← readStore faults.scopeRead (·.resolveByTaskId taskId) with
  | none => pure none
  | some contextId =>
      writeStore faults.write (·.addStatusChanged contextId taskId ⟨.canceled, none⟩)
      let node ← readStore hydrateFault (·.nodeOf taskId)
      pure (some node)

structure Task where
  id : Option String
  contextId : Option String
  artifacts : List Artifact
  status : Option TaskStatus

structure ValidatedTaskChunk where
  task : Option Task
  statusUpdate : Option TaskStatusUpdateEvent
  artifactUpdate : Option TaskArtifactUpdateEvent
  task_isSome : statusUpdate.isSome ∨ artifactUpdate.isSome → task.isSome

/-- The faults met by the recorder calls of one chunk. -/
structure ChunkFaults where
  taskStatus : StoreFaults
  artifact : ℕ → StoreFaults
  statusUpdate : StoreFaults
  artifactUpdate : StoreFaults

def ChunkFaults.quiet : ChunkFaults :=
  { taskStatus := .quiet, artifact := fun _ => .quiet, statusUpdate := .quiet, artifactUpdate := .quiet }

/-- What was recorded from the status inside the task: its ids and its state. -/
abbrev RecordedFromTask := Option (Option String × Option String × TaskStateTag)

def applyTaskStatus (faults : StoreFaults) (task : Task) : TaskM (List TaskUpdateEvent × RecordedFromTask) :=
  match task.status, task.id, task.contextId with
  | some status, some taskId, some contextId => do
      match ← recordStatusUpdate faults taskId contextId status with
      | none => pure ([], none)
      | some event =>
          let kind ← wireStatusToKind status
          pure ([event], some (task.id, task.contextId, kind.tag))
  | _, _, _ => pure ([], none)

/-- The artifacts of the task, each its own write; `n` counts them. -/
def applyArtifacts (faults : ℕ → StoreFaults) (taskId contextId : String) :
    ℕ → List Artifact → TaskM (List TaskUpdateEvent)
  | _, [] => pure []
  | n, artifact :: rest => do
      let event ← recordArtifactUpdate (faults n) taskId contextId artifact (some false) (some true)
      let events ← applyArtifacts faults taskId contextId (n + 1) rest
      pure (event.toList ++ events)

def applyTaskArtifacts (faults : ChunkFaults) (task : Task) : TaskM (List TaskUpdateEvent) :=
  match task.id, task.contextId with
  | some taskId, some contextId => applyArtifacts faults.artifact taskId contextId 0 task.artifacts
  | _, _ => pure []

def applyTask (faults : ChunkFaults) : Option Task → TaskM (List TaskUpdateEvent × RecordedFromTask)
  | none => pure ([], none)
  | some task => do
      let (events, recordedFromTask) ← applyTaskStatus faults.taskStatus task
      let artifactEvents ← applyTaskArtifacts faults task
      pure (events ++ artifactEvents, recordedFromTask)

/-- The separate status update. Its state is parsed even when its ids are
missing, and it is skipped when the task just recorded the same. -/
def applyStatusUpdate (faults : StoreFaults) (recordedFromTask : RecordedFromTask) :
    Option TaskStatusUpdateEvent → TaskM (List TaskUpdateEvent)
  | some ⟨contextId, taskId, some status⟩ => do
      let kind ← wireStatusToKind status
      if recordedFromTask = some (taskId, contextId, kind.tag) then pure []
      else
        match taskId, contextId with
        | some taskId, some contextId => do
            let event ← recordStatusUpdate faults taskId contextId status
            pure event.toList
        | _, _ => pure []
  | _ => pure []

def applyArtifactUpdate (faults : StoreFaults) : Option TaskArtifactUpdateEvent → TaskM (List TaskUpdateEvent)
  | some ⟨some contextId, some taskId, lastChunk, append, artifact⟩ => do
      let event ← recordArtifactUpdate faults taskId contextId (artifact.getD .default) append lastChunk
      pure event.toList
  | _ => pure []

def applyTaskChunk (faults : ChunkFaults) (chunk : ValidatedTaskChunk) : TaskM (List TaskUpdateEvent) := do
  let (events, recordedFromTask) ← applyTask faults chunk.task
  let statusEvents ← applyStatusUpdate faults.statusUpdate recordedFromTask chunk.statusUpdate
  let artifactEvents ← applyArtifactUpdate faults.artifactUpdate chunk.artifactUpdate
  pure (events ++ statusEvents ++ artifactEvents)

end AgentiumOs.Tasks
