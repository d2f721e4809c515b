import AgentiumOs.Tasks.Status

/-! The task part of the provenance graph: for every task node its `SCOPED_TO`
edges, the state nodes in the order they were written, the head pointer, and the
generated artifacts. An event is written in one transaction, so each write is a
single update of the graph. -/

namespace AgentiumOs.Tasks

/-- A `TaskState` node: the status it records and the one it came from. -/
structure TaskStateNode where
  newStatus : TaskStatusKind
  oldStatus : Option TaskStatusKind
  deriving DecidableEq

structure ArtifactNode where
  artifactId : Option String
  artifactType : Option String
  deriving DecidableEq

/-- A task node with what hangs off it. `contexts` are its `SCOPED_TO` edges and
`head` its `WAS_LAST_TRANSITIONED_TO` edge. -/
structure TaskNode where
  contexts : List String
  states : List TaskStateNode
  head : Option TaskStateNode
  artifacts : List ArtifactNode

def TaskNode.empty : TaskNode := { contexts := [], states := [], head := none, artifacts := [] }

abbrev TaskGraph := Finmap fun _ : String => TaskNode

namespace TaskGraph

/-- The node of a task, or what an event would start from. -/
def nodeOf (g : TaskGraph) (taskId : String) : TaskNode := (g.lookup taskId).getD .empty

def recorded (g : TaskGraph) (taskId : String) : List TaskStateTag :=
  (g.nodeOf taskId).states.map fun state => state.newStatus.tag

def head (g : TaskGraph) (taskId : String) : Option TaskStateNode := (g.nodeOf taskId).head

/-- The task node exists and is scoped to the context. -/
def resolveScoped (g : TaskGraph) (contextId taskId : String) : Bool :=
  contextId ∈ (g.nodeOf taskId).contexts

def resolveByTaskId (g : TaskGraph) (taskId : String) : Option String :=
  (g.nodeOf taskId).contexts.head?

/-- Every event of a task scopes its node to the context of the event. -/
def scopeTo (node : TaskNode) (contextId : String) : TaskNode :=
  if contextId ∈ node.contexts then node
  else { node with contexts := node.contexts ++ [contextId] }

def addTaskExists (g : TaskGraph) (contextId taskId : String) : TaskGraph :=
  g.insert taskId (scopeTo (g.nodeOf taskId) contextId)

/-- `TaskStatusChanged`: a new state node, and the head pointed at it. -/
def addStatusChanged (g : TaskGraph) (contextId taskId : String) (state : TaskStateNode) : TaskGraph :=
  let node := scopeTo (g.nodeOf taskId) contextId
  g.insert taskId { node with states := node.states ++ [state], head := some state }

def addArtifactGenerated (g : TaskGraph) (contextId taskId : String) (artifact : ArtifactNode) : TaskGraph :=
  let node := scopeTo (g.nodeOf taskId) contextId
  g.insert taskId { node with artifacts := node.artifacts ++ [artifact] }

section Writes

variable (g : TaskGraph) (c t : String) {other : String} (node : TaskNode)

@[simp] theorem nodeOf_insert_self : nodeOf (g.insert t node) t = node := by
  simp [nodeOf]

theorem nodeOf_insert_of_ne (h : other ≠ t) : nodeOf (g.insert t node) other = g.nodeOf other := by
  simp [nodeOf, Finmap.lookup_insert_of_ne _ h]

@[simp] theorem scopeTo_states : (scopeTo node c).states = node.states := by
  unfold scopeTo
  split_ifs <;> rfl

@[simp] theorem scopeTo_head : (scopeTo node c).head = node.head := by
  unfold scopeTo
  split_ifs <;> rfl

@[simp] theorem scopeTo_artifacts : (scopeTo node c).artifacts = node.artifacts := by
  unfold scopeTo
  split_ifs <;> rfl

end Writes

end TaskGraph

end AgentiumOs.Tasks
