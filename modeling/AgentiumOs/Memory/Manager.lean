import AgentiumOs.Lib.Run

/-! The memory of an agent: a graph in memory, the bytes it was last committed as, and its file.
`add` and `link` change the graph before they serialize and write it, and go back to the committed
bytes when a step fails; a serialization that fails is the one step after which they do not. -/

namespace AgentiumOs.Memory

open Lib

inductive MemoryEventType where
  | fact
  | decision
  | inference
  | correction
  | skill
  | episode

inductive MemoryEdgeType where
  | causedBy
  | supports
  | contradicts
  | supersedes
  | relatedTo
  | partOf
  | temporalNext

/-- What is absent is filled in by the builder of the graph library. -/
structure MemoryEventInput where
  eventType : MemoryEventType
  content : String
  sessionId : Option ℕ := none
  confidence : Option ℚ := none

structure MemoryEdgeInput where
  source : ℕ
  target : ℕ
  edgeType : MemoryEdgeType
  weight : Option ℚ := none

structure MemoryAddSendInput where
  events : List MemoryEventInput
  edges : Option (List MemoryEdgeInput) := none

structure MemoryLinkSendInput where
  edges : List MemoryEdgeInput

structure Edge where
  sourceId : ℕ
  targetId : ℕ
  edgeType : MemoryEdgeType
  weight : ℚ

def MemoryEdgeInput.edge (e : MemoryEdgeInput) : Edge := ⟨e.source, e.target, e.edgeType, e.weight.getD 1⟩

inductive AmemError where
  | selfEdge (id : ℕ)
  | nodeNotFound (id : ℕ)
  | invalidEdgeTarget (id : ℕ)
  | tooManyEdges (max : ℕ)
  | other (message : String)
  deriving DecidableEq

inductive MemoryError where
  | amem (e : AmemError)
  | io (message : String)
  | unexpectedIngestNodeIds (expected actual : List ℕ)
  | persistTaskFailed (message : String)
  deriving DecidableEq

structure IngestResult where
  newNodeIds : List ℕ
  newEdgeCount : ℕ

/-- The graph library and the file system. Whether a step fails depends on the circumstances of the
call; an operation on the graph that fails may leave it changed. -/
structure Amem (ι G : Type) where
  maxEdgesPerNode : ℕ
  new : G
  dimension : G → ℕ
  nodeIds : G → List ℕ
  edges : G → List Edge
  validate : MemoryEventInput → ℕ → Except AmemError Unit
  ingest : ι → G → List MemoryEventInput → List Edge → G × Except AmemError IngestResult
  addEdge : ι → G → Edge → G × Except AmemError Unit
  ensureAdjacency : G → G
  writeTo : ι → G → Except AmemError (List UInt8)
  readFrom : List UInt8 → Except AmemError G
  /-- The file is replaced as a whole, or the write fails and it stays. -/
  atomicWrite : ι → List UInt8 → Except MemoryError Unit
  readFrom_writeTo : ∀ {c g bytes}, writeTo c g = .ok bytes → readFrom bytes = .ok g

section

variable {ι G : Type} (lib : Amem ι G)

structure MemoryManager (G : Type) where
  graph : G
  committed : List UInt8
  file : Option (List UInt8)
  deriving DecidableEq

/-- A file that is absent is read as a new graph. -/
def readFromFile : Option (List UInt8) → Except AmemError G
  | none => .ok lib.new
  | some bytes => lib.readFrom bytes

def serializeGraph (c : ι) (graph : G) : Except MemoryError (List UInt8) :=
  (lib.writeTo c graph).mapError .amem

def openAt (c : ι) (file : Option (List UInt8)) : Except MemoryError (MemoryManager G) := do
  let graph ← (readFromFile lib file).mapError .amem
  let committed ← serializeGraph lib c graph
  pure ⟨graph, committed, file⟩

def rollback (graph : G) (snapshot : List UInt8) : G :=
  match lib.readFrom snapshot with
  | .ok restored => restored
  | .error _ => graph

def commitGraph (c : ι) (m : MemoryManager G) (snapshot : List UInt8) :
    MemoryManager G × Except MemoryError Unit :=
  match serializeGraph lib c m.graph with
  | .error err => (m, .error err)
  | .ok bytes =>
      match lib.atomicWrite c bytes with
      | .error err => ({ m with graph := rollback lib m.graph snapshot, committed := snapshot }, .error err)
      | .ok () => ({ m with committed := bytes, file := some bytes }, .ok ())

def validateEventsForBatch (events : List MemoryEventInput) (dimension : ℕ) : Except MemoryError Unit :=
  match events with
  | [] => .ok ()
  | event :: events =>
      match lib.validate event dimension with
      | .error err => .error (.amem err)
      | .ok () => validateEventsForBatch events dimension

/-- The edges of the batch one by one, with the number of edges that each source has so far. -/
def validateEdges (known : ℕ → Bool) (counts : ℕ → ℕ) : List Edge → Except AmemError Unit
  | [] => .ok ()
  | edge :: edges =>
      if edge.sourceId = edge.targetId then .error (.selfEdge edge.sourceId)
      else if !known edge.sourceId then .error (.nodeNotFound edge.sourceId)
      else if !known edge.targetId then .error (.invalidEdgeTarget edge.targetId)
      else if lib.maxEdgesPerNode ≤ counts edge.sourceId then .error (.tooManyEdges lib.maxEdgesPerNode)
      else validateEdges known (Function.update counts edge.sourceId (counts edge.sourceId + 1)) edges

def validateEdgesForBatch (graph : G) (edges : List Edge) (additionalValidNodeIds : List ℕ) :
    Except MemoryError Unit :=
  (validateEdges lib (fun id => decide (id ∈ lib.nodeIds graph ∨ id ∈ additionalValidNodeIds))
    (fun id => (lib.edges graph).countP (·.sourceId = id)) edges).mapError .amem

def predictedIngestNodeIds (graph : G) (eventCount : ℕ) : List ℕ :=
  let nextId :=
    match (lib.nodeIds graph).max? with
    | none => 0
    | some id => id + 1
  List.range' nextId eventCount

inductive MemoryOutput where
  | added (nodeIds : List ℕ) (edgeCount : ℕ)
  | linked (edgesCreated : ℕ)
  deriving DecidableEq

/-- What `add` does to the graph before it is committed. -/
def addToGraph (c : ι) (graph : G) (snapshot : List UInt8) (input : MemoryAddSendInput) :
    G × Except MemoryError MemoryOutput :=
  let edges := (input.edges.getD []).map MemoryEdgeInput.edge
  match validateEventsForBatch lib input.events (lib.dimension graph) with
  | .error err => (graph, .error err)
  | .ok () =>
      let predicted := predictedIngestNodeIds lib graph input.events.length
      match validateEdgesForBatch lib graph edges predicted with
      | .error err => (graph, .error err)
      | .ok () =>
          match lib.ingest c graph input.events edges with
          | (graph, .error err) => (rollback lib graph snapshot, .error (.amem err))
          | (graph, .ok result) =>
              if result.newNodeIds ≠ predicted then
                (rollback lib graph snapshot, .error (.unexpectedIngestNodeIds predicted result.newNodeIds))
              else (graph, .ok (.added result.newNodeIds result.newEdgeCount))

def addEdges (c : ι) (graph : G) : List Edge → G × Except AmemError Unit
  | [] => (graph, .ok ())
  | edge :: edges =>
      match lib.addEdge c graph edge with
      | (graph, .error err) => (graph, .error err)
      | (graph, .ok ()) => addEdges c graph edges

/-- What `link` does to the graph before it is committed. -/
def linkInGraph (c : ι) (graph : G) (snapshot : List UInt8) (input : MemoryLinkSendInput) :
    G × Except MemoryError MemoryOutput :=
  let edges := input.edges.map MemoryEdgeInput.edge
  match validateEdgesForBatch lib graph edges [] with
  | .error err => (graph, .error err)
  | .ok () =>
      match addEdges lib c graph edges with
      | (graph, .error err) => (rollback lib graph snapshot, .error (.amem err))
      | (graph, .ok ()) => (lib.ensureAdjacency graph, .ok (.linked edges.length))

def commitAfter (c : ι) (m : MemoryManager G) :
    G × Except MemoryError MemoryOutput → MemoryManager G × Except MemoryError MemoryOutput
  | (graph, .error err) => ({ m with graph := graph }, .error err)
  | (graph, .ok output) =>
      match commitGraph lib c { m with graph := graph } m.committed with
      | (m, .error err) => (m, .error err)
      | (m, .ok ()) => (m, .ok output)

def add (c : ι) (m : MemoryManager G) (input : MemoryAddSendInput) :
    MemoryManager G × Except MemoryError MemoryOutput :=
  commitAfter lib c m (addToGraph lib c m.graph m.committed input)

def link (c : ι) (m : MemoryManager G) (input : MemoryLinkSendInput) :
    MemoryManager G × Except MemoryError MemoryOutput :=
  commitAfter lib c m (linkInGraph lib c m.graph m.committed input)

inductive MemoryCall where
  | add (input : MemoryAddSendInput)
  | link (input : MemoryLinkSendInput)

def invoke (m : MemoryManager G) : ι × MemoryCall → MemoryManager G × Except MemoryError MemoryOutput
  | (c, .add input) => add lib c m input
  | (c, .link input) => link lib c m input

def toCommit (m : MemoryManager G) (call : ι × MemoryCall) : G × Except MemoryError MemoryOutput :=
  match call with
  | (c, .add input) => addToGraph lib c m.graph m.committed input
  | (c, .link input) => linkInGraph lib c m.graph m.committed input

/-- The committed bytes and the file are read as the graph in memory. -/
structure Consistent (m : MemoryManager G) : Prop where
  committed : lib.readFrom m.committed = .ok m.graph
  file : readFromFile lib m.file = .ok m.graph

/-- The call leaves the manager consistent, and as it was if it fails. -/
def Keeps (m : MemoryManager G) (call : ι × MemoryCall) : Prop :=
  Consistent lib (invoke lib m call).1 ∧ ∀ err, (invoke lib m call).2 = .error err → (invoke lib m call).1 = m

/-- A graph that the call changed is not lost to its serialization. -/
def Serializes (m : MemoryManager G) (call : ι × MemoryCall) : Prop :=
  ∀ output err, (toCommit lib m call).2 = .ok output → lib.writeTo call.1 (toCommit lib m call).1 = .error err →
    (toCommit lib m call).1 = m.graph

variable {lib} {m : MemoryManager G} {c : ι} {s : List UInt8}

theorem openAt_consistent (h : openAt lib c f = .ok m) : Consistent lib m := by
  simp only [openAt, serializeGraph, bind, Except.bind] at h
  cases hg : readFromFile lib f with
  | error err => rw [hg] at h; cases h
  | ok graph =>
    rw [hg] at h
    cases hb : lib.writeTo c graph with
    | error err => simp only [hb, Except.mapError] at h; cases h
    | ok bytes =>
      simp only [hb, Except.mapError] at h
      cases h
      exact ⟨lib.readFrom_writeTo hb, hg⟩

variable {graph restored : G}

theorem rollback_eq (h : lib.readFrom s = .ok restored) : rollback lib graph s = restored := by
  rw [rollback, h]

variable {err : MemoryError}

theorem addToGraph_of_error (hs : lib.readFrom s = .ok graph)
    (h : (addToGraph lib c graph s i).2 = .error err) :
    (addToGraph lib c graph s i).1 = graph := by
  simp only [addToGraph] at h ⊢
  split
  · rfl
  · rename_i he
    simp only [he] at h
    split
    · rfl
    · rename_i hed
      simp only [hed] at h
      split
      · exact rollback_eq hs
      · rename_i result hi
        simp only [hi] at h
        split
        · exact rollback_eq hs
        · rename_i hid
          rw [if_neg hid] at h
          cases h

theorem linkInGraph_of_error (hs : lib.readFrom s = .ok graph)
    (h : (linkInGraph lib c graph s i).2 = .error err) :
    (linkInGraph lib c graph s i).1 = graph := by
  simp only [linkInGraph] at h ⊢
  split
  · rfl
  · rename_i he
    simp only [he] at h
    split
    · exact rollback_eq hs
    · rename_i ha
      simp only [ha] at h
      cases h

/-- A call that fails before it commits leaves the graph as the committed bytes have it. -/
theorem toCommit_of_error (hm : Consistent lib m) (h : (toCommit lib m ca).2 = .error err) :
    (toCommit lib m ca).1 = m.graph := by
  obtain ⟨c, input | input⟩ := ca
  · exact addToGraph_of_error hm.committed h
  · exact linkInGraph_of_error hm.committed h

theorem commitAfter_ok (hm : Consistent lib m) (graph : G) (o : MemoryOutput) :
    (∃ err, lib.writeTo c graph = .error err ∧
        commitAfter lib c m (graph, .ok o) = ({ m with graph := graph }, .error (.amem err))) ∨
      ∃ bytes, lib.writeTo c graph = .ok bytes ∧
        ((∃ err, commitAfter lib c m (graph, .ok o) = (m, .error err)) ∨
          commitAfter lib c m (graph, .ok o) = (⟨graph, bytes, some bytes⟩, .ok o)) := by
  simp only [commitAfter, commitGraph, serializeGraph]
  cases hb : lib.writeTo c graph with
  | error err => exact .inl ⟨err, rfl, rfl⟩
  | ok bytes =>
    refine .inr ⟨bytes, rfl, ?_⟩
    simp only [Except.mapError]
    cases hw : lib.atomicWrite c bytes with
    | error err => exact .inl ⟨err, by rw [rollback_eq hm.committed]⟩
    | ok _ => exact .inr rfl

theorem keeps_iff_serializes (hm : Consistent lib m) (call : ι × MemoryCall) :
    Keeps lib m call ↔ Serializes lib m call := by
  have hi : invoke lib m call = commitAfter lib call.1 m (toCommit lib m call) := by
    obtain ⟨c, input | input⟩ := call <;> rfl
  rw [Keeps, Serializes, hi]
  cases hc : toCommit lib m call with
  | mk graph result =>
  cases result with
  | error err =>
    have hg : graph = m.graph := by
      simpa only [hc] using toCommit_of_error hm (congrArg Prod.snd hc)
    subst hg
    refine ⟨fun _ _ _ hok => ?_, fun _ => ⟨hm, fun _ _ => rfl⟩⟩
    cases hok
  | ok o =>
    rcases commitAfter_ok hm graph o with ⟨err, hb, heq⟩ | ⟨bytes, hb, ⟨err, heq⟩ | heq⟩
    · rw [heq]
      constructor
      · rintro ⟨-, hs⟩ - - - -
        exact congrArg MemoryManager.graph (hs _ rfl)
      · intro hse
        obtain rfl : graph = m.graph := hse o err rfl hb
        exact ⟨hm, fun _ _ => rfl⟩
    · rw [heq]
      refine ⟨fun _ _ _ _ he => ?_, fun _ => ⟨hm, fun _ _ => rfl⟩⟩
      rw [hb] at he
      cases he
    · rw [heq]
      have hr := lib.readFrom_writeTo hb
      refine ⟨fun _ _ _ _ he => ?_, fun _ => ⟨⟨hr, hr⟩, fun _ he => nomatch he⟩⟩
      rw [hb] at he
      cases he

/-- Over every run from an opened file, all calls leave the graph, the committed bytes and the file
in agreement, and unchanged if they fail, exactly when no call changes a graph that is then not
serialized. -/
theorem calls_keep_manager_iff {file : Option (List UInt8)} (hopen : openAt lib c file = .ok m)
    (calls : List (ι × MemoryCall)) :
    Run.Along (invoke lib) (Keeps lib) m calls ↔ Run.Along (invoke lib) (Serializes lib) m calls :=
  Run.along_congr_of_invariant (invoke lib) (Consistent lib) (fun _ call hm => keeps_iff_serializes hm call)
    (fun _ _ _ hk => hk.1) m (openAt_consistent hopen) calls

end

/-- A library of graphs without edges, whose bytes are the ids of its nodes. The circumstances of a
call are whether the graph is serialized and whether it is written. -/
def nodesOnly : Amem (Bool × Bool) (List UInt8) where
  maxEdgesPerNode := 65535
  new := []
  dimension _ := 128
  nodeIds graph := graph.map UInt8.toNat
  edges _ := []
  validate _ _ := .ok ()
  ingest _ graph events _ :=
    let added := (List.range' graph.length events.length).map UInt8.ofNat
    (graph ++ added, .ok ⟨added.map UInt8.toNat, 0⟩)
  addEdge _ graph _ := (graph, .ok ())
  ensureAdjacency graph := graph
  writeTo c graph := if c.1 then .ok graph else .error (.other "buffer")
  readFrom bytes := .ok bytes
  atomicWrite c _ := if c.2 then .ok () else .error (.io "no space left on device")
  readFrom_writeTo {c g bytes} h := by
    split at h
    · rw [Except.ok.inj h]
    · cases h

/-- A write fails, an empty link is not serialized, and an event is added. -/
theorem calls_keep_manager_of_failed_write :
    Run.Along (invoke nodesOnly) (Keeps nodesOnly) ⟨[], [], none⟩
      [((true, false), .add ⟨[⟨.fact, "a", none, none⟩], none⟩), ((false, true), .link ⟨[]⟩),
        ((true, true), .add ⟨[⟨.fact, "b", none, none⟩], none⟩)] := by
  refine (@calls_keep_manager_iff _ _ nodesOnly ⟨[], [], none⟩ (true, true) none rfl _).mpr ⟨?_, ?_, ?_, trivial⟩
  · intro o err _ hw
    cases hw
  · intro o err _ _
    rfl
  · intro o err _ hw
    cases hw

/-- An event whose graph is not serialized stays in memory: the call fails, and the graph is neither
what it was nor what the committed bytes and the file hold. -/
theorem graph_changed_by_failed_serialization : openAt nodesOnly (true, true) none = .ok ⟨[], [], none⟩ ∧
      invoke nodesOnly ⟨[], [], none⟩ ((false, true), .add ⟨[⟨.fact, "a", none, none⟩], none⟩) =
        (⟨[0], [], none⟩, .error (.amem (.other "buffer"))) ∧
      nodesOnly.readFrom [] = .ok [] ∧ readFromFile nodesOnly none = .ok [] := by
  decide +kernel

end AgentiumOs.Memory
