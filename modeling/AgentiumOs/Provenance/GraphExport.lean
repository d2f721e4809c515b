import AgentiumOs.Lib.Rely
import AgentiumOs.Provenance.RefStore

/-! Exports of the provenance graph. An export is a sequence of queries, between which others may
write; what it makes of their rows is a function of the rows. -/

namespace AgentiumOs.Provenance

open Lib Lib.Program
open Lib.Json (Value)

structure ProvNode where
  nodeId : String
  label : String
  props : Value
  deriving DecidableEq

structure ProvEdge where
  fromId : String
  fromLabel : String
  toId : String
  toLabel : String
  relType : String
  props : Value
  deriving DecidableEq

structure ProvGraph where
  nodes : List ProvNode
  edges : List ProvEdge
  deriving DecidableEq

def scopedTo : String := "SCOPED_TO"

def contextEntityIdString (contextId : String) : String := "context:" ++ contextId

inductive GraphQuery where
  | contextIds
  | scopedNodes (contextNodeIds : List String)
  | edgesFrom (scopedIds : List String)
  | nodesById (ids : List String)

namespace GraphQuery

abbrev Answer : GraphQuery → Type
  | contextIds => List Value
  | scopedNodes _ => List ProvNode
  | edgesFrom _ => List ProvEdge
  | nodesById _ => List ProvNode

def answer (g : ProvGraph) : (q : GraphQuery) → q.Answer
  | contextIds => g.nodes.filterMap fun node => node.props.get "a2a_context_id"
  | scopedNodes contextNodeIds =>
      let fromIds :=
        (g.edges.filter fun edge => edge.toId ∈ contextNodeIds ∧ edge.relType = scopedTo).map ProvEdge.fromId
      g.nodes.filter fun node => node.nodeId ∈ fromIds
  | edgesFrom scopedIds => g.edges.filter fun edge => edge.fromId ∈ scopedIds ∧ edge.relType ≠ scopedTo
  | nodesById ids => g.nodes.filter fun node => node.nodeId ∈ ids

end GraphQuery

structure ExportedNode where
  id : String
  label : String
  properties : List (String × Value)

structure ExportedEdge where
  source : String
  target : String
  relation : String

structure ExportedGraph where
  nodes : List ExportedNode
  edges : List ExportedEdge
  scope : String

/-- The parser of rows with its enrichment, and the simplified graph as a sequence diagram. -/
structure DiagramLibrary where
  parse : (nodeRows extraNodeRows : List ProvNode) → (edgeRows : List ProvEdge) → (scope : String) → ExportedGraph
  renderSequenceDiagram : ExportedGraph → String

def scopeExemptLabels : List String := ["AgentBoot", "AgentArchive", "AgentStop"]

/-- Nodes of other contexts are removed, with their edges. -/
def filterScopeMulti (graph : ExportedGraph) (propertyKey : String) (allowedValues : List String) : ExportedGraph :=
  let foreign (node : ExportedNode) : Bool :=
    node.label ∉ scopeExemptLabels && ((node.properties.lookup propertyKey).bind Value.asStr).any (· ∉ allowedValues)
  let removed := (graph.nodes.filter foreign).map ExportedNode.id
  if removed.isEmpty then graph
  else
    { graph with
      nodes := graph.nodes.filter fun node => node.id ∉ removed
      edges := graph.edges.filter fun edge => edge.source ∉ removed ∧ edge.target ∉ removed }

/-- The context and those derived from it, in the order in which they are found. -/
def familyIds (contextId : String) (rows : List Value) : List String :=
  rows.foldl (fun ids row =>
      match row.asStr with
      | none => ids
      | some candidate =>
          if Text.startsWith candidate ("a2a:" ++ contextId ++ ":") && candidate ∉ ids then ids ++ [candidate] else ids)
    [contextId]

/-- The targets of the edges that are not among the nodes. -/
def extraIds (scopedIds : List String) (edgeRows : List ProvEdge) : List String :=
  ((edgeRows.map ProvEdge.toId).filter (· ∉ scopedIds)).dedup

/-- The operations of requests for diagrams and of events. Of a statement that does not touch the
graph, only whether it fails is known. -/
inductive GraphOperation where
  | cacheGet (key : String)
  | cacheInsert (key mermaid : String)
  | cacheInvalidate (key : String)
  | query (q : GraphQuery)
  | statement
  | write (plan : ProvGraph → ProvGraph)

structure DiagramStore where
  graph : ProvGraph
  cache : Option (String → Option String)

def DiagramStore.entry (s : DiagramStore) (key : String) : Option String := s.cache.bind (· key)

namespace GraphOperation

abbrev Answer : GraphOperation → Type
  | cacheGet _ => Option String
  | cacheInsert _ _ => Unit
  | cacheInvalidate _ => Unit
  | query q => Except Failure q.Answer
  | statement => Except Failure Unit
  | write _ => Except Failure Unit

def reply : (op : GraphOperation) → DiagramStore → op.Answer × DiagramStore
  | cacheGet key, s => (s.entry key, s)
  | cacheInsert key mermaid, s =>
      ((), { s with cache := s.cache.map fun entries => Function.update entries key (some mermaid) })
  | cacheInvalidate key, s => ((), { s with cache := s.cache.map fun entries => Function.update entries key none })
  | query q, s => (.ok (q.answer s.graph), s)
  | statement, s => (.ok (), s)
  | write plan, s => (.ok (), { s with graph := plan s.graph })

def refusal (failure : Failure) : (op : GraphOperation) → Option op.Answer
  | cacheGet _ | cacheInsert _ _ | cacheInvalidate _ => none
  | query _ | statement | write _ => some (.error failure)

end GraphOperation

def serveGraph : Option (Fault Failure) → (op : GraphOperation) → DiagramStore → op.Answer × DiagramStore :=
  faulty GraphOperation.reply GraphOperation.refusal

inductive MermaidError where
  | notFound
  | other (e : ProvenanceError)
  deriving DecidableEq

abbrev MermaidM := ExceptT MermaidError (Program GraphOperation GraphOperation.Answer)

def runQuery (q : GraphQuery) : MermaidM q.Answer := do
  let rows : Except Failure q.Answer ← request (GraphOperation.query q)
  match rows with
  | .ok rows => return rows
  | .error failure => throw (.other (.storage failure.error))

variable (L : DiagramLibrary)

def exportContextsCore (scopeContextId : String) (contextIds : List String) : MermaidM ExportedGraph := do
  let nodeRows : List ProvNode ← runQuery (.scopedNodes (contextIds.map contextEntityIdString))
  if nodeRows.isEmpty then return ⟨[], [], scopeContextId⟩
  else
    let scopedIds := nodeRows.map ProvNode.nodeId
    let edgeRows : List ProvEdge ← runQuery (.edgesFrom scopedIds)
    let ids := extraIds scopedIds edgeRows
    if ids.isEmpty then return L.parse nodeRows [] edgeRows scopeContextId
    else
      let extraNodeRows : List ProvNode ← runQuery (.nodesById ids)
      return L.parse nodeRows extraNodeRows edgeRows scopeContextId

def exportByContext (contextId : String) : MermaidM ExportedGraph := do
  let graph ← exportContextsCore L contextId [contextId]
  return filterScopeMulti graph "a2a:context_id" [contextId]

def exportByContextFamily (contextId : String) : MermaidM ExportedGraph := do
  let rows : List Value ← runQuery .contextIds
  let contextIds := familyIds contextId rows
  let graph ← exportContextsCore L contextId contextIds
  return filterScopeMulti graph "a2a:context_id" contextIds

end AgentiumOs.Provenance
