import AgentiumOs.Provenance.GraphExport
import AgentiumOs.Provenance.RefCalls

/-! Diagrams of contexts and their cache, with requests and events in every interleaving. A request
keeps what it exported under its key; an event removes the entry of its context when it has
written. A diagram is current if, at some point after the last change of what it shows, its key had
no entry and no request for it was under way. -/

namespace AgentiumOs.Provenance

open List Lib Lib.Program
open Lib.Json (Value)

section Requests

variable (L : DiagramLibrary)

def mermaidFor (cacheKey : String) (exporter : MermaidM ExportedGraph) : MermaidM String := do
  let hit : Option String ← request (GraphOperation.cacheGet cacheKey)
  match hit with
  | some cached => return cached
  | none =>
      let graph ← exporter
      if graph.nodes.isEmpty then throw .notFound
      else
        let mermaid := L.renderSequenceDiagram graph
        let _ : Unit ← request (GraphOperation.cacheInsert cacheKey mermaid)
        return mermaid

def mermaidForContext (contextId : String) : MermaidM String := mermaidFor L contextId (exportByContext L contextId)

def mermaidForContextFull (contextId : String) : MermaidM String :=
  mermaidFor L (contextId ++ "::full") (exportByContextFamily L contextId)

end Requests

/-- What is written of an event: the parts of the graph as they are built for it, with the number
of statements before and after them that do not touch the graph. -/
structure ProvEvent where
  contextId : Option String
  checks : ℕ
  rejected : Option ProvenanceError
  plans : List (ProvGraph → ProvGraph)
  indexes : ℕ

abbrev EventM := ExceptT ProvenanceError (Program GraphOperation GraphOperation.Answer)

def runStatements : ℕ → EventM Unit
  | 0 => return ()
  | n + 1 => do
      let done : Except Failure Unit ← request GraphOperation.statement
      match done with
      | .ok () => runStatements n
      | .error failure => throw (.storage failure.error)

/-- A write that conflicts is tried again, with so many attempts left. -/
def runWriteWithRetry (plan : ProvGraph → ProvGraph) : ℕ → EventM Unit
  -- not reached, since there is at least one attempt
  | 0 => throw (.contention "")
  | left + 1 => do
      let written : Except Failure Unit ← request (GraphOperation.write plan)
      match written with
      | .ok () => return ()
      | .error failure =>
          if isTransactionConflict failure.error then
            if left = 0 then throw (.contention failure.error.message) else runWriteWithRetry plan left
          else throw (.storage failure.error)

def runPlans : List (ProvGraph → ProvGraph) → EventM Unit
  | [] => return ()
  | plan :: plans => do
      runWriteWithRetry plan writeConflictMaxAttempts
      runPlans plans

/-- An event that fails after some of its writes leaves the cache as it is. -/
def addEvent (event : ProvEvent) : EventM Unit := do
  runStatements event.checks
  match event.rejected with
  | some e => throw e
  | none =>
      runPlans event.plans
      runStatements event.indexes
      match event.contextId with
      | some contextId => request (GraphOperation.cacheInvalidate contextId)
      | none => return ()

inductive DiagramKind where
  | context
  | full

open DiagramKind

section Current

variable (L : DiagramLibrary)

def exportedCore (g : ProvGraph) (scopeContextId : String) (contextIds : List String) : ExportedGraph :=
  let nodeRows : List ProvNode := GraphQuery.answer g (.scopedNodes (contextIds.map contextEntityIdString))
  if nodeRows.isEmpty then ⟨[], [], scopeContextId⟩
  else
    let scopedIds := nodeRows.map ProvNode.nodeId
    let edgeRows : List ProvEdge := GraphQuery.answer g (.edgesFrom scopedIds)
    let ids := extraIds scopedIds edgeRows
    let extraNodeRows : List ProvNode := if ids.isEmpty then [] else GraphQuery.answer g (.nodesById ids)
    L.parse nodeRows extraNodeRows edgeRows scopeContextId

/-- The queries of an export, as its rows come out in a graph. -/
def coreReads (g : ProvGraph) (contextIds : List String) : List GraphQuery :=
  let nodeRows : List ProvNode := GraphQuery.answer g (.scopedNodes (contextIds.map contextEntityIdString))
  let scopedIds := nodeRows.map ProvNode.nodeId
  let edgeRows : List ProvEdge := GraphQuery.answer g (.edgesFrom scopedIds)
  [.scopedNodes (contextIds.map contextEntityIdString), .edgesFrom scopedIds, .nodesById (extraIds scopedIds edgeRows)]

namespace DiagramKind

def cacheKey : DiagramKind → String → String
  | context, contextId => contextId
  | full, contextId => contextId ++ "::full"

def exporter : DiagramKind → String → MermaidM ExportedGraph
  | context, contextId => exportByContext L contextId
  | full, contextId => exportByContextFamily L contextId

def mermaid : DiagramKind → String → MermaidM String
  | context, contextId => mermaidForContext L contextId
  | full, contextId => mermaidForContextFull L contextId

theorem mermaid_eq (kind : DiagramKind) (contextId : String) :
    kind.mermaid L contextId = mermaidFor L (kind.cacheKey contextId) (kind.exporter L contextId) := by
  cases kind <;> rfl

def contextIds (g : ProvGraph) : DiagramKind → String → List String
  | context, contextId => [contextId]
  | full, contextId => familyIds contextId (GraphQuery.answer g .contextIds)

def reads (g : ProvGraph) : DiagramKind → String → List GraphQuery
  | context, contextId => coreReads g (context.contextIds g contextId)
  | full, contextId => .contextIds :: coreReads g (full.contextIds g contextId)

def exported (g : ProvGraph) (kind : DiagramKind) (contextId : String) : ExportedGraph :=
  let ids := kind.contextIds g contextId
  filterScopeMulti (exportedCore L g contextId ids) "a2a:context_id" ids

def current (g : ProvGraph) (kind : DiagramKind) (contextId : String) : Except MermaidError String :=
  let graph := kind.exported L g contextId
  if graph.nodes.isEmpty then .error .notFound else .ok (L.renderSequenceDiagram graph)

end DiagramKind

end Current

inductive DiagramCall where
  | diagram (kind : DiagramKind) (contextId : String)
  | addEvent (event : ProvEvent)

inductive DiagramOutcome where
  | diagram (result : Except MermaidError String)
  | addEvent (result : Except ProvenanceError Unit)
  deriving DecidableEq

def DiagramCall.program (L : DiagramLibrary) : DiagramCall → Program GraphOperation GraphOperation.Answer DiagramOutcome
  | diagram kind contextId => (kind.mermaid L contextId).run.bind fun result => .done (.diagram result)
  | addEvent event => (Provenance.addEvent event).run.bind fun result => .done (.addEvent result)

/-! ### What a request relies on -/

section Coherence

variable (L : DiagramLibrary) (kind : DiagramKind) (contextId : String) (g : ProvGraph)

/-- Under the key, only the diagram of the graph is entered. -/
def MayPerform : GraphOperation → Prop
  | .cacheInsert key mermaid => key = kind.cacheKey contextId → kind.current L g contextId = .ok mermaid
  | _ => True

/-- An entry under the key is the diagram of the graph, and the rows that are read are its rows. -/
def CanAnswer : (op : GraphOperation) → op.Answer → Prop
  | .cacheGet key, hit => key = kind.cacheKey contextId → ∀ mermaid, hit = some mermaid →
      kind.current L g contextId = .ok mermaid
  | .query q, rows => ∀ found, rows = .ok found → q ∈ kind.reads g contextId → found = q.answer g
  | _, _ => True

def Gets {α : Type} (a : α) (r : Except MermaidError α) : Prop := r = .ok a ∨ ∃ e, r = .error (.other e)

variable {L kind contextId g}

variable {α : Type} {ids : List String} {op : GraphOperation} {s : DiagramStore}

theorem relies_runQuery_bind {ends : Except MermaidError α → Prop} (he : ∀ e, ends (.error (.other e)))
    {q : GraphQuery} (hq : q ∈ kind.reads g contextId) {f : q.Answer → MermaidM α}
    (hf : (f (q.answer g)).run.Relies (MayPerform L kind contextId g) (CanAnswer L kind contextId g) ends) :
    (runQuery q >>= f).run.Relies (MayPerform L kind contextId g) (CanAnswer L kind contextId g) ends := by
  refine ⟨trivial, fun r hr => ?_⟩
  match r with
  | .error failure => exact he _
  | .ok found =>
    obtain rfl := hr found rfl hq
    exact hf

theorem gets_error (e : ProvenanceError) : Gets a (.error (.other e)) := .inr ⟨e, rfl⟩

theorem relies_exportContextsCore (sc : String) (hr : ∀ q ∈ coreReads g ids, q ∈ kind.reads g contextId) :
    (exportContextsCore L sc ids).run.Relies (MayPerform L kind contextId g) (CanAnswer L kind contextId g)
      (Gets (exportedCore L g sc ids)) := by
  have hn := hr _ mem_cons_self
  have he := hr _ (mem_cons_of_mem _ mem_cons_self)
  have hex := hr _ (mem_cons_of_mem _ (mem_cons_of_mem _ mem_cons_self))
  unfold exportContextsCore exportedCore
  refine relies_runQuery_bind gets_error hn ?_
  dsimp only
  split
  · exact .inl rfl
  · refine relies_runQuery_bind gets_error he ?_
    split
    · exact .inl rfl
    · exact relies_runQuery_bind gets_error hex (.inl rfl)

/-- On the rows of a graph, the export of a request is that of the graph. -/
theorem relies_exporter (L : DiagramLibrary) (kind : DiagramKind) (contextId : String) (g : ProvGraph) :
    (kind.exporter L contextId).run.Relies (MayPerform L kind contextId g) (CanAnswer L kind contextId g)
      (Gets (kind.exported L g contextId)) := by
  have hf : ∀ {ids : List String} {gr : ExportedGraph} (e : MermaidError),
      Gets gr (.error e) → Gets (filterScopeMulti gr "a2a:context_id" ids) (.error e) := by
    rintro ids gr e (h | ⟨e, ⟨⟩⟩)
    · cases h
    · exact gets_error e
  cases kind with
  | context =>
    refine relies_bind (relies_exportContextsCore contextId fun q hq => hq) hf ?_
    rintro gr (⟨⟨⟩⟩ | ⟨e, ⟨⟩⟩)
    exact .inl rfl
  | full =>
    refine relies_runQuery_bind gets_error mem_cons_self ?_
    refine relies_bind (relies_exportContextsCore contextId fun q hq => mem_cons_of_mem _ hq) hf ?_
    rintro gr (⟨⟨⟩⟩ | ⟨e, ⟨⟩⟩)
    exact .inl rfl

/-- A request gets the current diagram, or fails. -/
def Answers (L : DiagramLibrary) (kind : DiagramKind) (contextId : String) (g : ProvGraph)
    (r : Except MermaidError String) : Prop := r = kind.current L g contextId ∨ ∃ e, r = .error (.other e)

theorem relies_mermaid (L : DiagramLibrary) (kind : DiagramKind) (contextId : String) (g : ProvGraph) :
    (kind.mermaid L contextId).run.Relies (MayPerform L kind contextId g) (CanAnswer L kind contextId g)
      (Answers L kind contextId g) := by
  rw [mermaid_eq]
  refine relies_request_bind trivial fun hit hh => ?_
  match hit with
  | some c => exact .inl (hh rfl c rfl).symm
  | none =>
    refine relies_bind (relies_exporter L kind contextId g) ?_ ?_
    · rintro e (h | ⟨e, ⟨⟩⟩)
      · cases h
      · exact .inr ⟨e, rfl⟩
    · rintro graph (⟨⟨⟩⟩ | ⟨e, ⟨⟩⟩)
      by_cases he : (kind.exported L g contextId).nodes.isEmpty = true
      · rw [if_pos he]
        exact .inl (by rw [current, if_pos he])
      · have hc : kind.current L g contextId = .ok (L.renderSequenceDiagram (kind.exported L g contextId)) := by
          rw [current, if_neg he]
        rw [if_neg he]
        exact relies_request_bind (fun _ => hc) fun _ _ => .inl hc.symm

/-! ### The queries of a diagram -/

/-- Every query of the diagram has the same rows in both graphs. -/
def SameReads (kind : DiagramKind) (contextId : String) (g g' : ProvGraph) : Prop :=
  ∀ q ∈ kind.reads g contextId, q.answer g' = q.answer g

theorem exportedCore_congr (h : ∀ q ∈ coreReads g ids, q.answer g' = q.answer g) (L : DiagramLibrary) (sc : String) :
    exportedCore L g' sc ids = exportedCore L g sc ids := by
  have hn := h _ mem_cons_self
  have he := h _ (mem_cons_of_mem _ mem_cons_self)
  have hex := h _ (mem_cons_of_mem _ (mem_cons_of_mem _ mem_cons_self))
  unfold exportedCore
  rw [hn]
  dsimp only
  rw [he, hex]

theorem current_congr (h : SameReads kind contextId g g') (L : DiagramLibrary) :
    kind.current L g' contextId = kind.current L g contextId := by
  have hi : kind.contextIds g' contextId = kind.contextIds g contextId := by
    cases kind with
    | context => rfl
    | full => exact congrArg (familyIds contextId) (h _ mem_cons_self)
  have hc : ∀ q ∈ coreReads g (kind.contextIds g contextId), q.answer g' = q.answer g := by
    cases kind with
    | context => exact h
    | full => exact fun q hq => h q (mem_cons_of_mem _ hq)
  have he : kind.exported L g' contextId = kind.exported L g contextId := by
    rw [exported, hi, exportedCore_congr hc, exported]
  rw [current, he, current]

/-- An entry under the key is the diagram of the graph. -/
def EntryCurrent (L : DiagramLibrary) (kind : DiagramKind) (contextId : String) (g : ProvGraph)
    (s : DiagramStore) : Prop :=
  ∀ mermaid, s.entry (kind.cacheKey contextId) = some mermaid → kind.current L g contextId = .ok mermaid

theorem EntryCurrent.reply (h : EntryCurrent L kind contextId g s) (hop : MayPerform L kind contextId g op) :
    EntryCurrent L kind contextId g (op.reply s).2 := by
  cases op with
  | cacheInsert key mermaid =>
    intro m hm
    obtain ⟨entries, hen, he⟩ := Option.bind_eq_some_iff.mp hm
    obtain ⟨old, ho, rfl⟩ := Option.map_eq_some_iff.mp hen
    by_cases hk : kind.cacheKey contextId = key
    · rw [hk, Function.update_self] at he
      cases he
      exact hop hk.symm
    · rw [Function.update_of_ne hk] at he
      exact h m (Option.bind_eq_some_iff.mpr ⟨old, ho, he⟩)
  | cacheInvalidate key =>
    intro m hm
    obtain ⟨entries, hen, he⟩ := Option.bind_eq_some_iff.mp hm
    obtain ⟨old, ho, rfl⟩ := Option.map_eq_some_iff.mp hen
    by_cases hk : kind.cacheKey contextId = key
    · rw [hk, Function.update_self] at he
      cases he
    · rw [Function.update_of_ne hk] at he
      exact h m (Option.bind_eq_some_iff.mpr ⟨old, ho, he⟩)
  | cacheGet | query | statement | write => exact h

/-- While what the diagram shows stays the same, so does what its requests rely on. -/
theorem EntryCurrent.serve (hs : SameReads kind contextId g s.graph) (h : EntryCurrent L kind contextId g s)
    (hop : MayPerform L kind contextId g op) (fa : Option (Fault Failure)) :
    CanAnswer L kind contextId g op (serveGraph fa op s).1 ∧
      EntryCurrent L kind contextId g (serveGraph fa op s).2 := by
  have han : CanAnswer L kind contextId g op (op.reply s).1 := by
    cases op with
    | cacheGet key =>
      rintro rfl
      exact h
    | query q =>
      rintro _ ⟨⟩ hq
      exact hs q hq
    | cacheInsert | cacheInvalidate | statement | write => trivial
  have hr : ∀ f answer, op.refusal f = some answer → CanAnswer L kind contextId g op answer := by
    intro f answer ha
    cases op with
    | query q =>
      cases ha
      exact nofun
    | cacheGet | cacheInsert | cacheInvalidate => cases ha
    | statement | write => trivial
  rcases faulty_cases GraphOperation.reply GraphOperation.refusal fa op s with
    heq | ⟨f, answer, ha, heq | heq⟩ <;> rw [serveGraph, heq]
  · exact ⟨han, h.reply hop⟩
  · exact ⟨hr f answer ha, h⟩
  · exact ⟨hr f answer ha, h.reply hop⟩

end Coherence

/-! ### What a call may enter -/

/-- A request enters a diagram under its own key only, an event enters nothing. -/
def DiagramCall.MayEnter : DiagramCall → GraphOperation → Prop
  | .diagram kind contextId, .cacheInsert key _ => key = kind.cacheKey contextId
  | .addEvent _, .cacheInsert _ _ => False
  | _, _ => True

section Uses

variable {P : GraphOperation → Prop}

theorem uses_runQuery (hq : ∀ q, P (.query q)) (q : GraphQuery) : Uses P (runQuery q) := by
  refine (uses_request (hq q)).bind fun r => ?_
  match r with
  | .ok r => exact uses_pure r
  | .error failure => exact uses_throw _

theorem uses_exportContextsCore (hq : ∀ q, P (.query q)) (L : DiagramLibrary) (sc : String)
    (c : List String) : Uses P (exportContextsCore L sc c) := by
  refine (uses_runQuery hq _).bind fun n => ?_
  split
  · exact uses_pure _
  · refine (uses_runQuery hq _).bind fun e => ?_
    dsimp only
    split
    · exact uses_pure _
    · exact (uses_runQuery hq _).bind fun _ => uses_pure _

theorem uses_exporter (hq : ∀ q, P (.query q)) (L : DiagramLibrary) (kind : DiagramKind) (contextId : String) :
    Uses P (kind.exporter L contextId) := by
  cases kind with
  | context => exact (uses_exportContextsCore hq L _ _).bind fun _ => uses_pure _
  | full =>
    exact (uses_runQuery hq _).bind fun _ => (uses_exportContextsCore hq L _ _).bind fun _ => uses_pure _

theorem uses_runStatements (hs : P .statement) (n : ℕ) : Uses P (runStatements n) := by
  induction n with
  | zero => exact uses_pure ()
  | succ n ih =>
    refine (uses_request hs).bind fun d => ?_
    match d with
    | .ok () => exact ih
    | .error failure => exact uses_throw _

theorem uses_runPlans (hw : ∀ pl, P (.write pl)) (p : List (ProvGraph → ProvGraph)) : Uses P (runPlans p) := by
  have hr : ∀ pl left, Uses P (runWriteWithRetry pl left) := by
    intro pl left
    induction left with
    | zero => exact uses_throw _
    | succ left ih =>
      refine (uses_request (hw pl)).bind fun w => ?_
      match w with
      | .ok () => exact uses_pure ()
      | .error failure =>
        dsimp only
        split_ifs
        · exact uses_throw _
        · exact ih
        · exact uses_throw _
  induction p with
  | nil => exact uses_pure ()
  | cons pl p ih => exact (hr pl _).bind fun _ => ih

end Uses

theorem uses_mermaid (L : DiagramLibrary) (kind : DiagramKind) (contextId : String) :
    Uses (DiagramCall.diagram kind contextId).MayEnter (kind.mermaid L contextId) := by
  rw [mermaid_eq]
  refine (uses_request trivial).bind fun hit => ?_
  match hit with
  | some c => exact uses_pure c
  | none =>
    refine (uses_exporter (fun _ => trivial) L kind contextId).bind fun gr => ?_
    split
    · exact uses_throw _
    · have ho : (DiagramCall.diagram kind contextId).MayEnter
          (.cacheInsert (kind.cacheKey contextId) (L.renderSequenceDiagram gr)) := rfl
      exact (uses_request ho).bind fun _ => uses_pure _

theorem uses_addEvent (ev : ProvEvent) : Uses (DiagramCall.addEvent ev).MayEnter (addEvent ev) := by
  refine (uses_runStatements trivial _).bind fun _ => ?_
  match ev.rejected with
  | some e => exact uses_throw e
  | none =>
    refine (uses_runPlans (fun _ => trivial) _).bind fun _ => (uses_runStatements trivial _).bind fun _ => ?_
    match ev.contextId with
    | some contextId => exact uses_request trivial
    | none => exact uses_pure ()

theorem all_program (L : DiagramLibrary) (c : DiagramCall) : (c.program L).All c.MayEnter := by
  cases c with
  | diagram kind contextId => exact (uses_mermaid L kind contextId).all.bind fun _ => trivial
  | addEvent e => exact (uses_addEvent e).all.bind fun _ => trivial

section Interleavings

variable {ι : Type} [DecidableEq ι] (L : DiagramLibrary) (calls : ι → DiagramCall) (s₀ : DiagramStore)

def diagramsAfter (moves : List (ι × Option (Fault Failure))) :
    Interleave.Pool DiagramStore (Program GraphOperation GraphOperation.Answer DiagramOutcome) ι :=
  Run.exec (poolStep serveGraph) ⟨s₀, fun i => (calls i).program L⟩ moves

/-- The key of a diagram has no entry, and no request that uses it is under way or for another one. -/
structure Idle (p : Interleave.Pool DiagramStore (Program GraphOperation GraphOperation.Answer DiagramOutcome) ι)
    (kind : DiagramKind) (contextId : String) : Prop where
  entry : p.shared.entry (kind.cacheKey contextId) = none
  requests : ∀ j kind' contextId', calls j = .diagram kind' contextId' →
    kind'.cacheKey contextId' = kind.cacheKey contextId → kind' = kind ∧ contextId' = contextId ∧
      (p.thread j = (calls j).program L ∨ ∃ outcome, p.thread j = .done outcome)

variable {L calls s₀} {earlier later : List (ι × Option (Fault Failure))} {i : ι} {kind : DiagramKind}
  {contextId : String}

theorem diagramsAfter_append (earlier later : List (ι × Option (Fault Failure))) :
    diagramsAfter L calls s₀ (earlier ++ later) =
      Run.exec (poolStep serveGraph) (diagramsAfter L calls s₀ earlier) later :=
  Run.exec_append _ _ _ _

/-- From then on, only the diagram of the graph is entered, and the request relies on nothing else. -/
theorem Idle.settled (hi : Idle L calls (diagramsAfter L calls s₀ earlier) kind contextId)
    (hc : calls i = .diagram kind contextId)
    (hs : (diagramsAfter L calls s₀ earlier).thread i = (calls i).program L) :
    let g := (diagramsAfter L calls s₀ earlier).shared.graph
    Settled (MayPerform L kind contextId g) (CanAnswer L kind contextId g)
      (fun j outcome => j = i → ∀ r, outcome = .diagram r → Answers L kind contextId g r)
      (EntryCurrent L kind contextId g)
      (diagramsAfter L calls s₀ earlier) := by
  intro g
  refine ⟨fun mermaid hm => absurd (hi.entry.symm.trans hm) nofun, fun j => ?_⟩
  have ha : ((diagramsAfter L calls s₀ earlier).thread j).All (calls j).MayEnter :=
    all_exec (P := fun j => (calls j).MayEnter) (fun j => all_program L (calls j)) earlier j
  by_cases ho : ∃ kind' contextId',
      calls j = .diagram kind' contextId' ∧ kind'.cacheKey contextId' = kind.cacheKey contextId
  · obtain ⟨kind', contextId', hj, hk⟩ := ho
    obtain ⟨rfl, rfl, ht | ⟨outcome, ht⟩⟩ := hi.requests j kind' contextId' hj hk
    · rw [ht, hj]
      refine (relies_mermaid L kind' contextId' g).bind fun r hr => ?_
      rintro - _ ⟨⟩
      exact hr
    · -- a request that has ended is not the one that starts
      rw [ht]
      rintro rfl
      have he := hs.symm.trans ht
      rw [hj] at he
      cases kind' <;> cases he
  · have hma : ∀ op, (calls j).MayEnter op → MayPerform L kind contextId g op := by
      intro op hop
      cases op with
      | cacheInsert key mermaid =>
        rintro rfl
        cases hj : calls j with
        | diagram kind' contextId' =>
          rw [hj] at hop
          exact absurd ⟨kind', contextId', hj, hop.symm⟩ ho
        | addEvent event =>
          rw [hj] at hop
          exact hop.elim
      | cacheGet | cacheInvalidate | query | statement | write => trivial
    refine (ha.imp hma).relies.imp ?_
    rintro outcome - rfl
    exact absurd ⟨kind, contextId, hc, rfl⟩ ho

/-- If, at some point after the last change of what a diagram shows, its key has no entry and no
request that uses it is under way, then a request that starts later gets the current diagram,
unless the database fails. -/
theorem diagram_current (hcall : calls i = .diagram kind contextId)
    (hstart : (diagramsAfter L calls s₀ earlier).thread i = (calls i).program L)
    (hidle : Idle L calls (diagramsAfter L calls s₀ earlier) kind contextId)
    (hsame : ∀ pre, pre <+: later → SameReads kind contextId (diagramsAfter L calls s₀ earlier).shared.graph
      (diagramsAfter L calls s₀ (earlier ++ pre)).shared.graph)
    {r : Except MermaidError String}
    (hdone : (diagramsAfter L calls s₀ (earlier ++ later)).thread i = .done (.diagram r)) :
    r = kind.current L (diagramsAfter L calls s₀ (earlier ++ later)).shared.graph contextId ∨
      ∃ e, r = .error (.other e) := by
  have ha : Run.Along (poolStep serveGraph)
      (fun p _ => SameReads kind contextId (diagramsAfter L calls s₀ earlier).shared.graph p.shared.graph)
      (diagramsAfter L calls s₀ earlier) later := by
    refine Run.along_of_forall_isPrefix _ fun pre h => ?_
    rw [← diagramsAfter_append]
    exact hsame pre h
  have hend := (hidle.settled hcall hstart).exec (fun f op s hok hinv hop => hinv.serve hok hop f) later ha
  have ht := hend.thread i
  rw [← diagramsAfter_append, hdone] at ht
  rw [current_congr (hsame later prefix_rfl)]
  exact ht rfl r rfl

end Interleavings

/-- A library whose diagrams show the number of nodes. -/
def countNodes : DiagramLibrary where
  parse nodeRows _ _ scope := ⟨nodeRows.map fun node => ⟨node.nodeId, node.label, []⟩, [], scope⟩
  renderSequenceDiagram graph := toString graph.nodes.length

/-- An event that adds a node to the context `c`. -/
def addsNode (nodeId : String) : ProvEvent where
  contextId := some "c"
  checks := 0
  rejected := none
  plans := [fun g => ⟨g.nodes ++ [⟨nodeId, "Message", .null⟩],
    g.edges ++ [⟨nodeId, "Message", contextEntityIdString "c", "Context", scopedTo, .null⟩]⟩]
  indexes := 0

def noDiagrams : DiagramStore := ⟨⟨[], []⟩, some fun _ => none⟩

/-- A request after an event, with nothing in between. -/
theorem diagram_current_after_event :
    let calls : Bool → DiagramCall := fun event => if event then .addEvent (addsNode "m1") else .diagram .context "c"
    let event : List (Bool × Option (Fault Failure)) := [(true, none), (true, none)]
    let d : List (Bool × Option (Fault Failure)) := [(false, none), (false, none), (false, none), (false, none)]
    .ok "1" = current countNodes (diagramsAfter countNodes calls noDiagrams (event ++ d)).shared.graph
      .context "c" ∨ ∃ e, (.ok "1" : Except MermaidError String) = .error (.other e) := by
  intro calls event d
  have hg : ∀ pre ∈ d.inits, (diagramsAfter countNodes calls noDiagrams (event ++ pre)).shared.graph =
      (diagramsAfter countNodes calls noDiagrams event).shared.graph := by decide +kernel
  have hd : ((diagramsAfter countNodes calls noDiagrams (event ++ d)).thread false).result? =
      some (.diagram (.ok "1")) := by decide +kernel
  refine @diagram_current Bool _ countNodes calls noDiagrams event d false .context "c" rfl rfl ⟨rfl, ?_⟩ ?_ _
    (eq_done_of_result? hd)
  · rintro (_ | _) kind' contextId' hc -
    · cases hc
      exact ⟨rfl, rfl, .inl rfl⟩
    · cases hc
  · intro pre h q hq
    rw [hg pre ((mem_inits pre d).mpr h)]

/-- A request, an event that adds a second node, and another request of the same kind. -/
def aroundEvent (kind : DiagramKind) : Fin 3 → DiagramCall
  | 1 => .addEvent (addsNode "m2")
  | _ => .diagram kind "c"

/-- Calls on a store with one node in the context, with a cache. -/
def runAroundEvent (kind : DiagramKind) (moves : List (Fin 3)) :
    Interleave.Pool DiagramStore (Program GraphOperation GraphOperation.Answer DiagramOutcome) (Fin 3) :=
  diagramsAfter countNodes (aroundEvent kind)
    ⟨(addsNode "m1").plans.foldl (fun g plan => plan g) ⟨[], []⟩, some fun _ => none⟩ (moves.map (·, none))

/-- No event removes the entry of a full diagram, so the second request gets the first one's. A
request for a context that has exported before the event and enters its diagram after it leaves
one that stays. -/
theorem diagram_stale_after_event :
    (let p := runAroundEvent .full [0, 0, 0, 0, 0, 1, 1, 2];
      (p.thread 1).result? = some (.addEvent (.ok ())) ∧ (p.thread 2).result? = some (.diagram (.ok "1")) ∧
        DiagramKind.current countNodes p.shared.graph .full "c" = .ok "2") ∧
    (let p := runAroundEvent .context [0, 0, 0, 1, 1, 0, 2];
      (p.thread 1).result? = some (.addEvent (.ok ())) ∧ (p.thread 2).result? = some (.diagram (.ok "1")) ∧
        DiagramKind.current countNodes p.shared.graph .context "c" = .ok "2") := by
  decide +kernel

end AgentiumOs.Provenance
