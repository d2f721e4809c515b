import AgentiumOs.Repository.Store

/-! Publishing and forking. A command is checked against the entries it refers to, its
entry is inserted, and the lineage edges are recorded last, since they need the hash
that the store assigned. -/

namespace AgentiumOs.Repository

open Lib Lib.Program Lib.Script

inductive PublishOrigin where
  | original
  | iteration
  | influenced (influences : List InfluenceRef)

structure PublishCommand where
  name : AgentName
  source : SourceBundle
  rationale : ChangeRationale
  origin : PublishOrigin

structure ForkCommand where
  sourceHash : ContentHash
  newName : AgentName
  source : SourceBundle
  rationale : ChangeRationale
  forkDescription : EdgeDescription
  tags : List Tag

structure PublishResult where
  hash : ContentHash
  versionRef : VersionRef
  generation : Generation
  deriving DecidableEq

def RepositoryEntry.result (stored : RepositoryEntry) : PublishResult :=
  ⟨stored.hash, stored.versionRef, stored.generation⟩

/-- What a call takes from its surroundings: the time, and its random identifiers in turn. -/
structure Surroundings where
  now : Timestamp
  newUuid : ℕ → String

structure EdgeDescriptor where
  source : ContentHash
  kind : LineageKind
  description : EdgeDescription

/-- What an origin says about the entry to be published. -/
structure Derivation where
  parentage : Parentage
  generation : Generation
  edgeDescriptors : List EdgeDescriptor

def manifestTags (source : SourceBundle) : List Tag := source.manifest.tags.map Tag.mk

/-- Every source must be there; the greatest of their generations and `maxGen`. -/
def greatestGeneration (maxGen : Generation) : List InfluenceRef → RepositoryQuery Generation
  | [] => return maxGen
  | inf :: influences => do
      match ← getByHash inf.source with
      | some e => greatestGeneration (if maxGen.value < e.generation.value then e.generation else maxGen) influences
      | none => throw (.returned (.influenceSourceNotFound inf.source))

def derivation (name : AgentName) : PublishOrigin → RepositoryQuery Derivation
  | .original => return ⟨.original, .root, []⟩
  | .iteration => do
      match ← getLatest name with
      | some prev =>
          let desc : EdgeDescription := ⟨"Iteration from " ++ prev.versionRef.display⟩
          return ⟨.forked prev.hash desc, prev.generation, [⟨prev.hash, .fork, desc⟩]⟩
      | none => return ⟨.original, .root, []⟩
  | .influenced influences => do
      let maxGen ← greatestGeneration .root influences
      return ⟨.synthesized influences, maxGen.increment,
        influences.map fun inf => ⟨inf.source, .influence, inf.description⟩⟩

def lineageEdges (newUuid : ℕ → String) (target : ContentHash) (descriptors : List EdgeDescriptor) :
    List LineageEdge :=
  descriptors.mapIdx fun i d => ⟨⟨newUuid i⟩, d.source, target, d.kind, d.description⟩

/-- The entry is inserted and then its edges are recorded. -/
def insertWithEdges (H : Hashing) (env : Surroundings) (entry : NewEntry)
    (descriptors : List EdgeDescriptor) : RepositoryQuery PublishResult := do
  let stored ← insertEntry H env.now entry
  recordEdges (lineageEdges env.newUuid stored.hash descriptors)
  return stored.result

def publish (H : Hashing) (env : Surroundings) (cmd : PublishCommand) : RepositoryQuery PublishResult := do
  let d ← derivation cmd.name cmd.origin
  insertWithEdges H env
    { name := cmd.name
      source := cmd.source
      parentage := d.parentage
      generation := d.generation
      changeRationale := cmd.rationale
      tags := manifestTags cmd.source } d.edgeDescriptors

def fork (H : Hashing) (env : Surroundings) (cmd : ForkCommand) : RepositoryQuery PublishResult := do
  match ← getByHash cmd.sourceHash with
  | none => throw (.returned (.forkParentNotFound cmd.sourceHash))
  | some sourceEntry =>
      insertWithEdges H env
        { name := cmd.newName
          source := cmd.source
          parentage := .forked cmd.sourceHash cmd.forkDescription
          generation := sourceEntry.generation.increment
          changeRationale := cmd.rationale
          tags := cmd.tags } [⟨cmd.sourceHash, .fork, cmd.forkDescription⟩]

inductive RepositoryOp where
  | publish (cmd : PublishCommand)
  | fork (cmd : ForkCommand)

def RepositoryOp.query (H : Hashing) (env : Surroundings) : RepositoryOp → RepositoryQuery PublishResult
  | .publish cmd => Repository.publish H env cmd
  | .fork cmd => Repository.fork H env cmd

/-- A call, with what surrounds it and the failures of the store during it. -/
structure RepositoryCall where
  op : RepositoryOp
  env : Surroundings
  faults : List (Option (Fault String))

def RepositoryCall.perform (H : Hashing) (call : RepositoryCall) (s : Store) :
    Except Failure PublishResult × Connection Statement String Store :=
  Program.perform (execute Statement.apply) (call.op.query H call.env) ⟨s, call.faults, []⟩

def repositoryStep (H : Hashing) (s : Store) (call : RepositoryCall) : Store × Except Failure PublishResult :=
  ((call.perform H s).2.store, (call.perform H s).1)

end AgentiumOs.Repository
