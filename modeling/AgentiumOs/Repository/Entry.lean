import AgentiumOs.Repository.Hash

/-! Entries of the agent repository and how they are related. Names, rationales and
descriptions have constructors that check them, but a command that is read from a
request is not checked, so such a value may be invalid here too. -/

namespace AgentiumOs.Repository

open Lib
open Lib.Json (Value)

@[ext]
structure AgentName where
  text : String
  deriving DecidableEq

/-- `AgentName::from_str`; an error is the reason. -/
def AgentName.parse (s : String) : Except String AgentName :=
  if s.isEmpty then .error "name must not be empty"
  else if Text.startsWith s "-" || Text.endsWith s "-" then
    .error "name must not start or end with a hyphen"
  else if !s.toList.all fun c => c.isLower || c.isDigit || c == '-' then
    .error "name must be lowercase alphanumeric with hyphens only"
  else .ok ⟨s⟩

@[ext]
structure Version where
  value : UInt32
  ne_zero : value ≠ 0
  deriving DecidableEq

def Version.new (value : UInt32) : Except String Version :=
  if h : value = 0 then
    .error ("invalid version: version must be >= 1, got " ++ toString value.toNat)
  else .ok ⟨value, h⟩

structure Generation where
  value : UInt32
  deriving DecidableEq

namespace Generation

def root : Generation := ⟨0⟩

def increment (g : Generation) : Generation := ⟨g.value + 1⟩

end Generation

@[ext]
structure VersionRef where
  name : AgentName
  version : Version
  deriving DecidableEq

def VersionRef.display (v : VersionRef) : String :=
  v.name.text ++ "@" ++ "v" ++ toString v.version.value.toNat

structure SourceFile where
  path : String
  content : String

/-- A manifest, none of whose objects has two members of one key. -/
structure ManifestSource where
  value : Value
  uniqueKeys : value.UniqueKeys

namespace ManifestSource

def tags (m : ManifestSource) : List String :=
  (((m.value.get "tags").bind Value.asArray).getD []).filterMap Value.asStr

/-- A manifest that is neither an object nor null panics. -/
def withVersion (m : ManifestSource) (version : UInt32) : Option ManifestSource :=
  (m.value.setMember "version" (.string (toString version.toNat))).attach.map fun v =>
    ⟨v.1, m.uniqueKeys.setMember (.string _) v.2⟩

end ManifestSource

structure SourceBundle where
  manifest : ManifestSource
  tsSources : List SourceFile
  bamlSources : List SourceFile

namespace SourceBundle

def withManifestVersion (b : SourceBundle) (version : UInt32) : Option SourceBundle :=
  (b.manifest.withVersion version).map fun manifest => { b with manifest }

def hashFile (f : SourceFile) : HashInputFile := ⟨f.path, f.content⟩

def hashInput (b : SourceBundle) : HashInput where
  manifest := b.manifest.value
  tsFiles := b.tsSources.map hashFile
  bamlFiles := b.bamlSources.map hashFile

def computeHash (H : Hashing) (b : SourceBundle) : Option ContentHash := hash H b.hashInput

end SourceBundle

structure ChangeRationale where
  text : String
  deriving DecidableEq

def ChangeRationale.new (s : String) : Except String ChangeRationale :=
  if (Text.trim s).isEmpty then .error "change rationale must not be empty" else .ok ⟨s⟩

structure EdgeDescription where
  text : String
  deriving DecidableEq

structure Timestamp where
  text : String

structure Tag where
  text : String
  deriving DecidableEq

structure LineageEdgeId where
  text : String
  deriving DecidableEq

/-- A fork derives the entry from the source; an influence only refers to it. -/
inductive LineageKind where
  | fork
  | influence
  deriving DecidableEq

structure LineageEdge where
  id : LineageEdgeId
  source : ContentHash
  target : ContentHash
  kind : LineageKind
  description : EdgeDescription
  deriving DecidableEq

structure InfluenceRef where
  source : ContentHash
  description : EdgeDescription
  deriving DecidableEq

inductive Parentage where
  | original
  | forked (parent : ContentHash) (description : EdgeDescription)
  | synthesized (influences : List InfluenceRef)
  deriving DecidableEq

/-- A draft; the store assigns its version and its hash. -/
structure NewEntry where
  name : AgentName
  source : SourceBundle
  parentage : Parentage
  generation : Generation
  changeRationale : ChangeRationale
  tags : List Tag

structure RepositoryEntry where
  hash : ContentHash
  versionRef : VersionRef
  source : SourceBundle
  parentage : Parentage
  generation : Generation
  changeRationale : ChangeRationale
  createdAt : Timestamp
  tags : List Tag

/-- The errors that the modelled functions return. -/
inductive RepositoryError where
  | duplicateHash (hash : ContentHash) (existingName : AgentName) (existingVersion : Version)
  | forkParentNotFound (parentHash : ContentHash)
  | influenceSourceNotFound (sourceHash : ContentHash)
  | storageWrite (source : String)
  | storageRead (source : String)
  deriving DecidableEq

inductive Failure where
  | returned (err : RepositoryError)
  | panicked
  deriving DecidableEq

end AgentiumOs.Repository
