import AgentiumOs.Repository.Entry
import AgentiumOs.Lib.Script

/-! The tables of the repository and the statements the store runs on them. A `CREATE`
that a unique index refuses stores nothing; its error is in a response that nobody
looks at. The hash, the source and the parentage of a row are the values their columns
encode. -/

namespace AgentiumOs.Repository

open Lib Lib.Program Lib.Script

structure EntryRow where
  hash : ContentHash
  agentName : String
  version : UInt32
  generation : Generation
  parentage : Parentage
  source : SourceBundle
  changeRationale : String
  createdAt : Timestamp

/-- The columns of the index `idx_entries_name_version`. -/
def EntryRow.nameVersion (row : EntryRow) : String × UInt32 := (row.agentName, row.version)

structure Store where
  entries : List EntryRow
  tags : List (ContentHash × Tag)
  edges : List LineageEdge
  hash_unique : (entries.map EntryRow.hash).Nodup
  version_unique : (entries.map EntryRow.nameVersion).Nodup
  tag_unique : tags.Nodup
  edge_unique : (edges.map LineageEdge.id).Nodup

namespace Store

def empty : Store := ⟨[], [], [], List.nodup_nil, List.nodup_nil, List.nodup_nil, List.nodup_nil⟩

def Accepts (s : Store) (row : EntryRow) : Prop :=
  row.hash ∉ s.entries.map EntryRow.hash ∧ row.nameVersion ∉ s.entries.map EntryRow.nameVersion

instance (s : Store) (row : EntryRow) : Decidable (s.Accepts row) := by
  unfold Accepts
  infer_instance

def createEntry (s : Store) (row : EntryRow) : Store :=
  if h : s.Accepts row then
    { s with
      entries := s.entries ++ [row]
      hash_unique := by
        rw [List.map_append, List.map_singleton, ← List.concat_eq_append]
        exact s.hash_unique.concat h.1
      version_unique := by
        rw [List.map_append, List.map_singleton, ← List.concat_eq_append]
        exact s.version_unique.concat h.2 }
  else s

def createTag (s : Store) (hash : ContentHash) (tag : Tag) : Store :=
  if h : (hash, tag) ∈ s.tags then s
  else
    { s with
      tags := s.tags ++ [(hash, tag)]
      tag_unique := by
        rw [← List.concat_eq_append]
        exact s.tag_unique.concat h }

def createEdge (s : Store) (edge : LineageEdge) : Store :=
  if h : edge.id ∈ s.edges.map LineageEdge.id then s
  else
    { s with
      edges := s.edges ++ [edge]
      edge_unique := by
        rw [List.map_append, List.map_singleton, ← List.concat_eq_append]
        exact s.edge_unique.concat h }

def rowByHash (s : Store) (hash : ContentHash) : Option EntryRow :=
  s.entries.find? fun row => row.hash = hash

def rowByVersion (s : Store) (name : String) (version : UInt32) : Option EntryRow :=
  s.entries.find? fun row => row.nameVersion = (name, version)

/-- `ORDER BY version DESC LIMIT 1`. -/
def latestRow (s : Store) (name : String) : Option EntryRow :=
  (s.entries.filter fun row => row.agentName = name).argmax fun row => row.version.toNat

/-- `ORDER BY tag ASC`. -/
def tagsForHash (s : Store) (hash : ContentHash) : List Tag :=
  ((s.tags.filter fun row => row.1 = hash).map Prod.snd).insertionSort fun t u => t.text ≤ u.text

end Store

inductive Statement where
  | selectVersion (name : String)
  | selectDuplicate (hash : ContentHash)
  | createEntry (row : EntryRow)
  | createTag (hash : ContentHash) (tag : Tag)
  | selectByHash (hash : ContentHash)
  | selectByVersion (name : String) (version : UInt32)
  | selectLatest (name : String)
  | selectTags (hash : ContentHash)
  | createEdge (edge : LineageEdge)

def Statement.apply : Statement → Store → Store
  | createEntry row, s => s.createEntry row
  | createTag hash tag, s => s.createTag hash tag
  | createEdge edge, s => s.createEdge edge
  | selectVersion _, s | selectDuplicate _, s | selectByHash _, s | selectByVersion _ _, s
  | selectLatest _, s | selectTags _, s => s

abbrev RepositoryQuery (α : Type) := Query Statement String Store Failure α

def readError (message : String) : Failure := .returned (.storageRead message)

def writeError (message : String) : Failure := .returned (.storageWrite message)

def select {α : Type} (stmt : Statement) (read : Store → α) : RepositoryQuery α := query stmt read readError

def create (stmt : Statement) : RepositoryQuery Unit := query stmt (fun _ => ()) writeError

def decode {α : Type} (lead : String) : Except String α → RepositoryQuery α
  | .ok a => pure a
  | .error e => throw (readError (lead ++ e))

/-- The columns of a row are checked before its tags are read. -/
def entryFromRow (row : EntryRow) : RepositoryQuery RepositoryEntry := do
  let name ← decode "invalid agent_name: invalid agent name: " (AgentName.parse row.agentName)
  let version ← decode "invalid version: " (Version.new row.version)
  let changeRationale ← decode "entries.change_rationale empty"
    ((ChangeRationale.new row.changeRationale).mapError fun _ => "")
  let tags ← select (.selectTags row.hash) fun s => s.tagsForHash row.hash
  return {
    hash := row.hash
    versionRef := ⟨name, version⟩
    source := row.source
    parentage := row.parentage
    generation := row.generation
    changeRationale
    createdAt := row.createdAt
    tags }

def entryFromRow? : Option EntryRow → RepositoryQuery (Option RepositoryEntry)
  | none => return none
  | some row => do return some (← entryFromRow row)

def getByHash (hash : ContentHash) : RepositoryQuery (Option RepositoryEntry) := do
  entryFromRow? (← select (.selectByHash hash) fun s => s.rowByHash hash)

def getByVersion (name : AgentName) (version : Version) : RepositoryQuery (Option RepositoryEntry) := do
  entryFromRow? (← select (.selectByVersion name.text version.value)
    fun s => s.rowByVersion name.text version.value)

def getLatest (name : AgentName) : RepositoryQuery (Option RepositoryEntry) := do
  entryFromRow? (← select (.selectLatest name.text) fun s => s.latestRow name.text)

/-- `v as u32 + 1`, which wraps around in a release build, or one. -/
def nextVersion (latest : Option UInt32) : UInt32 :=
  match latest with
  | some version => version + 1
  | none => 1

structure Draft where
  hash : ContentHash
  nextVersion : UInt32
  source : SourceBundle

/-- The version is written into the manifest and the hash is taken of the result. A manifest
that is no object panics, and so does a path with a NUL. -/
def draft (H : Hashing) (entry : NewEntry) (nextVersion : UInt32) : Except Failure Draft :=
  match entry.source.withManifestVersion nextVersion with
  | none => .error .panicked
  | some source =>
      match source.computeHash H with
      | none => .error .panicked
      | some hash => .ok ⟨hash, nextVersion, source⟩

def NewEntry.row (entry : NewEntry) (draft : Draft) (createdAt : Timestamp) : EntryRow where
  hash := draft.hash
  agentName := entry.name.text
  version := draft.nextVersion
  generation := entry.generation
  parentage := entry.parentage
  source := draft.source
  changeRationale := entry.changeRationale.text
  createdAt := createdAt

def NewEntry.stored (entry : NewEntry) (draft : Draft) (version : Version) (createdAt : Timestamp) :
    RepositoryEntry where
  hash := draft.hash
  versionRef := ⟨entry.name, version⟩
  source := draft.source
  parentage := entry.parentage
  generation := entry.generation
  changeRationale := entry.changeRationale
  createdAt := createdAt
  tags := entry.tags

def createTags (stored : RepositoryEntry) : List Tag → RepositoryQuery RepositoryEntry
  | [] => return stored
  | tag :: tags => do
      attempt (.createTag stored.hash tag)
      createTags stored tags

/-- The response of the statement, which would say that an index refused the row, is dropped. -/
def storeEntry (createdAt : Timestamp) (entry : NewEntry) (draft : Draft) (version : Version) :
    RepositoryQuery RepositoryEntry := do
  create (.createEntry (entry.row draft createdAt))
  createTags (entry.stored draft version createdAt) entry.tags

def duplicateError (hash : ContentHash) (row : EntryRow) : RepositoryQuery RepositoryEntry := do
  let existingName ← decode "invalid existing agent_name: invalid agent name: " (AgentName.parse row.agentName)
  let existingVersion ← decode "invalid existing version: " (Version.new row.version)
  throw (.returned (.duplicateHash hash existingName existingVersion))

def checkDuplicate (createdAt : Timestamp) (entry : NewEntry) (draft : Draft) :
    RepositoryQuery RepositoryEntry := do
  match ← select (.selectDuplicate draft.hash) fun s => s.rowByHash draft.hash with
  | some row => duplicateError draft.hash row
  | none =>
      match Version.new draft.nextVersion with
      | .error e => throw (readError e)
      | .ok version => storeEntry createdAt entry draft version

/-- The clock is read once, between the two reads and the first write. -/
def insertEntry (H : Hashing) (createdAt : Timestamp) (entry : NewEntry) :
    RepositoryQuery RepositoryEntry := do
  let latest ← select (.selectVersion entry.name.text) fun s =>
    (s.latestRow entry.name.text).map EntryRow.version
  match draft H entry (nextVersion latest) with
  | .error failure => throw failure
  | .ok draft => checkDuplicate createdAt entry draft

/-- The statement after each edge ends the call when it fails. -/
def recordEdges : List LineageEdge → RepositoryQuery Unit
  | [] => return ()
  | edge :: edges => do
      create (.createEdge edge)
      recordEdges edges

end AgentiumOs.Repository
