import AgentiumOs.Archive.RefTable
import AgentiumOs.Lib.Program

/-! The references of the provenance store: prefixes of agents, counters, archived bodies and the
registry of history lines. Every statement runs by itself; between the statements of a call others
may run. The locks that a process holds around a call are left out: what holds of every
interleaving without them holds of those they allow. -/

namespace AgentiumOs.Provenance

open Lib Lib.Program
open Lib.Json (Value)
open Tools (ShortRef)
open Archive (ArchiveEntry RenderedContent)

/-- An error of the database is known by its message. -/
structure DbError where
  message : String
  deriving DecidableEq

def isTransactionConflict (e : DbError) : Bool := Text.contains e.message "Transaction conflict"

def isDuplicateRecordWrite (e : DbError) : Bool :=
  (Text.contains e.message "Database record" && Text.contains e.message "already exists") ||
    (Text.contains e.message "Database index" && Text.contains e.message "already contains")

inductive ProvenanceError where
  | storage (e : DbError)
  | contention (details : String)
  | invalidEvent (activityAnchor reason : String)
  | corruptArchiveEntry (reason : String)
  deriving DecidableEq

def storageErrIsDuplicateRecordWrite : ProvenanceError → Bool
  | .storage e => isDuplicateRecordWrite e
  | _ => false

/-- A query fails as a whole, or its statement does. -/
inductive Failure where
  | query (e : DbError)
  | statement (e : DbError)

def Failure.error : Failure → DbError
  | query e | statement e => e

structure PrefixRow where
  contextId : String
  agentId : String
  archivePrefix : ℕ

structure BodyRow where
  contextId : String
  agentId : String
  archivePrefix : ℕ
  archiveLocal : ℕ
  activityAnchor : String
  entry : Value

def BodyRow.place (row : BodyRow) : String × ℕ × ℕ := (row.contextId, row.archivePrefix, row.archiveLocal)

def BodyRow.anchorKey (row : BodyRow) : String × String := (row.contextId, row.activityAnchor)

structure Bodies where
  table : Table BodyRow.place
  anchor_unique : ∀ row ∈ table.rows, ∀ row' ∈ table.rows, row.anchorKey = row'.anchorKey → row = row'

structure HistoryRow where
  contextId : String
  activityAnchor : String
  source : String
  stableKey : String
  historyN : ℕ

def HistoryRow.lineKey (row : HistoryRow) : String × String × String := (row.contextId, row.activityAnchor, row.source)

/-- A counter is a record of its own, under a hash of these. -/
inductive CounterKey where
  | archiveLocal (contextId : String) (archivePrefix : ℕ)
  | sessionRef (contextId : String)
  deriving DecidableEq

structure RefStore where
  prefixes : List PrefixRow
  counters : CounterKey → Option ℕ
  bodies : Bodies
  history : List HistoryRow
  prefixCache : String × String → Option ℕ

namespace RefStore

def empty : RefStore := ⟨[], fun _ => none, ⟨.empty, by simp [Table.empty]⟩, [], fun _ => none⟩

def bodyOfAnchor (s : RefStore) (contextId activityAnchor : String) : Option BodyRow :=
  s.bodies.table.rows.find? fun row => row.anchorKey = (contextId, activityAnchor)

def prefixOf (s : RefStore) (contextId agentId : String) : Option ℕ :=
  (s.prefixes.find? fun row => row.contextId = contextId ∧ row.agentId = agentId).map PrefixRow.archivePrefix

def maxPrefix (s : RefStore) (contextId : String) : Option ℕ :=
  ((s.prefixes.filter fun row => row.contextId = contextId).map PrefixRow.archivePrefix).max?

def historyNumber (s : RefStore) (contextId activityAnchor source : String) : Option ℕ :=
  (s.history.find? fun row => row.lineKey = (contextId, activityAnchor, source)).map HistoryRow.historyN

end RefStore

def indexError (index : String) : DbError := ⟨"Database index " ++ index ++ " already contains the value"⟩

def recordError (record : String) : DbError := ⟨"Database record " ++ record ++ " already exists"⟩

/-- A body takes the place of the one of its record, unless its anchor has another. -/
def Bodies.upsert (b : Bodies) (row : BodyRow) : Option Bodies :=
  if h : ∀ other ∈ b.table.rows, other.anchorKey = row.anchorKey → other.place = row.place then
    some {
      table := b.table.upsert row
      anchor_unique := by
        intro x hx y hy hkey
        rcases Table.mem_upsert.mp hx with rfl | ⟨holdx, hxplace⟩
        · rcases Table.mem_upsert.mp hy with rfl | ⟨holdy, hyplace⟩
          · rfl
          · exact absurd (h y holdy hkey.symm) hyplace
        · rcases Table.mem_upsert.mp hy with rfl | ⟨holdy, -⟩
          · exact absurd (h x holdx hkey) hxplace
          · exact b.anchor_unique x holdx y holdy hkey }
  else none

theorem Bodies.upsert_table {b b' : Bodies} {row : BodyRow} (h : b.upsert row = some b') :
    b'.table = b.table.upsert row := by
  unfold upsert at h
  split at h
  · cases h
    rfl
  · cases h

inductive RefOperation where
  | cachedPrefix (contextId agentId : String)
  | cachePrefix (contextId agentId : String) (archivePrefix : ℕ)
  | selectRef (contextId activityAnchor : String)
  | selectPrefix (contextId agentId : String)
  | selectMaxPrefix (contextId : String)
  | insertPrefix (row : PrefixRow)
  | updateCounter (key : CounterKey)
  | createCounter (key : CounterKey)
  | upsertBody (row : BodyRow)
  | selectBody (contextId : String) (archivePrefix archiveLocal : ℕ)
  | selectHistory (contextId activityAnchor source : String)
  | insertHistory (row : HistoryRow)

namespace RefOperation

/-- What is read of the rows of a statement; the cache is in the process and does not fail. -/
abbrev Answer : RefOperation → Type
  | cachedPrefix _ _ => Option ℕ
  | cachePrefix _ _ _ => Unit
  | selectRef _ _ => Except Failure (Option (ℕ × ℕ))
  | selectPrefix _ _ => Except Failure (Option ℕ)
  | selectMaxPrefix _ => Except Failure (Option ℕ)
  | insertPrefix _ => Except Failure ℕ
  | updateCounter _ => Except Failure (Option ℕ)
  | createCounter _ => Except Failure ℕ
  | upsertBody _ => Except Failure Unit
  | selectBody _ _ _ => Except Failure (Option Value)
  | selectHistory _ _ _ => Except Failure (Option ℕ)
  | insertHistory _ => Except Failure ℕ

/-- What an operation answers, and what it does to the store. -/
def reply : (op : RefOperation) → RefStore → op.Answer × RefStore
  | cachedPrefix contextId agentId, s => (s.prefixCache (contextId, agentId), s)
  | cachePrefix contextId agentId p, s =>
      ((), { s with prefixCache := Function.update s.prefixCache (contextId, agentId) (some p) })
  | selectRef contextId activityAnchor, s =>
      (.ok ((s.bodyOfAnchor contextId activityAnchor).map fun row => (row.archivePrefix, row.archiveLocal)), s)
  | selectPrefix contextId agentId, s => (.ok (s.prefixOf contextId agentId), s)
  | selectMaxPrefix contextId, s => (.ok (s.maxPrefix contextId), s)
  | insertPrefix row, s =>
      if s.prefixes.any fun other => other.contextId = row.contextId ∧ other.agentId = row.agentId then
        (.error (.statement (indexError "idx_archive_prefix_ctx_agent")), s)
      else if s.prefixes.any fun other => other.contextId = row.contextId ∧ other.archivePrefix = row.archivePrefix then
        (.error (.statement (indexError "idx_archive_prefix_ctx_pfx")), s)
      else (.ok row.archivePrefix, { s with prefixes := s.prefixes ++ [row] })
  | updateCounter key, s =>
      match s.counters key with
      | some n => (.ok (some (n + 1)), { s with counters := Function.update s.counters key (some (n + 1)) })
      | none => (.ok none, s)
  | createCounter key, s =>
      match s.counters key with
      | some _ => (.error (.statement (recordError "of the counter")), s)
      | none => (.ok 1, { s with counters := Function.update s.counters key (some 1) })
  | upsertBody row, s =>
      match s.bodies.upsert row with
      | some bodies => (.ok (), { s with bodies })
      | none => (.error (.statement (indexError "idx_archive_body_anchor")), s)
  | selectBody contextId p l, s => (.ok ((s.bodies.table.row (contextId, p, l)).map BodyRow.entry), s)
  | selectHistory contextId activityAnchor source, s => (.ok (s.historyNumber contextId activityAnchor source), s)
  | insertHistory row, s =>
      if s.history.any fun other => other.lineKey = row.lineKey then
        (.error (.statement (indexError "idx_history_ref_ctx_anchor_source")), s)
      else (.ok row.historyN, { s with history := s.history ++ [row] })

section Counters

variable {s : RefStore} {key : CounterKey}

theorem reply_updateCounter_none (h : s.counters key = none) : (updateCounter key).reply s = (.ok none, s) := by
  simp [reply, h]

theorem reply_updateCounter_some (h : s.counters key = some n) : (updateCounter key).reply s =
      (.ok (some (n + 1)), { s with counters := Function.update s.counters key (some (n + 1)) }) := by
  simp [reply, h]

theorem reply_createCounter_none (h : s.counters key = none) :
    (createCounter key).reply s = (.ok 1, { s with counters := Function.update s.counters key (some 1) }) := by
  simp [reply, h]

end Counters

theorem reply_insertHistory_of_new (h : ∀ o ∈ s.history, o.lineKey ≠ row.lineKey) :
    (insertHistory row).reply s = (.ok row.historyN, { s with history := s.history ++ [row] }) := by
  rw [reply]
  simpa using h

theorem reply_upsertBody_of_new {s : RefStore} {row : BodyRow}
    (h : ∀ o ∈ s.bodies.table.rows, o.anchorKey ≠ row.anchorKey) :
    ∃ bodies, s.bodies.upsert row = some bodies ∧ (upsertBody row).reply s = (.ok (), { s with bodies }) := by
  have hu : ∃ bodies, s.bodies.upsert row = some bodies := by
    rw [Bodies.upsert, dif_pos fun o ho hk => absurd hk (h o ho)]
    exact ⟨_, rfl⟩
  obtain ⟨bodies, hb⟩ := hu
  exact ⟨bodies, hb, by simp [reply, hb]⟩

def refusal (failure : Failure) : (op : RefOperation) → Option op.Answer
  | cachedPrefix _ _ | cachePrefix _ _ _ => none
  | selectRef _ _ | selectPrefix _ _ | selectMaxPrefix _ | insertPrefix _ | updateCounter _ | createCounter _
  | upsertBody _ | selectBody _ _ _ | selectHistory _ _ _ | insertHistory _ => some (.error failure)

/-- The operations that look for a prefix of a context or give one out. -/
def OnPrefixes (contextId : String) : RefOperation → Prop
  | cachedPrefix c _ | cachePrefix c _ _ | selectPrefix c _ | selectMaxPrefix c => c = contextId
  | insertPrefix row => row.contextId = contextId
  | _ => False

end RefOperation

def serve : Option (Fault Failure) → (op : RefOperation) → RefStore → op.Answer × RefStore :=
  faulty RefOperation.reply RefOperation.refusal

theorem serve_none (op : RefOperation) (s : RefStore) : serve none op s = op.reply s := rfl

theorem serve_of_onPrefixes (h : op.OnPrefixes c) (f : Option (Fault Failure)) (s : RefStore) :
    (serve f op s).2.counters = s.counters ∧ (serve f op s).2.bodies = s.bodies ∧
      (serve f op s).2.history = s.history := by
  have hr : (op.reply s).2.counters = s.counters ∧ (op.reply s).2.bodies = s.bodies ∧
      (op.reply s).2.history = s.history := by
    cases op <;> first | exact h.elim | exact ⟨rfl, rfl, rfl⟩ | skip
    case insertPrefix row =>
      rw [RefOperation.reply]
      split_ifs <;> exact ⟨rfl, rfl, rfl⟩
  rcases faulty_cases RefOperation.reply RefOperation.refusal f op s with h | ⟨_, _, -, h | h⟩ <;> rw [serve, h]
  · exact hr
  · exact ⟨rfl, rfl, rfl⟩
  · exact hr

end AgentiumOs.Provenance
