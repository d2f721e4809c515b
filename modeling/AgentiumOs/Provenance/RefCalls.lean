import AgentiumOs.Provenance.RefStore

/-! The calls that draw references: programs over the statements of the store, with their retries
and their errors. -/

namespace AgentiumOs.Provenance

open Lib Lib.Program
open Lib.Json (Value)
open Tools (ShortRef)
open Archive (ArchiveEntry RenderedContent historyStableKey)

/-! ### Archived entries as JSON -/

def entryToJson (entry : ArchiveEntry) : Value :=
  .object [
    ("tool_name", .string entry.toolName),
    ("summary", (entry.summary.map Value.string).getD .null),
    ("action_identity", (entry.actionIdentity.map Value.string).getD .null),
    ("activity_anchor", .string entry.activityAnchor),
    ("source", .string entry.source),
    ("rendered_lines", .array (entry.content.lines.map Value.string))]

def entryFromJson (v : Value) : Except ProvenanceError ArchiveEntry := do
  let text (key : String) : Option String := (v.get key).bind Value.asStr
  let some toolName := text "tool_name" | throw (.corruptArchiveEntry "missing tool_name")
  let summary := ArchiveEntry.nonBlank (text "summary")
  let actionIdentity := ArchiveEntry.nonBlank (text "action_identity")
  let some activityAnchor := text "activity_anchor" | throw (.corruptArchiveEntry "missing activity_anchor")
  let source := (text "source").getD "tool_result"
  let some lines := (v.get "rendered_lines").bind Value.asArray
    | throw (.corruptArchiveEntry "missing or invalid rendered_lines array")
  let content := RenderedContent.fromLines (lines.filterMap Value.asStr)
  return (ArchiveEntry.new content toolName summary activityAnchor source).withActionIdentity actionIdentity

/-- What is read of a stored entry: blank texts and the signature of the send are lost. -/
def readBack (entry : ArchiveEntry) : ArchiveEntry :=
  { entry with
    summary := ArchiveEntry.nonBlank entry.summary
    actionIdentity := ArchiveEntry.nonBlank entry.actionIdentity
    sendSignature := none }

theorem entryFromJson_entryToJson (e : ArchiveEntry) : entryFromJson (entryToJson e) = .ok (readBack e) := by
  have hl : (e.content.lines.map Value.string).filterMap Value.asStr = e.content.lines := by
    rw [List.filterMap_map]
    exact List.filterMap_some
  have ht : ∀ text : Option String, ((text.map Value.string).getD .null).asStr = text := by
    intro text
    cases text <;> rfl
  have hb : ∀ text, ArchiveEntry.nonBlank (ArchiveEntry.nonBlank text) = ArchiveEntry.nonBlank text := by
    simp [ArchiveEntry.nonBlank]
  have hsu : (entryToJson e).get "summary" = some ((e.summary.map Value.string).getD .null) := rfl
  have ha : (entryToJson e).get "action_identity" =
      some ((e.actionIdentity.map Value.string).getD .null) := rfl
  have hr : (entryToJson e).get "rendered_lines" = some (.array (e.content.lines.map Value.string)) := rfl
  simp only [entryFromJson, hsu, ha, hr, Option.bind_some, ht,
    Value.asArray, hl, RenderedContent.fromLines_lines, ArchiveEntry.new, ArchiveEntry.withActionIdentity, hb]
  rfl

abbrev RefM := ExceptT ProvenanceError (Program RefOperation RefOperation.Answer)

def ask (op : RefOperation) : RefM op.Answer := request op

/-- `map_surreal_error` of a failed query or statement. -/
def checkAndTakeZero {α : Type} : Except Failure α → RefM α
  | .ok rows => return rows
  | .error failure => throw (.storage failure.error)

def toU32 (activityAnchor reason : String) (n : ℕ) : RefM ℕ :=
  if n < 2 ^ 32 then return n else throw (.invalidEvent activityAnchor (reason ++ toString n))

def writeConflictMaxAttempts : ℕ := 6

def archiveGetRefForActivityAnchor (contextId activityAnchor : String) : RefM (Option ShortRef) := do
  let rows : Except Failure (Option (ℕ × ℕ)) ← ask (.selectRef contextId activityAnchor)
  match ← checkAndTakeZero rows with
  | none => return none
  | some (p, l) =>
      let archivePrefix ← toU32 activityAnchor "archive_prefix overflow: " p
      let archiveLocal ← toU32 activityAnchor "archive_local overflow: " l
      return some ⟨archivePrefix, archiveLocal⟩

def selectPrefix (contextId agentId : String) : RefM (Option ℕ) := do
  let rows : Except Failure (Option ℕ) ← ask (.selectPrefix contextId agentId)
  match ← checkAndTakeZero rows with
  | none => return none
  | some p => return some (← toU32 "archive_prefix" "archive_prefix overflow: " p)

def rememberPrefix (contextId agentId : String) (p : ℕ) : RefM ℕ := do
  let _ : Unit ← ask (.cachePrefix contextId agentId p)
  return p

/-- The prefix after the greatest of the context. -/
def nextPrefix : Option ℕ → RefM ℕ
  | none => return 1
  | some m => do
      let maxP ← toU32 "archive_prefix" "math::max(archive_prefix) out of u32 range: " m
      if maxP + 1 < 2 ^ 32 then return maxP + 1
      else throw (.invalidEvent "archive_prefix"
        ("archive_prefix assignment would overflow u32 (max was " ++ toString maxP ++ ")"))

/-- A prefix is inserted, with so many attempts left. -/
def mintPrefix (contextId agentId : String) : ℕ → RefM ℕ
  | 0 => throw (.contention "archive_ensure_prefix: exhausted retries")
  | left + 1 => do
      let rows : Except Failure (Option ℕ) ← ask (.selectMaxPrefix contextId)
      let nextP ← nextPrefix (← checkAndTakeZero rows)
      let inserted : Except Failure ℕ ← ask (.insertPrefix ⟨contextId, agentId, nextP⟩)
      match inserted with
      | .ok p => rememberPrefix contextId agentId (← toU32 "archive_prefix" "archive_prefix overflow: " p)
      | .error (.statement _) =>
          -- another writer took the prefix, or inserted one for the agent
          match ← selectPrefix contextId agentId with
          | some p => rememberPrefix contextId agentId p
          | none => mintPrefix contextId agentId left
      | .error (.query e) =>
          if isTransactionConflict e then
            if left = 0 then throw (.contention e.message) else mintPrefix contextId agentId left
          else throw (.storage e)

def archiveEnsurePrefix (contextId agentId : String) : RefM ℕ := do
  let hit : Option ℕ ← ask (.cachedPrefix contextId agentId)
  match hit with
  | some p => return p
  | none =>
      match ← selectPrefix contextId agentId with
      | some p => rememberPrefix contextId agentId p
      | none => mintPrefix contextId agentId writeConflictMaxAttempts

section Uses

variable {P : RefOperation → Prop}

theorem uses_checkAndTakeZero (ro : Except Failure α) : Uses P (checkAndTakeZero ro) := by
  cases ro with
  | ok ro => exact uses_pure ro
  | error f => exact uses_throw _

theorem uses_toU32 (aa re : String) (n : ℕ) : Uses P (toU32 aa re n) := by
  unfold toU32
  split
  · exact uses_pure n
  · exact uses_throw _

variable (c : String) (ai : String)

theorem uses_selectPrefix : Uses (RefOperation.OnPrefixes c) (selectPrefix c ai) := by
  refine (uses_request (by rfl)).bind fun rows => (uses_checkAndTakeZero rows).bind fun found => ?_
  cases found with
  | none => exact uses_pure _
  | some p => exact (uses_toU32 _ _ p).bind fun p => uses_pure (some p)

theorem uses_rememberPrefix (p : ℕ) : Uses (RefOperation.OnPrefixes c) (rememberPrefix c ai p) :=
  (uses_request (by rfl)).bind fun _ => uses_pure p

theorem uses_nextPrefix (f : Option ℕ) : Uses P (nextPrefix f) := by
  cases f with
  | none => exact uses_pure 1
  | some m =>
    refine (uses_toU32 _ _ m).bind fun maxP => ?_
    split
    · exact uses_pure _
    · exact uses_throw _

theorem uses_mintPrefix (left : ℕ) : Uses (RefOperation.OnPrefixes c) (mintPrefix c ai left) := by
  induction left with
  | zero => exact uses_throw _
  | succ left ih =>
    refine (uses_request (by rfl)).bind fun rows => (uses_checkAndTakeZero rows).bind fun found => ?_
    refine (uses_nextPrefix found).bind fun nextP => (uses_request (by rfl)).bind fun i => ?_
    match i with
    | .ok p => exact (uses_toU32 _ _ p).bind fun p => uses_rememberPrefix c ai p
    | .error (.statement _) =>
      refine (uses_selectPrefix c ai).bind fun found => ?_
      cases found with
      | none => exact ih
      | some p => exact uses_rememberPrefix c ai p
    | .error (.query e) =>
      dsimp only
      split_ifs
      · exact uses_throw _
      · exact ih
      · exact uses_throw _

theorem uses_archiveEnsurePrefix : Uses (RefOperation.OnPrefixes c) (archiveEnsurePrefix c ai) := by
  refine (uses_request (by rfl)).bind fun hit => ?_
  match hit with
  | some p => exact uses_pure p
  | none =>
    refine (uses_selectPrefix c ai).bind fun found => ?_
    cases found with
    | none => exact uses_mintPrefix c ai _
    | some p => exact uses_rememberPrefix c ai p

end Uses

/-- A counter is increased, or created if there is none; `field` and `caller` are for the errors. -/
def nextNumber (key : CounterKey) (activityAnchor field caller : String) : ℕ → RefM ℕ
  | 0 => throw (.contention (caller ++ ": exhausted retries"))
  | left + 1 => do
      let updated : Except Failure (Option ℕ) ← ask (.updateCounter key)
      match updated with
      | .ok (some n) => toU32 activityAnchor (field ++ " overflow: ") n
      | .error (.query e) =>
          if isTransactionConflict e then
            if left = 0 then throw (.contention e.message) else nextNumber key activityAnchor field caller left
          else throw (.storage e)
      | .ok none | .error (.statement _) =>
          let created : Except Failure ℕ ← ask (.createCounter key)
          match created with
          | .ok n => toU32 activityAnchor (field ++ " overflow: ") n
          | .error failure =>
              if isTransactionConflict failure.error || isDuplicateRecordWrite failure.error then
                nextNumber key activityAnchor field caller left
              else throw (.storage failure.error)

def archiveNextLocal (contextId : String) (archivePrefix : ℕ) : RefM ℕ :=
  nextNumber (.archiveLocal contextId archivePrefix) "archive_local" "next_local" "archive_next_local"
    writeConflictMaxAttempts

def sessionRefNext (contextId : String) : RefM ℕ :=
  nextNumber (.sessionRef contextId) "session_ref_counter" "next_ref" "session_ref_next" writeConflictMaxAttempts

def bodyRow (contextId : String) (archiveRef : ShortRef) (agentId activityAnchor : String) (entry : ArchiveEntry) :
    BodyRow :=
  ⟨contextId, agentId, archiveRef.table, archiveRef.index, activityAnchor, entryToJson entry⟩

def archivePutBody (contextId : String) (archiveRef : ShortRef) (agentId activityAnchor : String)
    (entry : ArchiveEntry) : RefM Unit := do
  let rows : Except Failure Unit ← ask (.upsertBody (bodyRow contextId archiveRef agentId activityAnchor entry))
  checkAndTakeZero rows

def archiveGetBody (contextId : String) (archiveRef : ShortRef) : RefM (Option ArchiveEntry) := do
  let rows : Except Failure (Option Value) ← ask (.selectBody contextId archiveRef.table archiveRef.index)
  match ← checkAndTakeZero rows with
  | none => return none
  | some v => return some (← liftExcept (entryFromJson v))

variable {contextId : String} {r : ShortRef} {s : RefStore}

theorem perform_archiveGetBody_none (h : s.bodies.table.row (contextId, r.table, r.index) = none) :
    perform (serve none) (archiveGetBody contextId r) s = (.ok none, s) := by
  have hr : serve none (.selectBody contextId r.table r.index) s = (.ok none, s) := by
    simp [serve_none, RefOperation.reply, h]
  rw [archiveGetBody, ask, perform_bind, perform_request, hr]
  rfl

theorem perform_archiveGetBody_some (h : s.bodies.table.row (contextId, r.table, r.index) = some row)
    (he : entryFromJson row.entry = .ok e) :
    perform (serve none) (archiveGetBody contextId r) s = (.ok (some e), s) := by
  have hr : serve none (.selectBody contextId r.table r.index) s = (.ok (some row.entry), s) := by
    simp [serve_none, RefOperation.reply, h]
  rw [archiveGetBody, ask, perform_bind, perform_request, hr]
  dsimp only
  rw [perform_bind, checkAndTakeZero, perform_pure]
  dsimp only
  rw [he]
  rfl

/-- The reference of an anchor that has a body already, or a new one with its body. -/
def archiveAllocateAndPut (contextId agentId activityAnchor : String) (entry : ArchiveEntry) : RefM ShortRef := do
  match ← archiveGetRefForActivityAnchor contextId activityAnchor with
  | some existing => return existing
  | none =>
      let archivePrefix ← archiveEnsurePrefix contextId agentId
      let archiveLocal ← archiveNextLocal contextId archivePrefix
      let archiveRef : ShortRef := ⟨archivePrefix, archiveLocal⟩
      let put : RefM ShortRef := do
        archivePutBody contextId archiveRef agentId activityAnchor entry
        return archiveRef
      tryCatch put fun e => do
        if storageErrIsDuplicateRecordWrite e then
          match ← archiveGetRefForActivityAnchor contextId activityAnchor with
          | some existing => return existing
          | none => throw e
        else throw e

def historyRefLookup (contextId activityAnchor source : String) : RefM (Option ℕ) := do
  let rows : Except Failure (Option ℕ) ← ask (.selectHistory contextId activityAnchor source)
  match ← checkAndTakeZero rows with
  | none => return none
  | some n => return some (← toU32 activityAnchor "history_n overflow: " n)

/-- An insertion that fails for another reason than a registered line returns the number all the same. -/
def historyRefEnsure (contextId activityAnchor source : String) : RefM ℕ := do
  match ← historyRefLookup contextId activityAnchor source with
  | some n => return n
  | none =>
      let n ← sessionRefNext contextId
      let inserted : Except Failure ℕ ←
        ask (.insertHistory ⟨contextId, activityAnchor, source, historyStableKey ⟨activityAnchor, source⟩, n⟩)
      match inserted with
      | .ok rowN => toU32 activityAnchor "history_n overflow: " rowN
      | .error (.statement _) => return (← historyRefLookup contextId activityAnchor source).getD n
      | .error (.query e) =>
          if isDuplicateRecordWrite e then return (← historyRefLookup contextId activityAnchor source).getD n
          else throw (.storage e)

end AgentiumOs.Provenance
