import AgentiumOs.Lib.Json
import AgentiumOs.Lib.Table
import AgentiumOs.Lib.Word

/-! The table of scheduled callbacks and the statements the store runs on it. A
row is pending until it is cancelled or delivered; being emitted is a mark on a
pending row, which takes it out of the reach of deduplication and cancellation
but not of redelivery. -/

namespace AgentiumOs.Callbacks

open Lib
open Lib.Json (Value)

structure StoredCallback where
  callbackId : String
  sourceKey : String
  dedupeKey : Option String
  payload : Value
  scheduledForUnixMs : ℕ
  requestedAtUnixMs : ℕ
  contextId : Option String
  taskId : Option String
  schedulingContextId : Option String
  schedulingTaskId : Option String
  requestingAgentId : Option String
  requestingMessageId : Option String

structure ScheduleCallbackRequest where
  sourceKey : String
  dedupeKey : Option String
  payload : Value
  scheduledForUnixMs : ℕ
  requestedAtUnixMs : ℕ
  contextId : Option String
  taskId : Option String
  schedulingContextId : Option String
  schedulingTaskId : Option String
  requestingAgentId : Option String
  requestingMessageId : Option String

inductive CancelCallbackSelector where
  | callbackId (callbackId : String)
  | dedupeKey (sourceKey dedupeKey : String)

structure ScheduleCallbackResult where
  callback : StoredCallback
  created : Bool

inductive CallbackStatus where
  | pending
  | delivered
  | cancelled
  deriving DecidableEq

/-- A row of the table; its numbers are signed 64-bit columns. -/
structure CallbackRow where
  callbackId : String
  sourceKey : String
  dedupeKey : Option String
  payload : Value
  status : CallbackStatus
  scheduledForUnixMs : ℤ
  requestedAtUnixMs : ℤ
  emittedAtUnixMs : Option ℤ
  deliveredAtUnixMs : Option ℤ
  cancelledAtUnixMs : Option ℤ
  contextId : Option String
  taskId : Option String
  schedulingContextId : Option String
  schedulingTaskId : Option String
  requestingAgentId : Option String
  requestingMessageId : Option String
  deriving DecidableEq

open CallbackRow

abbrev CallbackTable := Table CallbackRow.callbackId

def asI64 (n : ℕ) : ℤ := Word.asSigned 64 n

def callbackRow (callback : StoredCallback) (status : CallbackStatus)
    (emittedAt deliveredAt cancelledAt : Option ℕ) : CallbackRow where
  callbackId := callback.callbackId
  sourceKey := callback.sourceKey
  dedupeKey := callback.dedupeKey
  payload := callback.payload
  status := status
  scheduledForUnixMs := asI64 callback.scheduledForUnixMs
  requestedAtUnixMs := asI64 callback.requestedAtUnixMs
  emittedAtUnixMs := emittedAt.map asI64
  deliveredAtUnixMs := deliveredAt.map asI64
  cancelledAtUnixMs := cancelledAt.map asI64
  contextId := callback.contextId
  taskId := callback.taskId
  schedulingContextId := callback.schedulingContextId
  schedulingTaskId := callback.schedulingTaskId
  requestingAgentId := callback.requestingAgentId
  requestingMessageId := callback.requestingMessageId

def parseCallbackRow (row : CallbackRow) : StoredCallback where
  callbackId := row.callbackId
  sourceKey := row.sourceKey
  dedupeKey := row.dedupeKey
  payload := row.payload
  scheduledForUnixMs := row.scheduledForUnixMs.toNat
  requestedAtUnixMs := row.requestedAtUnixMs.toNat
  contextId := row.contextId
  taskId := row.taskId
  schedulingContextId := row.schedulingContextId
  schedulingTaskId := row.schedulingTaskId
  requestingAgentId := row.requestingAgentId
  requestingMessageId := row.requestingMessageId

def newCallback (callbackId : String) (request : ScheduleCallbackRequest) : StoredCallback where
  callbackId := callbackId
  sourceKey := request.sourceKey
  dedupeKey := request.dedupeKey
  payload := request.payload
  scheduledForUnixMs := request.scheduledForUnixMs
  requestedAtUnixMs := request.requestedAtUnixMs
  contextId := request.contextId
  taskId := request.taskId
  schedulingContextId := request.schedulingContextId
  schedulingTaskId := request.schedulingTaskId
  requestingAgentId := request.requestingAgentId
  requestingMessageId := request.requestingMessageId

namespace CallbackRow

def isPending (row : CallbackRow) : Bool := row.status == .pending

/-- What deduplication and cancellation look for. -/
def isUnemitted (row : CallbackRow) : Bool := row.isPending && row.emittedAtUnixMs.isNone

def dueKey (row : CallbackRow) : ℤ ×ₗ String := toLex (row.scheduledForUnixMs, row.callbackId)

def isDue (now : ℕ) (row : CallbackRow) : Bool :=
  row.isPending && decide (row.scheduledForUnixMs ≤ asI64 now)

end CallbackRow

def findPendingCallbackById (table : CallbackTable) (callbackId : String) : Option StoredCallback :=
  (table.rows.find? fun row => row.callbackId == callbackId && row.isUnemitted).map parseCallbackRow

def findPendingCallbackByDedupe (table : CallbackTable) (sourceKey dedupeKey : String) : Option StoredCallback :=
  (table.rows.find? fun row => row.sourceKey == sourceKey && row.dedupeKey == some dedupeKey &&
    row.isUnemitted).map parseCallbackRow

def findSelected (table : CallbackTable) : CancelCallbackSelector → Option StoredCallback
  | .callbackId callbackId => findPendingCallbackById table callbackId
  | .dedupeKey sourceKey dedupeKey => findPendingCallbackByDedupe table sourceKey dedupeKey

def insertPending (table : CallbackTable) (callback : StoredCallback) : CallbackTable :=
  table.upsert (callbackRow callback .pending none none none)

def overwriteCancelled (table : CallbackTable) (callback : StoredCallback) (now : ℕ) : CallbackTable :=
  table.upsert (callbackRow callback .cancelled none none (some now))

def listDueCallbacks (table : CallbackTable) (now limit : ℕ) : List StoredCallback :=
  (((table.rows.filter (·.isDue now)).insertionSort fun a b => a.dueKey ≤ b.dueKey).take limit).map
    parseCallbackRow

def updateDelivered (table : CallbackTable) (callbackIds : List String) (now : ℕ) : CallbackTable :=
  table.update (fun row => decide (row.callbackId ∈ callbackIds) && row.isPending) (fun row => { row with
      status := .delivered, deliveredAtUnixMs := some (asI64 now), cancelledAtUnixMs := none })
    fun _ => rfl

def selectEmission (table : CallbackTable) (callbackIds : List String) : List CallbackRow :=
  table.rows.filter fun row => decide (row.callbackId ∈ callbackIds) && row.isPending

def eligibleIds (selected : List CallbackRow) : List String := selected.map (·.callbackId)

def firstEmissionIds (selected : List CallbackRow) : List String :=
  (selected.filter (·.emittedAtUnixMs.isNone)).map (·.callbackId)

def updateEmitted (table : CallbackTable) (callbackIds : List String) (now : ℕ) : CallbackTable :=
  table.update (fun row => decide (row.callbackId ∈ callbackIds) && row.isUnemitted)
    (fun row => { row with emittedAtUnixMs := some (asI64 now) }) fun _ => rfl

def lacksScope (row : CallbackRow) : Bool :=
  row.schedulingContextId.isNone || row.schedulingTaskId.isNone

def purgePreCutoverPendingCallbacks (table : CallbackTable) : CallbackTable :=
  table.delete fun row => row.isPending && lacksScope row

/-- `Uuid::new_v4`: the identifiers in the order they are minted, each of them once. -/
structure UuidSupply where
  mint : ℕ → String
  mint_injective : Function.Injective mint

/-- The table and the number of identifiers minted so far. -/
structure CallbackStore where
  table : CallbackTable
  minted : ℕ

namespace CallbackStore

variable (U : UuidSupply)

def new : CallbackStore := ⟨.empty, 0⟩

def insertNew (store : CallbackStore) (request : ScheduleCallbackRequest) : CallbackStore × StoredCallback :=
  let callback := newCallback (U.mint store.minted) request
  (⟨insertPending store.table callback, store.minted + 1⟩, callback)

def scheduleCallback (store : CallbackStore) (request : ScheduleCallbackRequest) :
    CallbackStore × ScheduleCallbackResult :=
  match request.dedupeKey.bind (findPendingCallbackByDedupe store.table request.sourceKey) with
  | some existing => (store, ⟨existing, false⟩)
  | none => ((store.insertNew U request).1, ⟨(store.insertNew U request).2, true⟩)

def cancelCallback (store : CallbackStore) (selector : CancelCallbackSelector) (now : ℕ) :
    CallbackStore × Option StoredCallback :=
  match findSelected store.table selector with
  | none => (store, none)
  | some callback => ({ store with table := overwriteCancelled store.table callback now }, some callback)

def markCallbacksDelivered (store : CallbackStore) (callbackIds : List String) (now : ℕ) : CallbackStore :=
  if callbackIds.isEmpty then store
  else { store with table := updateDelivered store.table callbackIds now }

def markCallbacksEmitted (store : CallbackStore) (callbackIds : List String) (now : ℕ) :
    CallbackStore × List String :=
  if callbackIds.isEmpty then (store, [])
  else
    let selected := selectEmission store.table callbackIds
    if (firstEmissionIds selected).isEmpty then (store, eligibleIds selected)
    else ({ store with table := updateEmitted store.table (firstEmissionIds selected) now }, eligibleIds selected)

end CallbackStore

/-! ### What a statement does to the row of a callback -/

/-- What a row may become: a cancelled row stays as it is, a delivered one stays
delivered, and an emission mark and the scheduling scope stay. -/
structure CallbackRow.Evolves (row row' : CallbackRow) : Prop where
  scope : lacksScope row' = lacksScope row
  emitted : row.emittedAtUnixMs.isSome → row'.emittedAtUnixMs.isSome
  cancelled : row.status = .cancelled → row' = row
  delivered : row.status = .delivered → row'.status = .delivered

/-- Every row stays in the table and only evolves. -/
def Evolves (t t' : CallbackTable) : Prop :=
  ∀ id row, t.row id = some row → ∃ row', t'.row id = some row' ∧ row.Evolves row'

theorem CallbackRow.Evolves.refl (row : CallbackRow) : row.Evolves row :=
  ⟨rfl, id, fun _ => rfl, id⟩

theorem CallbackRow.Evolves.trans {a b c : CallbackRow} (hab : a.Evolves b) (hbc : b.Evolves c) : a.Evolves c where
  scope := hbc.scope.trans hab.scope
  emitted h := hbc.emitted (hab.emitted h)
  cancelled h := by
    have hb := hab.cancelled h
    rw [hbc.cancelled (hb ▸ h), hb]
  delivered h := hbc.delivered (hab.delivered h)

theorem Evolves.refl (t : CallbackTable) : Evolves t t :=
  fun _ row h => ⟨row, h, .refl row⟩

variable {t u v : CallbackTable} {row' row : CallbackRow} {c : StoredCallback} {ci : List String}

theorem Evolves.trans (htu : Evolves t u) (huv : Evolves u v) : Evolves t v := by
  intro id row h
  obtain ⟨row', h', hr⟩ := htu id row h
  obtain ⟨row'', h'', hr'⟩ := huv id row' h'
  exact ⟨row'', h'', hr.trans hr'⟩

/-- A new or changed row under one key evolves the table when the old row evolves to it. -/
theorem evolves_upsert (h : ∀ row, t.row row'.callbackId = some row → row.Evolves row') :
    Evolves t (t.upsert row') := by
  intro id row hr
  rw [Table.row_upsert]
  split
  case isTrue hid =>
    subst hid
    exact ⟨row', rfl, h row hr⟩
  case isFalse => exact ⟨row, hr, .refl row⟩

variable {f : CallbackRow → CallbackRow} {p : CallbackRow → Bool} {now : ℕ}

theorem evolves_update (h : ∀ row, p row → row.Evolves (f row)) : Evolves t (t.update p f hk) := by
  intro id row hr
  rw [Table.row_update, hr]
  refine ⟨_, rfl, ?_⟩
  show row.Evolves (if p row then f row else row)
  split
  case isTrue hp => exact h row hp
  case isFalse => exact .refl row

theorem CallbackRow.isPending_iff : row.isPending = true ↔ row.status = .pending := by
  simp [isPending]

theorem CallbackRow.isUnemitted_iff :
    row.isUnemitted = true ↔ row.status = .pending ∧ row.emittedAtUnixMs = none := by
  simp [isUnemitted, isPending]

theorem evolves_of_unemitted (h : row.isUnemitted) (hs : lacksScope row' = lacksScope row) : row.Evolves row' := by
  obtain ⟨hst, he⟩ := isUnemitted_iff.mp h
  constructor <;> simp [hst, he, hs]

theorem evolves_insertPending (hf : t.row c.callbackId = none) : Evolves t (insertPending t c) := by
  refine evolves_upsert fun row hr => ?_
  rw [show (callbackRow c .pending none none none).callbackId = c.callbackId from rfl, hf] at hr
  cases hr

theorem evolves_updateDelivered (t : CallbackTable) (ci : List String) (now : ℕ) :
    Evolves t (updateDelivered t ci now) := by
  refine evolves_update fun row hr => ?_
  have hs : row.status = .pending := by simpa [isPending] using (Bool.and_eq_true_iff.mp hr).2
  constructor <;> simp [hs, lacksScope]

theorem evolves_updateEmitted (t : CallbackTable) (ci : List String) (now : ℕ) :
    Evolves t (updateEmitted t ci now) := by
  refine evolves_update fun row hr => ?_
  exact evolves_of_unemitted (Bool.and_eq_true_iff.mp hr).2 rfl

theorem found_some (h : (t.rows.find? fun row => p row && row.isUnemitted).map parseCallbackRow = some c) :
    ∃ row, t.row c.callbackId = some row ∧ row.isUnemitted ∧ c = parseCallbackRow row := by
  obtain ⟨row, hf, rfl⟩ := Option.map_eq_some_iff.mp h
  have hr := List.find?_some hf
  simp only [Bool.and_eq_true] at hr
  exact ⟨row, Table.row_of_mem (List.mem_of_find?_eq_some hf), hr.2, rfl⟩

theorem findSelected_some (h : findSelected t s = some c) :
    ∃ row, t.row c.callbackId = some row ∧ row.isUnemitted ∧ c = parseCallbackRow row := by
  cases s with
  | callbackId callbackId | dedupeKey sourceKey dedupeKey => exact found_some h

theorem evolves_overwriteCancelled (hr : t.row c.callbackId = some row) (hun : row.isUnemitted)
    (hc : c = parseCallbackRow row) (now : ℕ) : Evolves t (overwriteCancelled t c now) := by
  refine evolves_upsert fun old ho => ?_
  obtain rfl : row = old := Option.some.inj (hr.symm.trans ho)
  exact evolves_of_unemitted hun (by rw [hc]; rfl)

variable {id : String}

theorem row_update_cases
    (h : (t.update (fun row => decide (row.callbackId ∈ ci) && p row) f hk).row id = some row') :
    ∃ row, t.row id = some row ∧ (row' = row ∨ id ∈ ci ∧ p row = true ∧ row' = f row) := by
  rw [Table.row_update] at h
  obtain ⟨row, hr, rfl⟩ := Option.map_eq_some_iff.mp h
  refine ⟨row, hr, ?_⟩
  split_ifs with hp
  · obtain ⟨hid, hp⟩ := Bool.and_eq_true_iff.mp hp
    rw [← Table.key_of_row hr]
    exact .inr ⟨of_decide_eq_true hid, hp, rfl⟩
  · exact .inl rfl

theorem row_updateDelivered_cases (h : (updateDelivered t ci now).row id = some row') :
    ∃ row, t.row id = some row ∧ (row' = row ∨ id ∈ ci ∧ row.status = .pending ∧ row' = { row with
        status := .delivered, deliveredAtUnixMs := some (asI64 now), cancelledAtUnixMs := none }) := by
  obtain ⟨row, hr, hc⟩ := row_update_cases h
  exact ⟨row, hr, hc.imp_right (And.imp_right (And.imp_left isPending_iff.mp))⟩

theorem row_updateEmitted_cases (h : (updateEmitted t ci now).row id = some row') :
    ∃ row, t.row id = some row ∧ (row' = row ∨ id ∈ ci ∧ row.isUnemitted ∧
      row' = { row with emittedAtUnixMs := some (asI64 now) }) := row_update_cases h

theorem mem_eligibleIds : id ∈ eligibleIds (selectEmission t ci) ↔
      id ∈ ci ∧ ∃ row, t.row id = some row ∧ row.status = .pending := by
  simp only [eligibleIds, selectEmission, List.mem_map, List.mem_filter, Bool.and_eq_true,
    decide_eq_true_eq, isPending_iff, Table.row_eq_some]
  constructor
  · rintro ⟨row, ⟨hm, hi, hs⟩, rfl⟩
    exact ⟨hi, row, ⟨hm, rfl⟩, hs⟩
  · rintro ⟨hi, row, ⟨hm, rfl⟩, hs⟩
    exact ⟨row, ⟨hm, hi, hs⟩, rfl⟩

theorem mem_firstEmissionIds : id ∈ firstEmissionIds (selectEmission t ci) ↔
      id ∈ ci ∧ ∃ row, t.row id = some row ∧ row.isUnemitted := by
  simp only [firstEmissionIds, selectEmission, List.mem_map, List.mem_filter, Bool.and_eq_true,
    decide_eq_true_eq, isPending_iff, isUnemitted_iff, Table.row_eq_some,
    Option.isNone_iff_eq_none]
  constructor
  · rintro ⟨row, ⟨⟨hm, hi, hs⟩, he⟩, rfl⟩
    exact ⟨hi, row, ⟨hm, rfl⟩, hs, he⟩
  · rintro ⟨hi, row, ⟨hm, rfl⟩, hs, he⟩
    exact ⟨row, ⟨⟨hm, hi, hs⟩, he⟩, rfl⟩

/-- Every row stands under an identifier that was minted. -/
def CallbackStore.Minted (U : UuidSupply) (store : CallbackStore) : Prop :=
  ∀ id row, store.table.row id = some row → ∃ k < store.minted, id = U.mint k

variable {U : UuidSupply} {s : CallbackStore}

theorem CallbackStore.Minted.fresh (h : s.Minted U) : s.table.row (U.mint s.minted) = none := by
  cases hr : s.table.row (U.mint s.minted) with
  | none => rfl
  | some row =>
    obtain ⟨k, hk, heq⟩ := h _ row hr
    exact absurd (U.mint_injective heq) (by omega)

theorem row_insertNew (s : CallbackStore) (r : ScheduleCallbackRequest) (id : String) :
    (s.insertNew U r).1.table.row id = if id = U.mint s.minted then
        some (callbackRow (newCallback (U.mint s.minted) r) .pending none none none)
      else s.table.row id :=
  Table.row_upsert _ _ _

theorem CallbackStore.Minted.insertNew (h : s.Minted U) (r : ScheduleCallbackRequest) :
    (s.insertNew U r).1.Minted U := by
  intro id row hr
  rw [row_insertNew] at hr
  split at hr
  case isTrue hid => exact ⟨s.minted, Nat.lt_succ_self _, hid⟩
  case isFalse =>
    obtain ⟨k, hk, heq⟩ := h id row hr
    exact ⟨k, Nat.lt_succ_of_lt hk, heq⟩

theorem evolves_insertNew (h : s.Minted U) (r : ScheduleCallbackRequest) :
    Evolves s.table (s.insertNew U r).1.table :=
  evolves_insertPending h.fresh

def unaryIds : UuidSupply where
  mint n := String.ofList (List.replicate n 'c')
  mint_injective m n h := by simpa using congrArg (·.toList.length) h

def resumeRequest : ScheduleCallbackRequest where
  sourceKey := "coordinator-agent:resume"
  dedupeKey := some "resume-once"
  payload := .null
  scheduledForUnixMs := 10
  requestedAtUnixMs := 5
  contextId := none
  taskId := none
  schedulingContextId := some "ctx-12-2"
  schedulingTaskId := some "task-99"
  requestingAgentId := some "agent-42"
  requestingMessageId := none

end AgentiumOs.Callbacks
