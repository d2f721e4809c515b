import AgentiumOs.Lib.Interleave
import AgentiumOs.Callbacks.Store

/-! Callback calls that run concurrently, one statement at a time. Three of the
calls read the table and write it later, under a lock; scheduling without a
dedupe key and marking callbacks delivered write it without the lock. What a call
has read is therefore still true when it writes only if no unlocked write can
touch it: an unlocked write inserts a row without a dedupe key or changes rows
that are already emitted. -/

namespace AgentiumOs.Callbacks

open CallbackRow Lib
open Lib.Interleave (Pool)

inductive StoreCall where
  | schedule (request : ScheduleCallbackRequest)
  | cancel (selector : CancelCallbackSelector) (now : ℕ)
  | markEmitted (callbackIds : List String) (now : ℕ)
  | markDelivered (callbackIds : List String) (now : ℕ)

/-- Where a call is. From `locked` to `returning` it holds the lock. -/
inductive Point where
  | idle
  | waiting (call : StoreCall)
  | locked (call : StoreCall)
  | insert (request : ScheduleCallbackRequest)
  | overwrite (callback : StoredCallback) (now : ℕ)
  | stamp (eligible first : List String) (now : ℕ)
  | returning (emitted : List String)

def Point.holds : Point → Prop
  | idle | waiting _ => False
  | locked _ | insert _ | overwrite _ _ | stamp _ _ _ | returning _ => True

instance (p : Point) : Decidable p.holds := by
  cases p <;> (simp only [Point.holds]; infer_instance)

def Point.start (call : StoreCall) : Point → Point
  | idle => waiting call
  | p => p

/-- The store, its lock, and the identifiers that calls of `mark_callbacks_emitted`
have returned. -/
structure Shared where
  store : CallbackStore
  lockTaken : Bool
  returned : List String

/-- What happens to one call: it is made, its next statement runs, or it ends
without an answer because a statement failed or its caller went away. -/
inductive Move where
  | start (call : StoreCall)
  | run
  | fail

variable (U : UuidSupply)

def acquire (s : Shared) (call : StoreCall) : Shared × Point :=
  if s.lockTaken then (s, .waiting call) else ({ s with lockTaken := true }, .locked call)

def runStatement (s : Shared) : Point → Shared × Point
  | .idle => (s, .idle)
  | .waiting (.schedule request) =>
      if request.dedupeKey.isSome then acquire s (.schedule request)
      else ({ s with store := (s.store.insertNew U request).1 }, .idle)
  | .waiting (.cancel selector now) => acquire s (.cancel selector now)
  | .waiting (.markEmitted callbackIds now) =>
      if callbackIds.isEmpty then (s, .idle) else acquire s (.markEmitted callbackIds now)
  | .waiting (.markDelivered callbackIds now) =>
      ({ s with store := s.store.markCallbacksDelivered callbackIds now }, .idle)
  | .locked (.schedule request) =>
      match request.dedupeKey.bind (findPendingCallbackByDedupe s.store.table request.sourceKey) with
      | some _ => (s, .returning [])
      | none => (s, .insert request)
  | .locked (.cancel selector now) =>
      match findSelected s.store.table selector with
      | none => (s, .returning [])
      | some callback => (s, .overwrite callback now)
  | .locked (.markEmitted callbackIds now) =>
      let selected := selectEmission s.store.table callbackIds
      if (firstEmissionIds selected).isEmpty then (s, .returning (eligibleIds selected))
      else (s, .stamp (eligibleIds selected) (firstEmissionIds selected) now)
  -- marking callbacks delivered takes no lock
  | .locked (.markDelivered _ _) => (s, .returning [])
  | .insert request => ({ s with store := (s.store.insertNew U request).1 }, .returning [])
  | .overwrite callback now =>
      ({ s with store := { s.store with table := overwriteCancelled s.store.table callback now } }, .returning [])
  | .stamp eligible first now =>
      ({ s with store := { s.store with table := updateEmitted s.store.table first now } }, .returning eligible)
  | .returning emitted => ({ s with lockTaken := false, returned := emitted ++ s.returned }, .idle)

def advance (move : Move) (s : Shared) (p : Point) : Shared × Point :=
  match move with
  | .start call => (s, p.start call)
  | .run => runStatement U s p
  | .fail => (if p.holds then { s with lockTaken := false } else s, .idle)

variable {ι : Type} [DecidableEq ι]

def callStep (p : Pool Shared Point ι) (input : ι × Move) : Pool Shared Point ι × Unit :=
  Interleave.turn (advance U input.2) p input.1

/-- Callbacks are marked delivered only by identifiers that a call returned as emitted. -/
def Admissible (p : Pool Shared Point ι) (input : ι × Move) : Prop :=
  match input.2 with
  | .start (.markDelivered callbackIds _) => ∀ id ∈ callbackIds, id ∈ p.shared.returned
  | _ => True

instance (p : Pool Shared Point ι) (input : ι × Move) : Decidable (Admissible p input) := by
  unfold Admissible
  split <;> infer_instance

def startPool : Pool Shared Point ι := ⟨⟨.new, false, []⟩, fun _ => .idle⟩

variable {p : Pool Shared Point ι} {t t' : CallbackTable} {store : CallbackStore}
  {callbackIds eligible first : List String}
  {s : Shared}

def Emitted (t : CallbackTable) (id : String) : Prop :=
  ∃ row, t.row id = some row ∧ row.emittedAtUnixMs.isSome

variable {id : String} {request : ScheduleCallbackRequest} {now : ℕ} {run : List (ι × Move)}

theorem Emitted.of_evolves (h : Emitted t id) (ht : Evolves t t') : Emitted t' id := by
  obtain ⟨row, hr, he⟩ := h
  obtain ⟨row', hr', hev⟩ := ht id row hr
  exact ⟨row', hr', hev.emitted he⟩

theorem Emitted.not_unemitted (h : Emitted t id) (hr : t.row id = some row) : ¬ row.isUnemitted := by
  obtain ⟨row', hr', he⟩ := h
  obtain rfl : row = row' := Option.some.inj (hr.symm.trans hr')
  intro hun
  rw [(isUnemitted_iff.mp hun).2] at he
  cases he

/-- The rows of a store in every state its calls can reach. -/
structure StoreInvariant (store : CallbackStore) : Prop where
  minted : store.Minted U
  emitted : ∀ id row, store.table.row id = some row → row.emittedAtUnixMs.isSome → row.status ≠ .cancelled
  delivered : ∀ id row, store.table.row id = some row → row.status = .delivered → row.emittedAtUnixMs.isSome
  unique : ∀ id id' row row', store.table.row id = some row → store.table.row id' = some row' →
    row.isUnemitted → row'.isUnemitted → row.dedupeKey.isSome → row'.dedupeKey = row.dedupeKey →
    row'.sourceKey = row.sourceKey → id' = id

/-- An unlocked write: it keeps the unemitted rows and adds none with a dedupe key. -/
structure Calm (t t' : CallbackTable) : Prop where
  evolves : Evolves t t'
  keeps : ∀ id row, t.row id = some row → row.isUnemitted → t'.row id = some row
  old : ∀ id row, t'.row id = some row → row.isUnemitted → row.dedupeKey.isSome → t.row id = some row

theorem Calm.refl (t : CallbackTable) : Calm t t :=
  ⟨.refl t, fun _ _ h _ => h, fun _ _ h _ _ => h⟩

variable {U}

/-- No unemitted row has the dedupe key of the request. -/
def Vacant (t : CallbackTable) (request : ScheduleCallbackRequest) : Prop :=
  ∀ id row, t.row id = some row → row.sourceKey = request.sourceKey →
    row.dedupeKey = request.dedupeKey → request.dedupeKey.isSome → ¬ row.isUnemitted

theorem storeInvariant_insertNew (h : StoreInvariant U store) (hv : Vacant store.table request) :
    StoreInvariant U (store.insertNew U request).1 where
  minted := h.minted.insertNew request
  emitted := by
    intro id row hr
    rw [row_insertNew] at hr
    split at hr
    case isTrue =>
      cases hr
      simp [callbackRow]
    case isFalse => exact h.emitted id row hr
  delivered := by
    intro id row hr
    rw [row_insertNew] at hr
    split at hr
    case isTrue =>
      cases hr
      simp [callbackRow]
    case isFalse => exact h.delivered id row hr
  unique := by
    intro id id' row row' hr hr' hun hun' hs hd hso
    rw [row_insertNew] at hr hr'
    -- the new row is the only one with its dedupe key because no other was found
    split at hr <;> split at hr'
    case isTrue.isTrue hid hid' => rw [hid, hid']
    case isTrue.isFalse =>
      cases hr
      exact absurd hun' (hv id' row' hr' hso hd hs)
    case isFalse.isTrue =>
      cases hr'
      have hk : request.dedupeKey = row.dedupeKey := hd
      exact absurd hun (hv id row hr hso.symm hk.symm (hk ▸ hs))
    case isFalse.isFalse => exact h.unique id id' row row' hr hr' hun hun' hs hd hso

theorem calm_insertNew (h : StoreInvariant U store) (hd : request.dedupeKey = none) :
    Calm store.table (store.insertNew U request).1.table where
  evolves := evolves_insertNew h.minted request
  keeps := by
    intro id row hr _
    rw [row_insertNew, if_neg, hr]
    rintro rfl
    rw [h.minted.fresh] at hr
    cases hr
  old := by
    intro id row hr _ hs
    rw [row_insertNew] at hr
    split at hr
    case isTrue =>
      cases hr
      simp [callbackRow, newCallback, hd] at hs
    case isFalse => exact hr

/-- A write that makes no row unemitted keeps the uniqueness of dedupe keys. -/
theorem unique_of_old (ho : ∀ id row', t'.row id = some row' → row'.isUnemitted → t.row id = some row')
    (h : ∀ id id' row row', t.row id = some row → t.row id' = some row' →
      row.isUnemitted → row'.isUnemitted → row.dedupeKey.isSome → row'.dedupeKey = row.dedupeKey →
      row'.sourceKey = row.sourceKey → id' = id) :
    ∀ id id' row row', t'.row id = some row → t'.row id' = some row' →
      row.isUnemitted → row'.isUnemitted → row.dedupeKey.isSome → row'.dedupeKey = row.dedupeKey →
      row'.sourceKey = row.sourceKey → id' = id :=
  fun id id' row row' hr hr' hun hun' =>
    h id id' row row' (ho id row hr hun) (ho id' row' hr' hun') hun hun'

theorem updateDelivered_old (h : (updateDelivered t callbackIds now).row id = some row') (hun : row'.isUnemitted) :
    t.row id = some row' := by
  obtain ⟨row, hr, rfl | ⟨-, -, rfl⟩⟩ := row_updateDelivered_cases h
  · exact hr
  · simp [isUnemitted, isPending] at hun

theorem storeInvariant_updateDelivered (h : StoreInvariant U store)
    (hi : ∀ id ∈ callbackIds, Emitted store.table id) :
    StoreInvariant U { store with table := updateDelivered store.table callbackIds now } where
  minted := by
    intro id row' hr'
    obtain ⟨row, hr, -⟩ := row_updateDelivered_cases hr'
    exact h.minted id row hr
  emitted := by
    intro id row' hr'
    obtain ⟨row, hr, rfl | ⟨-, -, rfl⟩⟩ := row_updateDelivered_cases hr'
    · exact h.emitted id _ hr
    · simp
  delivered := by
    intro id row' hr'
    obtain ⟨row, hr, rfl | ⟨hid, -, rfl⟩⟩ := row_updateDelivered_cases hr'
    · exact h.delivered id _ hr
    · -- only callbacks that were emitted are marked
      obtain ⟨row₂, hr₂, he⟩ := hi id hid
      obtain rfl : row = row₂ := Option.some.inj (hr.symm.trans hr₂)
      exact fun _ => he
  unique := unique_of_old (fun _ _ => updateDelivered_old) h.unique

theorem calm_updateDelivered (hi : ∀ id ∈ callbackIds, Emitted t id) :
    Calm t (updateDelivered t callbackIds now) where
  evolves := evolves_updateDelivered t callbackIds now
  keeps := by
    intro id row hr hun
    rw [updateDelivered, Table.row_update, hr, Option.map_some, if_neg]
    intro hp
    have hid : row.callbackId ∈ callbackIds := of_decide_eq_true (Bool.and_eq_true_iff.mp hp).1
    rw [Table.key_of_row hr] at hid
    exact (hi id hid).not_unemitted hr hun
  old := fun _ _ hr hun _ => updateDelivered_old hr hun

theorem storeInvariant_updateEmitted (h : StoreInvariant U store) (callbackIds : List String) (now : ℕ) :
    StoreInvariant U { store with table := updateEmitted store.table callbackIds now } where
  minted := by
    intro id row' hr'
    obtain ⟨row, hr, -⟩ := row_updateEmitted_cases hr'
    exact h.minted id row hr
  emitted := by
    intro id row' hr'
    obtain ⟨row, hr, rfl | ⟨-, hun, rfl⟩⟩ := row_updateEmitted_cases hr'
    · exact h.emitted id _ hr
    · simp [(isUnemitted_iff.mp hun).1]
  delivered := by
    intro id row' hr'
    obtain ⟨row, hr, rfl | ⟨-, hun, rfl⟩⟩ := row_updateEmitted_cases hr'
    · exact h.delivered id _ hr
    · simp
  unique := by
    refine unique_of_old (fun id row' hr' hun' => ?_) h.unique
    obtain ⟨row, hr, rfl | ⟨-, -, rfl⟩⟩ := row_updateEmitted_cases hr'
    · exact hr
    · simp [isUnemitted] at hun'

theorem storeInvariant_overwriteCancelled (h : StoreInvariant U store)
    (hr : store.table.row c.callbackId = some row) (now : ℕ) :
    StoreInvariant U { store with table := overwriteCancelled store.table c now } := by
  have hc : ∀ id row', (overwriteCancelled store.table c now).row id = some row' →
      row' = callbackRow c .cancelled none none (some now) ∧ id = c.callbackId ∨
        store.table.row id = some row' := by
    intro id row' hr'
    rw [overwriteCancelled, Table.row_upsert] at hr'
    split at hr'
    case isTrue hid => exact .inl ⟨(Option.some.inj hr').symm, hid⟩
    case isFalse => exact .inr hr'
  constructor
  case minted =>
    intro id row' hr'
    rcases hc id row' hr' with ⟨-, rfl⟩ | ho
    · exact h.minted _ row hr
    · exact h.minted id row' ho
  case emitted =>
    intro id row' hr'
    rcases hc id row' hr' with ⟨rfl, -⟩ | ho
    · simp [callbackRow]
    · exact h.emitted id row' ho
  case delivered =>
    intro id row' hr'
    rcases hc id row' hr' with ⟨rfl, -⟩ | ho
    · simp [callbackRow]
    · exact h.delivered id row' ho
  case unique =>
    refine unique_of_old (fun id row' hr' hun' => ?_) h.unique
    rcases hc id row' hr' with ⟨rfl, -⟩ | ho
    · simp [isUnemitted, isPending, callbackRow] at hun'
    · exact ho

/-! ### What a call relies on -/

def Ready (t : CallbackTable) : Point → Prop
  | .waiting (.markDelivered callbackIds _) => ∀ id ∈ callbackIds, Emitted t id
  | .insert request => Vacant t request
  | .overwrite callback _ => ∃ row, t.row callback.callbackId = some row ∧ row.isUnemitted ∧
      callback = parseCallbackRow row
  | .stamp eligible first _ => ∀ id ∈ eligible, Emitted t id ∨
      id ∈ first ∧ ∃ row, t.row id = some row ∧ row.isUnemitted
  | .returning emitted => ∀ id ∈ emitted, Emitted t id
  | .idle | .waiting _ | .locked _ => True

theorem Ready.of_calm (ht : Calm t t') {p : Point} (h : Ready t p) : Ready t' p := by
  cases p with
  | idle | locked call => trivial
  | waiting call =>
    cases call with
    | markDelivered callbackIds now => exact fun id hid => (h id hid).of_evolves ht.evolves
    | schedule request | cancel se now | markEmitted callbackIds now => trivial
  | insert request =>
    intro id row hr hso hd hs hun
    exact h id row (ht.old id row hr hun (hd ▸ hs)) hso hd hs hun
  | overwrite c now =>
    obtain ⟨row, hr, hun, hp⟩ := h
    exact ⟨row, ht.keeps _ row hr hun, hun, hp⟩
  | stamp eligible first now =>
    intro id hid
    rcases h id hid with he | ⟨hf, row, hr, hun⟩
    · exact .inl (he.of_evolves ht.evolves)
    · exact .inr ⟨hf, row, ht.keeps id row hr hun, hun⟩
  | returning e => exact fun id hid => (h id hid).of_evolves ht.evolves

/-- A write under the lock disturbs no call that does not hold it. -/
theorem Ready.of_not_holds (ht : Evolves t t') {p : Point} (hp : ¬ p.holds) (h : Ready t p) : Ready t' p := by
  cases p with
  | idle => trivial
  | waiting call =>
    cases call with
    | markDelivered callbackIds now => exact fun id hid => (h id hid).of_evolves ht
    | schedule request => trivial
    | cancel se now => trivial
    | markEmitted callbackIds now => trivial
  | locked call
  | insert request
  | overwrite callback now
  | stamp eligible first now
  | returning e => exact absurd trivial hp

/-- What one statement of a call does. Either the table moves calmly, or the call
holds the lock before and after. -/
structure SoundMove (s : Shared) (p : Point) (s' : Shared) (p' : Point) : Prop where
  lock : Interleave.Conserves (fun s : Shared => s.lockTaken = false) Point.holds s p s' p'
  store : StoreInvariant U s'.store
  evolves : Evolves s.store.table s'.store.table
  ready : Ready s'.store.table p'
  returned : ∀ id ∈ s'.returned, id ∈ s.returned ∨ Emitted s'.store.table id
  calm : Calm s.store.table s'.store.table ∨ p.holds

theorem SoundMove.of_read {p p' : Point} (hi : StoreInvariant U s.store) (hh : p'.holds ↔ p.holds)
    (hr : Ready s.store.table p') : SoundMove (U := U) s p s p' where
  lock := .keeps Iff.rfl hh
  store := hi
  evolves := .refl _
  ready := hr
  returned := fun _ hid => .inl hid
  calm := .inl (.refl _)

theorem soundMove_acquire (hi : StoreInvariant U s.store) (hr : Ready s.store.table (.waiting c)) :
    SoundMove (U := U) s (.waiting c) (acquire s c).1 (acquire s c).2 := by
  unfold acquire
  split
  case isTrue ht => exact .of_read hi Iff.rfl hr
  case isFalse hf =>
    exact ⟨.takes (by simpa using hf) (by simp) trivial, hi, .refl _, trivial,
      fun _ hid => .inl hid, .inl (.refl _)⟩

theorem emitted_updateEmitted
    (h : ∀ id ∈ eligible, Emitted t id ∨ id ∈ first ∧ ∃ row, t.row id = some row ∧ row.isUnemitted) :
    ∀ id ∈ eligible, Emitted (updateEmitted t first now) id := by
  intro id hid
  rcases h id hid with he | ⟨hf, row, hr, hun⟩
  · exact he.of_evolves (evolves_updateEmitted t first now)
  · have hm : row.callbackId ∈ first := by rwa [Table.key_of_row hr]
    refine ⟨{ row with emittedAtUnixMs := some (asI64 now) }, ?_, rfl⟩
    rw [updateEmitted, Table.row_update, hr, Option.map_some, if_pos (by simp [hm, hun])]

/-- What is eligible for emission is emitted, or is stamped next. -/
theorem eligible_emitted_or_first : ∀ id ∈ eligibleIds (selectEmission t callbackIds), Emitted t id ∨
      id ∈ firstEmissionIds (selectEmission t callbackIds) ∧ ∃ row, t.row id = some row ∧ row.isUnemitted := by
  intro id hid
  obtain ⟨hi, row, hr, hs⟩ := mem_eligibleIds.mp hid
  cases he : row.emittedAtUnixMs with
  | some time => exact .inl ⟨row, hr, by simp [he]⟩
  | none =>
    have hun := isUnemitted_iff.mpr ⟨hs, he⟩
    exact .inr ⟨mem_firstEmissionIds.mpr ⟨hi, row, hr, hun⟩, row, hr, hun⟩

theorem soundMove_locked (hi : StoreInvariant U s.store) (ca : StoreCall) :
    SoundMove (U := U) s (.locked ca) (runStatement U s (.locked ca)).1 (runStatement U s (.locked ca)).2 := by
  cases ca with
  | schedule request =>
    simp only [runStatement]
    cases hf : request.dedupeKey.bind (findPendingCallbackByDedupe s.store.table request.sourceKey) with
    | some e => exact .of_read hi Iff.rfl (by simp [Ready])
    | none =>
      refine .of_read hi Iff.rfl fun id row hr hs hd hso => ?_
      obtain ⟨key, hk⟩ := Option.isSome_iff_exists.mp hso
      rw [hk] at hf
      have hn := List.find?_eq_none.mp (Option.map_eq_none_iff.mp hf) row (Table.row_eq_some.mp hr).1
      simpa [hs, hd.trans hk] using hn
  | cancel se now =>
    simp only [runStatement]
    cases hf : findSelected s.store.table se with
    | none => exact .of_read hi Iff.rfl (by simp [Ready])
    | some c => exact .of_read hi Iff.rfl (findSelected_some hf)
  | markEmitted callbackIds now =>
    simp only [runStatement]
    split
    case isTrue hn =>
      refine .of_read hi Iff.rfl fun id hid => ?_
      rcases eligible_emitted_or_first id hid with he | ⟨hfi, -⟩
      · exact he
      · rw [List.isEmpty_iff.mp hn] at hfi
        cases hfi
    case isFalse => exact .of_read hi Iff.rfl eligible_emitted_or_first
  | markDelivered callbackIds now => exact .of_read hi Iff.rfl (by simp [runStatement, Ready])

theorem soundMove_waiting (hi : StoreInvariant U s.store) (c : StoreCall)
    (hr : Ready s.store.table (.waiting c)) :
    SoundMove (U := U) s (.waiting c) (runStatement U s (.waiting c)).1 (runStatement U s (.waiting c)).2 := by
  cases c with
  | schedule request =>
    simp only [runStatement]
    split
    case isTrue => exact soundMove_acquire hi hr
    case isFalse hn =>
      have hd : request.dedupeKey = none := by simpa using hn
      have hc := calm_insertNew hi hd
      refine ⟨.keeps Iff.rfl Iff.rfl, storeInvariant_insertNew hi ?_, hc.evolves, trivial,
        fun _ hid => .inl hid, .inl hc⟩
      intro id row _ _ _ hs
      simp [hd] at hs
  | cancel se now => exact soundMove_acquire hi hr
  | markEmitted callbackIds now =>
    simp only [runStatement]
    split
    case isTrue => exact .of_read hi Iff.rfl trivial
    case isFalse => exact soundMove_acquire hi hr
  | markDelivered callbackIds now =>
    simp only [runStatement, CallbackStore.markCallbacksDelivered]
    split
    case isTrue => exact .of_read hi Iff.rfl trivial
    case isFalse =>
      have hc : Calm s.store.table (updateDelivered s.store.table callbackIds now) :=
        calm_updateDelivered hr
      exact ⟨.keeps Iff.rfl Iff.rfl, storeInvariant_updateDelivered hi hr, hc.evolves, trivial,
        fun _ hid => .inl hid, .inl hc⟩

theorem soundMove_run (hi : StoreInvariant U s.store) (p : Point) (hr : Ready s.store.table p) :
    SoundMove (U := U) s p (runStatement U s p).1 (runStatement U s p).2 := by
  cases p with
  | idle => exact .of_read hi Iff.rfl trivial
  | waiting call => exact soundMove_waiting hi call hr
  | locked call => exact soundMove_locked hi call
  | insert request =>
    exact ⟨.keeps Iff.rfl Iff.rfl, storeInvariant_insertNew hi hr, evolves_insertNew hi.minted request,
      by simp [runStatement, Ready], fun _ hid => .inl hid, .inr trivial⟩
  | overwrite c now =>
    obtain ⟨row, hro, hun, hp⟩ := hr
    exact ⟨.keeps Iff.rfl Iff.rfl, storeInvariant_overwriteCancelled hi hro now,
      evolves_overwriteCancelled hro hun hp now, by simp [runStatement, Ready], fun _ hid => .inl hid,
      .inr trivial⟩
  | stamp eligible first now =>
    exact ⟨.keeps Iff.rfl Iff.rfl, storeInvariant_updateEmitted hi first now,
      evolves_updateEmitted _ first now, emitted_updateEmitted hr, fun _ hid => .inl hid,
      .inr trivial⟩
  | returning e =>
    refine ⟨.returns trivial rfl id, hi, .refl _, trivial, fun id hid => ?_, .inl (.refl _)⟩
    rcases List.mem_append.mp hid with hid | hid
    · exact .inr (hr id hid)
    · exact .inl hid

theorem soundMove_fail (hi : StoreInvariant U s.store) (p : Point) :
    SoundMove (U := U) s p (advance U .fail s p).1 (advance U .fail s p).2 := by
  simp only [advance]
  split
  case isTrue hh =>
    exact ⟨.returns hh rfl id, hi, .refl _, trivial, fun _ hid => .inl hid, .inl (.refl _)⟩
  case isFalse hh => exact .of_read hi ⟨False.elim, hh⟩ trivial

/-- The state of the store and of every call in every admissible run. -/
structure CallsInvariant (p : Pool Shared Point ι) : Prop where
  lock : Interleave.Owned (fun s : Shared => s.lockTaken = false) Point.holds p
  store : StoreInvariant U p.shared.store
  ready : ∀ i, Ready p.shared.store.table (p.thread i)
  returned : ∀ id ∈ p.shared.returned, Emitted p.shared.store.table id

omit [DecidableEq ι] in
theorem callsInvariant_start : CallsInvariant (U := U) (startPool : Pool Shared Point ι) where
  lock := .inl ⟨rfl, fun _ => id⟩
  store := by constructor <;> simp [startPool, CallbackStore.new, CallbackStore.Minted]
  ready := fun _ => trivial
  returned := by simp [startPool]

omit [DecidableEq ι] in
theorem CallsInvariant.not_holds (h : CallsInvariant (U := U) p) {i j : ι}
    (hi : (p.thread i).holds) (hne : j ≠ i) : ¬ (p.thread j).holds := by
  intro hj
  rcases h.lock with ⟨-, hn⟩ | ⟨-, k, -, ho⟩
  · exact hn i hi
  · exact hne ((ho j hj).trans (ho i hi).symm)

theorem CallsInvariant.after_turn (h : CallsInvariant (U := U) p)
    (hm : SoundMove (U := U) p.shared (p.thread i) (advance U m p.shared (p.thread i)).1
      (advance U m p.shared (p.thread i)).2) :
    CallsInvariant (U := U) (callStep U p (i, m)).1 where
  lock := h.lock.after_turn _ hm.lock
  store := hm.store
  ready := by
    intro j
    by_cases hj : j = i
    · subst hj
      rw [callStep, Interleave.turn_thread_self]
      exact hm.ready
    · rw [callStep, Interleave.turn_thread_of_ne _ _ hj]
      rcases hm.calm with hc | hh
      · exact (h.ready j).of_calm hc
      · exact (h.ready j).of_not_holds hm.evolves (h.not_holds hh hj)
  returned := by
    intro id hid
    rcases hm.returned id hid with ho | hn
    · exact (h.returned id ho).of_evolves hm.evolves
    · exact hn

theorem Point.start_cases (call : StoreCall) (p : Point) :
    p.start call = p ∨ p = .idle ∧ p.start call = .waiting call := by
  cases p <;> simp [Point.start]

omit [DecidableEq ι] in
theorem soundMove_advance (h : CallsInvariant (U := U) p) (i : ι) (m : Move)
    (hok : Admissible p (i, m)) : SoundMove (U := U) p.shared (p.thread i)
      (advance U m p.shared (p.thread i)).1 (advance U m p.shared (p.thread i)).2 := by
  cases m with
  | run => exact soundMove_run h.store _ (h.ready i)
  | fail => exact soundMove_fail h.store _
  | start call =>
    simp only [advance]
    rcases Point.start_cases call (p.thread i) with hs | ⟨hi, hn⟩
    · rw [hs]
      exact .of_read h.store Iff.rfl (h.ready i)
    · rw [hn, hi]
      refine .of_read h.store Iff.rfl ?_
      cases call with
      | markDelivered callbackIds now => exact fun id hid => h.returned id (hok id hid)
      | schedule request => trivial
      | cancel se now => trivial
      | markEmitted callbackIds now => trivial

theorem callsInvariant_step (p : Pool Shared Point ι) (i : ι × Move) (hok : Admissible p i)
    (h : CallsInvariant (U := U) p) : CallsInvariant (U := U) (callStep U p i).1 :=
  h.after_turn (soundMove_advance h i.1 i.2 hok)

theorem evolves_run (h : CallsInvariant (U := U) p) (hok : Run.Along (callStep U) Admissible p run) :
    Evolves p.shared.store.table (Run.exec (callStep U) p run).shared.store.table := by
  induction run generalizing p with
  | nil => exact .refl _
  | cons i run ih =>
    obtain ⟨hi, hr⟩ := hok
    have hm := soundMove_advance h i.1 i.2 hi
    exact hm.evolves.trans (ih (callsInvariant_step p i hi h) hr)

theorem callsInvariant_run (hok : Run.Along (callStep U) Admissible (startPool : Pool Shared Point ι) run) :
    CallsInvariant (U := U) (Run.exec (callStep U) startPool run) :=
  Run.along_invariant (callStep U) Admissible _ callsInvariant_step _ callsInvariant_start run hok

/-- In every interleaving of calls: an unemitted row is the only one with its
source and dedupe key, a callback that was emitted is not cancelled afterwards, a
cancelled one is neither emitted nor delivered, and both statuses are final. -/
theorem callback_lifecycle (U : UuidSupply) (run later : List (ι × Move))
    (hok : Run.Along (callStep U) Admissible (startPool : Pool Shared Point ι) (run ++ later)) :
    let s := (Run.exec (callStep U) (startPool : Pool Shared Point ι) run).shared
    let s' := (Run.exec (callStep U) (startPool : Pool Shared Point ι) (run ++ later)).shared
    (∀ row ∈ s.store.table.rows, ∀ row' ∈ s.store.table.rows, row.isUnemitted → row'.isUnemitted →
      row.dedupeKey.isSome → row'.dedupeKey = row.dedupeKey → row'.sourceKey = row.sourceKey →
      row' = row) ∧
    ∀ id row, s.store.table.row id = some row → ∃ row', s'.store.table.row id = some row' ∧
      (row.emittedAtUnixMs.isSome ∨ id ∈ s.returned → row'.status ≠ .cancelled) ∧
      (row.status = .cancelled → row'.status = .cancelled ∧ row'.emittedAtUnixMs = none ∧ id ∉ s'.returned) ∧
      (row.status = .delivered → row'.status = .delivered) := by
  intro s s'
  obtain ⟨h, hl⟩ := (Run.along_append (callStep U) Admissible _ run later).mp hok
  have hinv := callsInvariant_run h
  have hinv' := callsInvariant_run hok
  have hev : Evolves s.store.table s'.store.table := by
    show Evolves s.store.table (Run.exec (callStep U) startPool (run ++ later)).shared.store.table
    rw [Run.exec_append]
    exact evolves_run hinv hl
  refine ⟨?_, fun id row hrow => ?_⟩
  · intro row hrow row' hrow' hun hun' hso hd hs
    have hid := hinv.store.unique _ _ row row' (Table.row_of_mem hrow) (Table.row_of_mem hrow') hun hun'
      hso hd hs
    exact Table.eq_of_key_eq _ hrow' hrow hid
  · obtain ⟨row', hrow', hr⟩ := hev id row hrow
    refine ⟨row', hrow', fun he => ?_, fun hc => ?_, hr.delivered⟩
    · have hma : Emitted s'.store.table id := by
        rcases he with he | hre
        · exact ⟨row', hrow', hr.emitted he⟩
        · exact (hinv.returned id hre).of_evolves hev
      obtain ⟨row₂, hrow₂, hm⟩ := hma
      obtain rfl : row' = row₂ := Option.some.inj (hrow'.symm.trans hrow₂)
      exact hinv'.store.emitted id row' hrow' hm
    · have hst : row'.status = .cancelled := by rw [hr.cancelled hc, hc]
      have hn : row'.emittedAtUnixMs = none := by
        by_contra hne
        exact hinv'.store.emitted id row' hrow' (Option.isSome_iff_ne_none.mpr hne) hst
      refine ⟨hst, hn, fun hre => ?_⟩
      obtain ⟨row₂, hrow₂, hm⟩ := hinv'.returned id hre
      obtain rfl : row' = row₂ := Option.some.inj (hrow'.symm.trans hrow₂)
      simp [hn] at hm

def emissionRun : List (ℕ × Move) :=
  [(0, .start (.schedule resumeRequest)), (0, .run), (0, .run), (0, .run), (0, .run),
    (1, .start (.markEmitted [""] 15)), (1, .run), (1, .run), (1, .run), (1, .run)]

/-- It is marked delivered while a call tries to cancel it. -/
def cancelRun : List (ℕ × Move) :=
  [(2, .start (.cancel (.callbackId "") 16)), (2, .run), (3, .start (.markDelivered [""] 17)), (3, .run),
    (2, .run), (2, .run)]

theorem emitted_callback_survives_cancel :
    Run.Along (callStep unaryIds) Admissible (startPool : Pool Shared Point ℕ) (emissionRun ++ cancelRun) ∧
    ∃ row', (Run.exec (callStep unaryIds) (startPool : Pool Shared Point ℕ)
      (emissionRun ++ cancelRun)).shared.store.table.row "" = some row' ∧ row'.status ≠ .cancelled := by
  have hok : Run.Along (callStep unaryIds) Admissible startPool (emissionRun ++ cancelRun) := by decide +kernel
  have hf : ∃ row, (Run.exec (callStep unaryIds) startPool
      emissionRun).shared.store.table.row "" = some row := by
    rw [← Option.isSome_iff_exists]
    decide +kernel
  obtain ⟨row, hrow⟩ := hf
  obtain ⟨row', hrow', hl, -⟩ := (callback_lifecycle unaryIds emissionRun cancelRun hok).2 "" row hrow
  exact ⟨hok, row', hrow', hl (.inr (by decide +kernel))⟩

end AgentiumOs.Callbacks
