import AgentiumOs.Lib.Table
import AgentiumOs.Events.Delivery

/-! The durable inbox of ingress items. An item is pending, then emitted, then
delivered; an item that was emitted and not confirmed in time is pending again.
Every write holds the lock of the inbox, so each is one step. -/

namespace AgentiumOs.Ingress

open Lib
open Events (BamlRtError EventSourceKey EventSourceKind)

/-- An item as a producer hands it in; an `IngressId` is a trimmed text. -/
structure IngressItem where
  ingressId : String
  sourceKind : EventSourceKind
  sourceKey : EventSourceKey
  payloadJson : String
  enqueuedAtUnixMs : ℕ
  deriving DecidableEq

inductive IngressStatus where
  | pending
  | emitted
  | delivered
  deriving DecidableEq

structure IngressRow where
  ingressId : String
  sourceKind : EventSourceKind
  sourceKey : EventSourceKey
  payloadJson : String
  status : IngressStatus
  enqueuedAtUnixMs : ℕ
  emittedAtUnixMs : Option ℕ
  deliveredAtUnixMs : Option ℕ

abbrev IngressTable := Table IngressRow.ingressId

/-- How items moved. Nothing reads it but the statements about runs. -/
inductive IngressMove where
  | enqueued (ingressId : String)
  | requeued (ingressIds : List String)
  | claimed (ingressIds : List String)
  | delivered (ingressIds : List String)

/-- The inbox, with its moves so far, the latest first. -/
structure IngressStore where
  table : IngressTable
  moves : List IngressMove

open IngressStore

def unixMsToDbInt (value : ℕ) (fieldName : String) : Except BamlRtError ℕ :=
  if value < 2 ^ 63 then .ok value
  else .error (.invalidArgument (fieldName ++ " exceeds signed 64-bit range for state DB storage"))

def ingressRow (item : IngressItem) (enqueuedAt : ℕ) : IngressRow where
  ingressId := item.ingressId
  sourceKind := item.sourceKind
  sourceKey := item.sourceKey
  payloadJson := item.payloadJson
  status := .pending
  enqueuedAtUnixMs := enqueuedAt
  emittedAtUnixMs := none
  deliveredAtUnixMs := none

def parseIngressRow (row : IngressRow) : IngressItem where
  ingressId := row.ingressId
  sourceKind := row.sourceKind
  sourceKey := row.sourceKey
  payloadJson := row.payloadJson
  enqueuedAtUnixMs := row.enqueuedAtUnixMs

namespace IngressRow

def isOpen (row : IngressRow) : Bool := row.status == .pending && row.emittedAtUnixMs.isNone

def isStale (emittedBefore : ℕ) (row : IngressRow) : Bool :=
  row.status == .emitted && row.emittedAtUnixMs.any (decide <| · ≤ emittedBefore)

def inboxKey (row : IngressRow) : ℕ ×ₗ String := toLex (row.enqueuedAtUnixMs, row.ingressId)

end IngressRow

namespace IngressStore

def new : IngressStore := ⟨.empty, []⟩

def enqueueIngressItem (store : IngressStore) (item : IngressItem) : IngressStore × Except BamlRtError Bool :=
  match store.table.row item.ingressId with
  | some _ => (store, .ok false)
  | none =>
      match unixMsToDbInt item.enqueuedAtUnixMs "ingress enqueued_at_unix_ms" with
      | .error err => (store, .error err)
      | .ok enqueuedAt =>
          (⟨store.table.upsert (ingressRow item enqueuedAt), .enqueued item.ingressId :: store.moves⟩, .ok true)

def listPendingIngressItems (store : IngressStore) (sourceKinds : List EventSourceKind) (limit : ℕ) :
    List IngressItem :=
  (((store.table.rows.filter fun row => row.isOpen && decide (row.sourceKind ∈ sourceKinds)).insertionSort
    fun a b => a.inboxKey ≤ b.inboxKey).take limit).map parseIngressRow

/-- The identifiers of the rows that a condition selects. -/
def select (store : IngressStore) (p : IngressRow → Bool) : List String :=
  (store.table.rows.filter p).map (·.ingressId)

def requeueStaleIngress (store : IngressStore) (emittedBeforeUnixMs : ℕ) : IngressStore × Except BamlRtError ℕ :=
  match unixMsToDbInt emittedBeforeUnixMs "ingress emitted_before_unix_ms" with
  | .error err => (store, .error err)
  | .ok before =>
      (⟨store.table.update (·.isStale before)
          (fun row => { row with status := .pending, emittedAtUnixMs := none }) fun _ => rfl,
        .requeued (store.select (·.isStale before)) :: store.moves⟩,
        .ok (store.select (·.isStale before)).length)

def claimable (ingressIds : List String) (row : IngressRow) : Bool :=
  decide (row.ingressId ∈ ingressIds) && row.isOpen

def markIngressEmitted (store : IngressStore) (ingressIds : List String) (emittedAtUnixMs : ℕ) :
    IngressStore × Except BamlRtError (List String) :=
  if ingressIds.isEmpty then (store, .ok [])
  else
    match unixMsToDbInt emittedAtUnixMs "ingress emitted_at_unix_ms" with
    | .error err => (store, .error err)
    | .ok emittedAt =>
        (⟨store.table.update (claimable ingressIds)
            (fun row => { row with status := .emitted, emittedAtUnixMs := some emittedAt }) fun _ => rfl,
          .claimed (store.select (claimable ingressIds)) :: store.moves⟩,
          .ok (store.select (claimable ingressIds)))

def confirmable (ingressIds : List String) (row : IngressRow) : Bool :=
  decide (row.ingressId ∈ ingressIds) && (row.status == .pending || row.status == .emitted)

def markIngressDelivered (store : IngressStore) (ingressIds : List String) (deliveredAtUnixMs : ℕ) :
    IngressStore × Except BamlRtError Unit :=
  if ingressIds.isEmpty then (store, .ok ())
  else
    match unixMsToDbInt deliveredAtUnixMs "ingress delivered_at_unix_ms" with
    | .error err => (store, .error err)
    | .ok deliveredAt =>
        (⟨store.table.update (confirmable ingressIds)
            (fun row => { row with status := .delivered, deliveredAtUnixMs := some deliveredAt }) fun _ => rfl,
          .delivered (store.select (confirmable ingressIds)) :: store.moves⟩, .ok ())

end IngressStore

variable {row : IngressRow} {store : IngressStore}

theorem enqueue_cases (store : IngressStore) (i : IngressItem) :
    ((store.enqueueIngressItem i).1 = store ∧ (store.enqueueIngressItem i).2.toOption ≠ some true) ∨
      ∃ e, (store.enqueueIngressItem i).1.table = store.table.upsert (ingressRow i e) ∧
        (store.enqueueIngressItem i).2.toOption = some true := by
  unfold enqueueIngressItem
  split
  case h_1 => exact .inl ⟨rfl, by simp [Except.toOption]⟩
  case h_2 =>
    split
    case h_1 => exact .inl ⟨rfl, by simp [Except.toOption]⟩
    case h_2 e _ => exact .inr ⟨e, rfl, rfl⟩

variable {p : IngressRow → Bool} {id : String} {ids ids' : List String} {mid old : List IngressMove}
  {f : IngressRow → IngressRow}

theorem mem_select : id ∈ store.select p ↔ ∃ row, store.table.row id = some row ∧ p row = true := by
  simp only [select, List.mem_map, List.mem_filter, Table.row_eq_some]
  constructor
  · rintro ⟨row, ⟨hm, hp⟩, rfl⟩
    exact ⟨row, ⟨hm, rfl⟩, hp⟩
  · rintro ⟨row, ⟨hm, rfl⟩, hp⟩
    exact ⟨row, ⟨hm, hp⟩, rfl⟩

/-- Some claim of the item came after its last requeue. -/
def claimedSinceRequeue (id : String) : List IngressMove → Bool
  | [] => false
  | .claimed ids :: rest => decide (id ∈ ids) || claimedSinceRequeue id rest
  | .requeued ids :: rest => !decide (id ∈ ids) && claimedSinceRequeue id rest
  | _ :: rest => claimedSinceRequeue id rest

/-- No item is claimed again before it was requeued. -/
def ClaimsApart : List IngressMove → Prop
  | [] => True
  | .claimed ids :: rest => (∀ id ∈ ids, claimedSinceRequeue id rest = false) ∧ ClaimsApart rest
  | _ :: rest => ClaimsApart rest

/-- An item that was claimed earlier and not since its last requeue was requeued. -/
theorem exists_requeue (hid : id ∈ ids) (h : claimedSinceRequeue id (mid ++ .claimed ids :: old) = false) :
    ∃ requeued, .requeued requeued ∈ mid ∧ id ∈ requeued := by
  induction mid with
  | nil => simp [claimedSinceRequeue, hid] at h
  | cons move mid ih =>
    have hl : claimedSinceRequeue id (mid ++ .claimed ids :: old) = false →
        ∃ requeued, .requeued requeued ∈ move :: mid ∧ id ∈ requeued := by
      intro h
      obtain ⟨requeued, hm, hin⟩ := ih h
      exact ⟨requeued, List.mem_cons_of_mem move hm, hin⟩
    cases move with
    | enqueued _ | delivered _ => exact hl h
    | claimed claimed =>
      simp only [List.cons_append, claimedSinceRequeue, Bool.or_eq_false_iff] at h
      exact hl h.2
    | requeued requeued =>
      by_cases hin : id ∈ requeued
      · exact ⟨requeued, List.mem_cons_self, hin⟩
      · simp only [List.cons_append, claimedSinceRequeue, hin] at h
        exact hl h

theorem ClaimsApart.requeue_between {new : List IngressMove}
    (h : ClaimsApart (new ++ .claimed ids' :: (mid ++ .claimed ids :: old))) (hid : id ∈ ids) (hid' : id ∈ ids') :
    ∃ requeued, .requeued requeued ∈ mid ∧ id ∈ requeued := by
  induction new with
  | nil => exact exists_requeue hid (h.1 id hid')
  | cons move new ih =>
    cases move with
    | claimed claimed => exact ih h.2
    | enqueued _ | requeued _ | delivered _ => exact ih h

/-! ### Where the store can be after a statement -/

/-- An item that is not in the inbox or pending was not claimed since it was last requeued. -/
structure IngressStore.Consistent (store : IngressStore) : Prop where
  unclaimed : ∀ id, (∀ row, store.table.row id = some row → row.status = .pending) →
    claimedSinceRequeue id store.moves = false
  apart : ClaimsApart store.moves

/-- What an item carries stays, and a delivered item stays delivered. -/
structure IngressRow.Evolves (row row' : IngressRow) : Prop where
  sourceKind : row'.sourceKind = row.sourceKind
  sourceKey : row'.sourceKey = row.sourceKey
  payloadJson : row'.payloadJson = row.payloadJson
  delivered : row.status = .delivered → row'.status = .delivered

theorem IngressRow.Evolves.refl (row : IngressRow) : row.Evolves row := ⟨rfl, rfl, rfl, id⟩

theorem IngressRow.Evolves.trans {a b c : IngressRow} (hab : a.Evolves b) (hbc : b.Evolves c) : a.Evolves c :=
  ⟨hbc.sourceKind.trans hab.sourceKind, hbc.sourceKey.trans hab.sourceKey,
    hbc.payloadJson.trans hab.payloadJson, hbc.delivered ∘ hab.delivered⟩

/-- No row is lost, and the items that are delivered on the way are marked, by their
identifier and payload. -/
structure IngressStore.Follows (marked : String → String → Prop) (s s' : IngressStore) : Prop where
  consistent : s.Consistent → s'.Consistent
  rows : ∀ id row, s.table.row id = some row → ∃ row', s'.table.row id = some row' ∧ row.Evolves row'
  delivered : ∀ id row', s'.table.row id = some row' → row'.status = .delivered →
    (∃ row, s.table.row id = some row ∧ row.status = .delivered) ∨ marked id row'.payloadJson

variable {marked marked' : String → String → Prop} (s : IngressStore)

theorem follows_refl : s.Follows marked s where
  consistent := id
  rows _ row h := ⟨row, h, .refl row⟩
  delivered _ row h hd := .inl ⟨row, h, hd⟩

theorem follows_trans (t u : IngressStore) (hst : s.Follows marked t) (htu : t.Follows marked u) :
    s.Follows marked u where
  consistent := htu.consistent ∘ hst.consistent
  rows id row hr := by
    obtain ⟨row', hr', hev⟩ := hst.rows id row hr
    obtain ⟨row'', hr'', hev'⟩ := htu.rows id row' hr'
    exact ⟨row'', hr'', hev.trans hev'⟩
  delivered id row hr hd := by
    rcases htu.delivered id row hr hd with ⟨row', hr', hd'⟩ | hm
    · obtain ⟨row'', hr'', hev⟩ := htu.rows id row' hr'
      obtain rfl : row = row'' := Option.some.inj (hr.symm.trans hr'')
      rcases hst.delivered id row' hr' hd' with ho | hm
      · exact .inl ho
      · exact .inr (hev.payloadJson ▸ hm)
    · exact .inr hm

theorem IngressStore.Follows.mono {s s' : IngressStore}
    (h : s.Follows marked s') (hs : ∀ id payload, marked id payload → marked' id payload) :
    s.Follows marked' s' :=
  ⟨h.consistent, h.rows, fun id row hr hd => (h.delivered id row hr hd).imp_right (hs id _)⟩

theorem follows_update {s : IngressStore} {hk : ∀ row, (f row).ingressId = row.ingressId} {m : List IngressMove}
    (hc : s.Consistent → IngressStore.Consistent ⟨s.table.update p f hk, m⟩)
    (he : ∀ row, p row = true → row.Evolves (f row))
    (hm : ∀ id row, s.table.row id = some row → p row = true → (f row).status = .delivered →
      marked id row.payloadJson) : s.Follows marked ⟨s.table.update p f hk, m⟩ where
  consistent := hc
  rows id row hr := by
    simp only [Table.row_update, hr, Option.map_some]
    refine ⟨_, rfl, ?_⟩
    split
    case isTrue hp => exact he row hp
    case isFalse => exact .refl row
  delivered id row' hr' hd := by
    simp only [Table.row_update, Option.map_eq_some_iff] at hr'
    obtain ⟨row, hr, rfl⟩ := hr'
    by_cases hp : p row = true
    · rw [if_pos hp] at hd ⊢
      rw [(he row hp).payloadJson]
      exact .inr (hm id row hr hp hd)
    · rw [if_neg hp] at hd
      exact .inl ⟨row, hr, hd⟩

theorem follows_enqueue (i : IngressItem) : s.Follows marked (s.enqueueIngressItem i).1 := by
  unfold enqueueIngressItem
  split
  case h_1 => exact follows_refl s
  case h_2 hn =>
    split
    case h_1 => exact follows_refl s
    case h_2 enqueuedAt _ =>
      have hr : ∀ id, (s.table.upsert (ingressRow i enqueuedAt)).row id =
          if id = i.ingressId then some (ingressRow i enqueuedAt) else s.table.row id :=
        fun id => Table.row_upsert _ _ id
      refine ⟨fun hs => ⟨fun id hp => ?_, hs.apart⟩, fun id row ho => ?_, fun id row' hr' hd => ?_⟩
      · refine hs.unclaimed id fun row ho => hp row ?_
        rw [hr, if_neg (by rintro rfl; simp [hn] at ho)]
        exact ho
      · refine ⟨row, ?_, .refl row⟩
        simp only [hr]
        rw [if_neg (by rintro rfl; simp [hn] at ho)]
        exact ho
      · simp only [hr] at hr'
        split at hr'
        case isTrue =>
          cases hr'
          cases hd
        case isFalse => exact .inl ⟨row', hr', hd⟩

theorem pending_of_update {s : IngressStore} (hk : ∀ row, (f row).ingressId = row.ingressId)
    (h : ∀ row', (s.table.update p f hk).row id = some row' → row'.status = .pending)
    (hr : s.table.row id = some row) : (if p row then f row else row).status = .pending :=
  h _ (by simp [Table.row_update, hr])

theorem follows_requeue (b : ℕ) : s.Follows marked (s.requeueStaleIngress b).1 := by
  unfold requeueStaleIngress
  split
  case h_1 => exact follows_refl s
  case h_2 b _ =>
    refine follows_update (fun hs => ⟨fun id hpe => ?_, hs.apart⟩) (fun row hp => ?_) fun _ _ _ _ hd => ?_
    · by_cases hin : id ∈ s.select (·.isStale b)
      · simp [claimedSinceRequeue, hin]
      · simp only [claimedSinceRequeue, hin]
        refine hs.unclaimed id fun row hr => ?_
        have hst : row.isStale b = false := by
          by_contra hst
          exact hin (mem_select.mpr ⟨row, hr, by simpa using hst⟩)
        simpa [hst] using pending_of_update (by intro _; rfl) hpe hr
    · refine ⟨rfl, rfl, rfl, fun hde => ?_⟩
      simp [IngressRow.isStale, hde] at hp
    · cases hd

theorem follows_markEmitted (ids : List String) (now : ℕ) : s.Follows marked (s.markIngressEmitted ids now).1 := by
  unfold markIngressEmitted
  split
  case isTrue => exact follows_refl s
  case isFalse =>
    split
    case h_1 => exact follows_refl s
    case h_2 emittedAt _ =>
      refine follows_update (fun hs => ⟨fun id hpe => ?_, ?_, hs.apart⟩) (fun row hp => ?_) fun _ _ _ _ hd => ?_
      · -- a claimed row is emitted, so a pending one was not claimed now
        have hin : id ∉ s.select (claimable ids) := by
          intro hin
          obtain ⟨row, hr, hp⟩ := mem_select.mp hin
          simpa [hp] using pending_of_update (by intro _; rfl) hpe hr
        simp only [claimedSinceRequeue, hin]
        refine hs.unclaimed id fun row hr => ?_
        have hn : claimable ids row = false := by
          by_contra hp
          exact hin (mem_select.mpr ⟨row, hr, by simpa using hp⟩)
        simpa [hn] using pending_of_update (by intro _; rfl) hpe hr
      · intro id hin
        obtain ⟨row, hr, hp⟩ := mem_select.mp hin
        refine hs.unclaimed id fun row' hr' => ?_
        obtain rfl : row = row' := Option.some.inj (hr.symm.trans hr')
        simp only [claimable, IngressRow.isOpen, Bool.and_eq_true, beq_iff_eq] at hp
        exact hp.2.1
      · refine ⟨rfl, rfl, rfl, fun hde => ?_⟩
        simp [claimable, IngressRow.isOpen, hde] at hp
      · cases hd

theorem follows_markDelivered (now : ℕ)
    (hi : ∀ id ∈ ids, ∀ row, s.table.row id = some row → marked id row.payloadJson) :
    s.Follows marked (s.markIngressDelivered ids now).1 := by
  unfold markIngressDelivered
  split
  case isTrue => exact follows_refl s
  case isFalse =>
    split
    case h_1 => exact follows_refl s
    case h_2 deliveredAt _ =>
      refine follows_update (fun hs => ⟨fun id hpe => ?_, hs.apart⟩) (fun row _ => ⟨rfl, rfl, rfl, fun _ => rfl⟩)
        fun id row hr hp _ => hi id ?_ row hr
      · refine hs.unclaimed id fun row hr => ?_
        have hst := pending_of_update (by intro _; rfl) hpe hr
        by_cases hp : confirmable ids row = true
        · simp [hp] at hst
        · simpa [hp] using hst
      · rw [← Table.key_of_row hr]
        exact of_decide_eq_true (Bool.and_eq_true_iff.mp hp).1

end AgentiumOs.Ingress
