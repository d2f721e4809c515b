import AgentiumOs.Lib.Run
import AgentiumOs.Ingress.Producers

/-! Sequences of polls of the Slack producer. A poll claims everything it lists
before it reads the payloads, and the first payload it cannot read ends it. The
items it claimed are then neither emitted nor pending. -/

namespace AgentiumOs.Ingress

open Lib Lib.Fallible Lib.Cooperative
open Events (BamlRtError CheckpointCodec EventSourceKind ProducedEvent ProducerCheckpoint ProducerPoll)

inductive SlackOp where
  | enqueue (item : IngressItem)
  | poll (now : ℕ) (checkpoint : ProducerCheckpoint)

/-- The inbox, and the items that some poll has listed. -/
structure SlackInbox where
  store : IngressStore
  listed : List String

variable (readJson : JsonReader) (C : CheckpointCodec)

def listingStore (store : IngressStore) (delivered : List String) (retryAfterMs now : ℕ) :
    Except BamlRtError IngressStore :=
  match store.markIngressDelivered delivered now with
  | (_, .error err) => .error err
  | (reconciled, .ok _) =>
      match reconciled.requeueStaleIngress (now - retryAfterMs) with
      | (_, .error err) => .error err
      | (requeued, .ok _) => .ok requeued

/-- The items a poll lists; none if it fails before. -/
def listedItems (sourceKinds : List EventSourceKind) (limit : ℕ) : Except BamlRtError IngressStore →
    List IngressItem
  | .error _ => []
  | .ok listing => listing.listPendingIngressItems sourceKinds limit

def slackListed (store : IngressStore) (now : ℕ) (checkpoint : ProducerCheckpoint) : List IngressItem :=
  listedItems [slackSourceKind] maxSlackInboxItemsPerPoll
    (listingStore store (C.fromCheckpoint checkpoint) slackIngressRetryAfterMs now)

def slackPolled (store : IngressStore) (now : ℕ) (checkpoint : ProducerCheckpoint) :
    Except BamlRtError ProducerPoll × World IngressStore Unit :=
  runOn (slackPoll (quiet now) readJson C checkpoint) ⟨store, ()⟩

def slackStep (inbox : SlackInbox) : SlackOp → SlackInbox × Option (Except BamlRtError ProducerPoll)
  | .enqueue item => ({ inbox with store := (inbox.store.enqueueIngressItem item).1 }, none)
  | .poll now checkpoint =>
      (⟨(slackPolled readJson C inbox.store now checkpoint).2.store,
        (slackListed C inbox.store now checkpoint).map (·.ingressId) ++ inbox.listed⟩,
        some (slackPolled readJson C inbox.store now checkpoint).1)

def Decodes (item : IngressItem) : Prop := ∃ payload, readJson item.payloadJson = .ok payload

/-- The items the poll lists and no earlier poll listed, with a payload that can be read. -/
def FirstListed (inbox : SlackInbox) (now : ℕ) (checkpoint : ProducerCheckpoint) (item : IngressItem) : Prop :=
  item ∈ slackListed C inbox.store now checkpoint ∧ item.ingressId ∉ inbox.listed ∧ Decodes readJson item

/-- The poll emits every readable item that it is the first to list. -/
def EmitsFirstListed (inbox : SlackInbox) : SlackOp → Prop
  | .enqueue _ => True
  | .poll now checkpoint => ∀ item, FirstListed readJson C inbox now checkpoint item →
      ∃ polled, (slackPolled readJson C inbox.store now checkpoint).1 = .ok polled ∧ InBatch item.ingressId polled

/-- The poll is the first to list no readable item, or every item it lists is readable
and its clock fits the database. -/
def AllOrNoneReadable (inbox : SlackInbox) : SlackOp → Prop
  | .enqueue _ => True
  | .poll now checkpoint => (∀ item, ¬ FirstListed readJson C inbox now checkpoint item) ∨
      now < 2 ^ 63 ∧ ∀ item ∈ slackListed C inbox.store now checkpoint, Decodes readJson item

variable {readJson C}

theorem runOn_reconcile_quiet (de : List String) (now : ℕ) (sto : IngressStore) :
    runOn (reconcile (quiet now) de now) ⟨sto, ()⟩ =
      ((sto.markIngressDelivered de now).2, ⟨(sto.markIngressDelivered de now).1, ()⟩) := by
  unfold reconcile
  split
  case isTrue he => simp [IngressStore.markIngressDelivered, he]
  case isFalse => exact runOn_inboxStatement_quiet now _ sto

variable {now l r : ℕ} {d ids emitted : List String} {s : List EventSourceKind}

theorem markIngressEmitted_listed (sto : IngressStore) (s : List EventSourceKind) (l : ℕ) (hn : now < 2 ^ 63) :
    ∃ emitted, (sto.markIngressEmitted ((sto.listPendingIngressItems s l).map (·.ingressId))
        now).2 = .ok emitted ∧
      ∀ item ∈ sto.listPendingIngressItems s l, item.ingressId ∈ emitted := by
  unfold IngressStore.markIngressEmitted
  split
  case isTrue he =>
    refine ⟨[], rfl, fun item hi => ?_⟩
    simp [List.map_eq_nil_iff.mp (List.isEmpty_iff.mp he)] at hi
  case isFalse =>
    simp only [unixMsToDbInt, if_pos hn]
    refine ⟨_, rfl, fun item hi => mem_select.mpr ?_⟩
    obtain ⟨row, hr, rfl, ho, -⟩ := mem_listPending hi
    exact ⟨row, hr, by simpa [IngressStore.claimable, ho] using ⟨_, hi, rfl⟩⟩

variable {st li : IngressStore}

theorem markIngressEmitted_late (h : (st.markIngressEmitted ids now).2 = .ok emitted) :
    ids = [] ∨ now < 2 ^ 63 := by
  unfold IngressStore.markIngressEmitted unixMsToDbInt at h
  split at h
  case isTrue he => exact .inl (List.isEmpty_iff.mp he)
  case isFalse =>
    by_cases hn : now < 2 ^ 63
    · exact .inr hn
    · rw [if_neg hn] at h
      cases h

theorem decodes_iff : Decodes readJson i ↔ ∃ event, convertSlackItem readJson i = .ok event := by
  unfold Decodes convertSlackItem ingressItemToEvent
  cases readJson i.payloadJson <;> simp

theorem runOn_claimPending_quiet (h : listingStore st d r now = .ok li) :
    runOn (claimPending (quiet now) s l r now d) ⟨st, ()⟩ = runOn (do
      let pending := li.listPendingIngressItems s l
      let emitted ← inboxStatement (quiet now) (·.markIngressEmitted (pending.map (·.ingressId)) now)
      pure (pending.filter fun item => decide (item.ingressId ∈ emitted))) ⟨li, ()⟩ := by
  unfold listingStore at h
  split at h
  case h_1 => cases h
  case h_2 reconciled _ hr =>
    split at h
    case h_1 => cases h
    case h_2 requeued count hre =>
      cases h
      have hf : runOn (reconcile (quiet now) d now) ⟨st, ()⟩ = (.ok (), ⟨reconciled, ()⟩) := by
        rw [runOn_reconcile_quiet, hr]
      have hs : runOn (inboxStatement (quiet now) (·.requeueStaleIngress (now - r)))
          ⟨reconciled, ()⟩ = (.ok count, ⟨li, ()⟩) := by
        rw [runOn_inboxStatement_quiet, hre]
      unfold claimPending
      rw [runOn_bind_ok hf, runOn_bind_ok hs, runOn_bind_ok (runOn_inboxStatement_quiet now _ li)]

/-- With nothing else going on, a poll claims everything it lists, if its clock fits
the database. -/
theorem claimPending_quiet (i : List IngressItem) (hs : listedItems s l (listingStore st d r now) ≠ []) :
    (runOn (claimPending (quiet now) s l r now d) ⟨st, ()⟩).1 = .ok i ↔
      now < 2 ^ 63 ∧ i = listedItems s l (listingStore st d r now) := by
  cases hl : listingStore st d r now with
  | error err => simp [hl, listedItems] at hs
  | ok li =>
    rw [hl] at hs
    simp only [listedItems] at hs ⊢
    rw [runOn_claimPending_quiet hl, runOn_bind, runOn_inboxStatement_quiet]
    constructor
    · intro h
      cases ha : (li.markIngressEmitted
        ((li.listPendingIngressItems s l).map (·.ingressId)) now).2 with
      | error err =>
        rw [ha] at h
        cases h
      | ok emitted =>
        have hn : now < 2 ^ 63 := (markIngressEmitted_late ha).resolve_left (by simpa using hs)
        obtain ⟨emitted', ha', hal⟩ := markIngressEmitted_listed li s l hn
        obtain rfl : emitted = emitted' := Except.ok.inj (ha.symm.trans ha')
        rw [ha] at h
        cases h
        refine ⟨hn, List.filter_eq_self.mpr fun item hi => ?_⟩
        exact decide_eq_true (hal item hi)
    · rintro ⟨hn, rfl⟩
      obtain ⟨emitted, ha, hal⟩ := markIngressEmitted_listed li s l hn
      rw [ha]
      refine congrArg Except.ok (List.filter_eq_self.mpr fun item hi => ?_)
      exact decide_eq_true (hal item hi)

theorem slackPolled_eq (st : IngressStore) (now : ℕ) (c : ProducerCheckpoint) :
    slackPolled readJson C st now c = runOn (slackPollAt (quiet now) readJson C now c) ⟨st, ()⟩ :=
  runOn_get_bind _ _

theorem slackPolled_ok_iff {checkpoint : ProducerCheckpoint} (hs : slackListed C st now checkpoint ≠ [])
    {id : String} :
    (∃ polled, (slackPolled readJson C st now checkpoint).1 = .ok polled ∧ InBatch id polled) ↔
      (now < 2 ^ 63 ∧ ∀ item ∈ slackListed C st now checkpoint, Decodes readJson item) ∧
        id ∈ (slackListed C st now checkpoint).map (·.ingressId) := by
  have hc : ∀ i, (runOn (claimPending (quiet now) [slackSourceKind] maxSlackInboxItemsPerPoll
      slackIngressRetryAfterMs now (C.fromCheckpoint checkpoint)) ⟨st, ()⟩).1 = .ok i ↔
        now < 2 ^ 63 ∧ i = slackListed C st now checkpoint :=
    fun i => claimPending_quiet i hs
  rw [slackPolled_eq, slackPollAt]
  constructor
  · rintro ⟨polled, hok, hb⟩
    obtain ⟨i, w₁, hru, hr⟩ := runOn_bind_eq_ok.mp (Prod.ext hok rfl)
    obtain ⟨hn, rfl⟩ := (hc i).mp (congrArg Prod.fst hru)
    obtain ⟨events, w₂, he, hp⟩ := runOn_bind_eq_ok.mp hr
    rw [runOn_lift, Prod.mk.injEq] at he
    have ha := exists_mapM_eq_ok.mp ⟨events, he.1⟩
    obtain ⟨rfl, -⟩ := hp
    exact ⟨⟨hn, fun item hi => decodes_iff.mpr (ha item hi)⟩, (inBatch_iff (messageIds_convert he.1) id).mp hb⟩
  · rintro ⟨⟨hn, ha⟩, hid⟩
    obtain ⟨events, he⟩ := exists_mapM_eq_ok.mpr fun item hi => decodes_iff.mp (ha item hi)
    obtain ⟨w₁, hru⟩ : ∃ w₁, runOn (claimPending (quiet now) [slackSourceKind] maxSlackInboxItemsPerPoll
        slackIngressRetryAfterMs now (C.fromCheckpoint checkpoint)) ⟨st, ()⟩ =
          (.ok (slackListed C st now checkpoint), w₁) :=
      ⟨_, Prod.ext ((hc _).mpr ⟨hn, rfl⟩) rfl⟩
    rw [runOn_bind_ok hru, he]
    exact ⟨_, rfl, (inBatch_iff (messageIds_convert he) id).mpr hid⟩

/-- Over every sequence of polls: each readable item is emitted by the first poll that
lists it exactly when each poll is the first to list no readable item, or can read
every item it lists. -/
theorem slack_emits_first_listed_iff (inbox : SlackInbox) (ops : List SlackOp) :
    Run.Along (slackStep readJson C) (EmitsFirstListed readJson C) inbox ops ↔
      Run.Along (slackStep readJson C) (AllOrNoneReadable readJson C) inbox ops := by
  refine Run.along_congr _ (fun inbox op => ?_) inbox ops
  cases op with
  | enqueue item => exact Iff.rfl
  | poll now checkpoint =>
    have hp : ∀ item, FirstListed readJson C inbox now checkpoint item →
        ((∃ polled, (slackPolled readJson C inbox.store now checkpoint).1 = .ok polled ∧
          InBatch item.ingressId polled) ↔
          now < 2 ^ 63 ∧ ∀ item ∈ slackListed C inbox.store now checkpoint, Decodes readJson item) := by
      rintro item ⟨hl, -, -⟩
      rw [slackPolled_ok_iff (List.ne_nil_of_mem hl)]
      exact and_iff_left (List.mem_map_of_mem hl)
    constructor
    · intro he
      by_cases hf : ∃ item, FirstListed readJson C inbox now checkpoint item
      · obtain ⟨item, hf⟩ := hf
        exact .inr ((hp item hf).mp (he item hf))
      · exact .inl (not_exists.mp hf)
    · rintro (hn | hall) item hf
      · exact absurd hf (hn item)
      · exact (hp item hf).mpr hall

/-! ### Two items, one of them unreadable -/

def slackItem (ingressId payloadJson : String) : IngressItem where
  ingressId := ingressId
  sourceKind := slackSourceKind
  sourceKey := ⟨"slack:C123"⟩
  payloadJson := payloadJson
  enqueuedAtUnixMs := 5

def readUntruncated : JsonReader := fun text =>
  if text = "truncated" then .error "EOF while parsing an object" else .ok (.string text)

def twoItems : SlackInbox :=
  Run.exec (slackStep readUntruncated .marked) ⟨.new, []⟩
    [.enqueue (slackItem "a" "hello"), .enqueue (slackItem "b" "truncated")]

/-- The readable item is listed and claimed by the first poll and not emitted, and
no longer pending. -/
theorem unreadable_item_fails_batch :
    (slackListed .marked twoItems.store 100 none).map (·.ingressId) = ["a", "b"] ∧
      (slackPolled readUntruncated .marked twoItems.store 100 none).1 =
        .error (.invalidArgument ("support/slack inbox failed to convert ingress item 'b' from 'slack:C123': " ++
          "Invalid argument: failed to deserialize stored ingress payload: EOF while parsing an object")) ∧
      ((slackPolled readUntruncated .marked twoItems.store 100 none).2.store.table.row "a").map (·.status) =
        some .emitted ∧
      ¬ EmitsFirstListed readUntruncated .marked twoItems (.poll 100 none) := by
  have her : (slackPolled readUntruncated .marked twoItems.store 100 none).1 =
      .error (.invalidArgument ("support/slack inbox failed to convert ingress item 'b' from 'slack:C123': " ++
        "Invalid argument: failed to deserialize stored ingress payload: EOF while parsing an object")) := by
    decide +kernel
  refine ⟨by decide +kernel, her, by decide +kernel, fun he => ?_⟩
  obtain ⟨polled, hok, -⟩ := he (slackItem "a" "hello")
    ⟨by decide +kernel, by decide +kernel, .string "hello", rfl⟩
  cases hok

end AgentiumOs.Ingress
