import AgentiumOs.Ingress.SlackBatch

/-! The raw datasources of a runner. All of them share one inbox with the built-in intakes of Slack
and Grafana, and a producer selects its items by their source kind alone. The runner therefore
refuses to start with two datasources of one source kind, but not with one of a built-in kind. -/

namespace AgentiumOs.Ingress

open Lib Lib.Fallible Lib.Cooperative
open Lib.Json (Value)
open Events (BamlRtError CheckpointCodec EventSourceKey EventSourceKind ProducedEvent
  ProducerCheckpoint ProducerPoll attributed pollCheckpoint)

/-- The members of a request that the intake reads: the text under a header, and the body. -/
structure WebhookRequest where
  header : String → Option String
  body : List UInt8

structure WebhookResponse where
  status : ℕ
  body : String

def WebhookResponse.badRequest (message : String) : WebhookResponse := ⟨400, message⟩

/-- What the Grafana producer reads of the payload of its items. -/
structure GrafanaIngressEnvelope where
  contextId : String
  messageId : String
  alert : Value

/-- The serialisation and the digest the intakes use. -/
structure IntakeFormats extends Formats where
  readBody : List UInt8 → Except String Value
  writeEnvelope : RawIngressEnvelope → String
  readAlert : String → Except String GrafanaIngressEnvelope
  /-- The hexadecimal digits of the SHA-256 digest. -/
  sha256 : List UInt8 → String
  json_of_envelope : ∀ envelope, ∃ payload, readJson (writeEnvelope envelope) = .ok payload
  /-- It has no `message_id`. -/
  no_alert_of_envelope : ∀ envelope, ∃ err, readAlert (writeEnvelope envelope) = .error err

variable (F : IntakeFormats)

def sha256Hex (bytes : List UInt8) : String := "sha256:" ++ F.sha256 bytes

def ingressIdFor (sourceKind : EventSourceKind) (sourceKey : EventSourceKey) (dedupeValue : String) : String :=
  "external-datasource:" ++ F.sha256 (sourceKind.text.toUTF8.toList ++ [0] ++ sourceKey.text.toUTF8.toList ++
    [0] ++ dedupeValue.toUTF8.toList)

/-- A header that is not blank, or the digest of the body. -/
def dedupeValue (spec : RawDatasourceSpec) (request : WebhookRequest) : String :=
  match spec.dedupeHeader.bind request.header with
  | some value => if (Text.trim value).isEmpty then sha256Hex F request.body else value
  | none => sha256Hex F request.body

/-- The item a request is turned into, or the response that rejects it. -/
def rawItem (spec : RawDatasourceSpec) (request : WebhookRequest) (now : ℕ) : Except WebhookResponse IngressItem :=
  if request.body.length > spec.maxBodyBytes then
    .error (.badRequest ("webhook body exceeds " ++ toString spec.maxBodyBytes ++ " bytes"))
  else
    match F.readBody request.body with
    | .error err => .error (.badRequest ("invalid JSON: " ++ err))
    | .ok (.object members) =>
        let ingressId := ingressIdFor F spec.sourceKind spec.sourceKey (dedupeValue F spec request)
        .ok
          { ingressId := ingressId
            sourceKind := spec.sourceKind
            sourceKey := spec.sourceKey
            payloadJson := F.writeEnvelope ⟨.object members, "external-datasource:" ++ ingressId⟩
            enqueuedAtUnixMs := now }
    | .ok _ => .error (.badRequest "webhook body must be a JSON object")

def handle (spec : RawDatasourceSpec) (request : WebhookRequest) (now : ℕ) (store : IngressStore) :
    IngressStore × Except BamlRtError WebhookResponse :=
  match rawItem F spec request now with
  | .error response => (store, .ok response)
  | .ok item => ((store.enqueueIngressItem item).1,
      (store.enqueueIngressItem item).2.map fun _ => ⟨spec.responseStatus, ""⟩)

/-! ### The datasources a runner starts with -/

def RawDatasourceSpec.owner (spec : RawDatasourceSpec) : String := spec.toolName ++ "." ++ spec.key

/-- The loop over the approved datasources, with the owners of the source kinds so far. -/
def loadExternalRawDatasources (seenSources : List (String × String)) :
    List RawDatasourceSpec → Except String (List RawDatasourceSpec)
  | [] => .ok []
  | spec :: rest =>
      match seenSources.lookup spec.sourceKind.text with
      | some existing => .error ("duplicate external datasource source_kind '" ++ spec.sourceKind.text ++
          "' owned by '" ++ existing ++ "' and '" ++ spec.owner ++ "'")
      | none => (loadExternalRawDatasources ((spec.sourceKind.text, spec.owner) :: seenSources) rest).map (spec :: ·)

/-! ### The producer of Grafana's alerts -/

def grafanaSourceKind : EventSourceKind := ⟨"grafana"⟩

def grafanaInboxProducerKey : String := "support/grafana-alerts:inbox"

def grafanaEvent (item : IngressItem) (envelope : GrafanaIngressEnvelope) : ProducedEvent where
  routingKey := ⟨"grafana:intake"⟩
  schemaVersion := ⟨"grafana.alert.v1"⟩
  sourceKind := grafanaSourceKind
  sourceKey := item.sourceKey
  messages := [envelope.alert]
  contextId := some envelope.contextId
  taskId := none
  messageId := some envelope.messageId
  producerKey := none
  metadata := none

/-- The loop over the claimed items: each that is emitted, with its event. -/
def grafanaConvert (now : ℕ) : List IngressItem → PollProgram Unit (List (String × ProducedEvent))
  | [] => pure []
  | item :: rest =>
      match F.readAlert item.payloadJson with
      | .ok envelope => do
          let emitted ← grafanaConvert now rest
          pure ((item.ingressId, grafanaEvent item envelope) :: emitted)
      | .error _ => do
          inboxStatement (quiet now) (·.markIngressDelivered [item.ingressId] now)
          grafanaConvert now rest

def grafanaPoll (checkpoint : ProducerCheckpoint) (now : ℕ) :
    PollProgram Unit (List (String × ProducedEvent) × ProducerCheckpoint) := do
  let delivered := F.codec.fromCheckpoint checkpoint
  let items ← claimPending (quiet now) [grafanaSourceKind] 100 60000 now delivered
  let emitted ← grafanaConvert F now items
  pure (emitted, pollCheckpoint F.codec (!delivered.isEmpty) (emitted.map Prod.snd) (emitted.map Prod.fst))

/-! ### Intakes and polls -/

inductive DatasourceOp where
  | request (spec : RawDatasourceSpec) (request : WebhookRequest) (now : ℕ)
  | poll (producer : InboxProducer) (checkpoint : ProducerCheckpoint) (now : ℕ)
  | grafanaPoll (checkpoint : ProducerCheckpoint) (now : ℕ)
  /-- What Slack's receiver or Grafana's webhook enqueues. -/
  | arrival (item : IngressItem)

/-- The inbox, and which datasource received each of its items. -/
structure Intakes where
  store : IngressStore
  receivedBy : List (String × RawDatasourceSpec)

/-- A request that adds an item to the inbox is received by its datasource. -/
def received (intakes : Intakes) (spec : RawDatasourceSpec) (request : WebhookRequest) (now : ℕ) :
    List (String × RawDatasourceSpec) :=
  match rawItem F spec request now with
  | .error _ => intakes.receivedBy
  | .ok item =>
      if (intakes.store.enqueueIngressItem item).2.toOption = some true then
        (item.ingressId, spec) :: intakes.receivedBy
      else intakes.receivedBy

/-- The items that a poll emits, each with its event as the dispatcher publishes it. -/
def published (producerKey : String) : Except BamlRtError (List (Option String × ProducedEvent)) →
    List (Option String × ProducedEvent)
  | .error _ => []
  | .ok emitted => emitted.map fun (id, event) => (id, attributed event (some producerKey))

def datasourceStep (intakes : Intakes) : DatasourceOp → Intakes × List (Option String × ProducedEvent)
  | .request spec request now =>
      (⟨(handle F spec request now intakes.store).1, received F intakes spec request now⟩, [])
  | .poll producer checkpoint now =>
      let polled := runOn (producer.poll (quiet now) F.toFormats checkpoint) ⟨intakes.store, ()⟩
      (⟨polled.2.store, intakes.receivedBy⟩, published producer.producerKey
        (polled.1.map fun batch => batch.events.map fun event => (event.messageId, event)))
  | .grafanaPoll checkpoint now =>
      let polled := runOn (grafanaPoll F checkpoint now) ⟨intakes.store, ()⟩
      (⟨polled.2.store, intakes.receivedBy⟩, published grafanaInboxProducerKey
        (polled.1.map fun batch => batch.1.map fun (id, event) => (some id, event)))
  | .arrival item => (⟨(intakes.store.enqueueIngressItem item).1, intakes.receivedBy⟩, [])

def DatasourceOp.Of (installed : List RawDatasourceSpec) : DatasourceOp → Prop
  | .request spec _ _ | .poll (.raw spec) _ _ => spec ∈ installed
  | .arrival item => item.sourceKind = slackSourceKind ∨ item.sourceKind = grafanaSourceKind
  | _ => True

/-- An item that a datasource received is emitted by the producer of that datasource, as this one
publishes. -/
def EmitsOwnItems (intakes : Intakes) (op : DatasourceOp) : Prop :=
  ∀ id event, (some id, event) ∈ (datasourceStep F intakes op).2 →
    ∀ spec, intakes.receivedBy.lookup id = some spec →
      (∃ checkpoint now, op = .poll (.raw spec) checkpoint now) ∧ event.schemaVersion = spec.schemaVersion ∧
        event.routingKey = spec.routingKey ∧ event.producerKey = some spec.producerKey

/-! ### What a poll emits -/

variable {F} {now : ℕ} {spec : RawDatasourceSpec} {installed specs : List RawDatasourceSpec}
  {w w' : World IngressStore Unit}

abbrev Marking : String → String → Prop := fun _ _ => True

/-- What a poll claims is of its kind, and was handed in with the payload that it reads. -/
theorem claimed_row (h : runOn (claimPending (quiet now) k limit r now d) w = (.ok i, w'))
    (hi : item ∈ i) (hr : w.store.table.row item.ingressId = some row) :
    row.sourceKind ∈ k ∧ item.payloadJson = row.payloadJson := by
  obtain ⟨⟨row', hr', hp, hk⟩, hm, -⟩ := (claimPending_ok _ h).1 item hi
  have hf : WorldFollows Marking w w' := (preserves_claimPending _ _ _ _ _ _ fun _ _ _ => trivial).of_run h
  obtain ⟨row'', hr'', hev⟩ := hf.rows _ row hr
  obtain rfl : row' = row'' := Option.some.inj (hr'.symm.trans hr'')
  exact ⟨hev.sourceKind ▸ hk ▸ hm, hp.symm.trans hev.payloadJson⟩

/-- No two of the datasources a runner starts with have a source kind in common. -/
theorem load_ok (h : loadExternalRawDatasources s specs = .ok installed) :
    (∀ spec ∈ installed, s.lookup spec.sourceKind.text = none) ∧ (installed.map (·.sourceKind)).Nodup := by
  induction specs generalizing s installed with
  | nil =>
    cases h
    simp
  | cons spec r ih =>
    unfold loadExternalRawDatasources at h
    split at h
    case h_1 => cases h
    case h_2 hn =>
      cases hr : loadExternalRawDatasources ((spec.sourceKind.text, spec.owner) :: s) r with
      | error err => simp [hr, Except.map] at h
      | ok others =>
        simp only [hr, Except.map, Except.ok.injEq] at h
        subst h
        obtain ⟨hs, hno⟩ := ih hr
        have ho : ∀ o ∈ others, o.sourceKind ≠ spec.sourceKind ∧
            s.lookup o.sourceKind.text = none := by
          intro o hm
          have hl := hs o hm
          rw [List.lookup_cons] at hl
          split at hl
          case h_1 => cases hl
          case h_2 hne =>
            refine ⟨fun heq => ?_, hl⟩
            simp [heq] at hne
        refine ⟨List.forall_mem_cons.mpr ⟨hn, fun o hm => (ho o hm).2⟩, ?_⟩
        rw [List.map_cons, List.nodup_cons]
        refine ⟨fun hm => ?_, hno⟩
        obtain ⟨o, hm, heq⟩ := List.mem_map.mp hm
        exact (ho o hm).1 heq

/-- An item that a datasource received is in the inbox as it was written. -/
def Received (F : IntakeFormats) (installed : List RawDatasourceSpec) (intakes : Intakes) : Prop :=
  ∀ id spec, intakes.receivedBy.lookup id = some spec → spec ∈ installed ∧
    (∃ request now item, rawItem F spec request now = .ok item) ∧
    ∃ row envelope, intakes.store.table.row id = some row ∧ row.sourceKind = spec.sourceKind ∧
      row.payloadJson = F.writeEnvelope envelope

theorem preserves_grafanaConvert (now : ℕ) (i : List IngressItem) :
    Preserves (WorldFollows Marking) (grafanaConvert F now i) := by
  induction i with
  | nil => exact preserves_pure worldFollows_refl _
  | cons item rest ih =>
    unfold grafanaConvert
    split
    · exact preserves_bind worldFollows_trans ih fun _ => preserves_pure worldFollows_refl _
    · refine preserves_bind worldFollows_trans (preserves_inboxStatement _ fun s => ?_) fun _ => ih
      exact follows_markDelivered s now fun _ _ _ _ => trivial

theorem grafanaConvert_mem (h : runOn (grafanaConvert F now i) w = (.ok emitted, w')) (he : m ∈ emitted) :
    ∃ item ∈ i, item.ingressId = m.1 ∧ ∃ envelope, F.readAlert item.payloadJson = .ok envelope := by
  induction i generalizing w emitted with
  | nil =>
    cases h
    cases he
  | cons item rest ih =>
    cases hr : F.readAlert item.payloadJson with
    | ok envelope =>
      simp only [grafanaConvert, hr] at h
      obtain ⟨emitted', w₁, hre, h⟩ := runOn_bind_eq_ok.mp h
      cases h
      rcases List.mem_cons.mp he with rfl | hme
      · exact ⟨item, List.mem_cons_self, rfl, envelope, hr⟩
      · obtain ⟨o, ho, hm⟩ := ih hre hme
        exact ⟨o, List.mem_cons_of_mem _ ho, hm⟩
    | error err =>
      simp only [grafanaConvert, hr] at h
      obtain ⟨_, w₁, -, h⟩ := runOn_bind_eq_ok.mp h
      obtain ⟨o, ho, hm⟩ := ih h he
      exact ⟨o, List.mem_cons_of_mem _ ho, hm⟩

theorem follows_step (i : Intakes) (op : DatasourceOp) :
    i.store.Follows Marking (datasourceStep F i op).1.store := by
  cases op with
  | request spec request now =>
    simp only [datasourceStep, handle]
    split
    · exact follows_refl _
    · exact follows_enqueue _ _
  | poll p checkpoint now =>
    exact (poll_follows (quiet now) F.toFormats p checkpoint ⟨i.store, ()⟩).mono fun _ _ _ => trivial
  | grafanaPoll checkpoint now =>
    refine preserves_bind worldFollows_trans (preserves_claimPending _ _ _ _ _ _ fun _ _ _ => trivial)
      (fun it => ?_) ⟨i.store, ()⟩
    exact preserves_bind worldFollows_trans (preserves_grafanaConvert now it) fun _ =>
      preserves_pure worldFollows_refl _
  | arrival item => exact follows_enqueue _ item

theorem rawItem_ok (h : rawItem F spec r now = .ok i) :
    i.sourceKind = spec.sourceKind ∧ ∃ envelope, i.payloadJson = F.writeEnvelope envelope := by
  unfold rawItem at h
  split at h
  case isTrue => cases h
  case isFalse =>
    split at h
    case h_1 => cases h
    case h_2 =>
      cases h
      exact ⟨rfl, _, rfl⟩
    case h_3 => cases h

theorem received_step (hop : op.Of installed) (h : Received F installed i) :
    Received F installed (datasourceStep F i op).1 := by
  -- what was received before is still in the inbox
  have hold : ∀ id spec, i.receivedBy.lookup id = some spec → spec ∈ installed ∧
      (∃ request now item, rawItem F spec request now = .ok item) ∧ ∃ row envelope,
        (datasourceStep F i op).1.store.table.row id = some row ∧ row.sourceKind = spec.sourceKind ∧
          row.payloadJson = F.writeEnvelope envelope := by
    intro id spec hl
    obtain ⟨hi, ha, row, envelope, hr, hk, hp⟩ := h id spec hl
    obtain ⟨row', hr', hev⟩ := (follows_step i op).rows id row hr
    exact ⟨hi, ha, row', envelope, hr', hev.sourceKind.trans hk, hev.payloadJson.trans hp⟩
  cases op with
  | request spec request now =>
    cases hi : rawItem F spec request now with
    | error r =>
      intro id o hl
      simp only [datasourceStep, received, hi] at hl
      exact hold id o hl
    | ok item =>
      obtain ⟨hk, envelope, hp⟩ := rawItem_ok hi
      intro id o hl
      rcases enqueue_cases i.store item with ⟨-, ha⟩ | ⟨e, ht, ha⟩
      · simp only [datasourceStep, received, hi, if_neg ha] at hl
        exact hold id o hl
      · simp only [datasourceStep, received, hi, if_pos ha, List.lookup_cons] at hl
        split at hl
        case h_1 heq =>
          cases hl
          obtain rfl := beq_iff_eq.mp heq
          refine ⟨hop, ⟨request, now, item, hi⟩, ingressRow item e, envelope, ?_, hk, hp⟩
          simp only [datasourceStep, handle, hi, ht]
          exact (Table.row_upsert ..).trans (if_pos rfl)
        case h_2 => exact hold id o hl
  | _ => exact hold

theorem mem_published {polled : Except BamlRtError α × σ} {emitted : α → List β} {g : β → Option String × ProducedEvent}
    (h : m ∈ published p (polled.1.map fun batch => (emitted batch).map g)) : ∃ batch s, polled = (.ok batch, s) ∧
      ∃ made ∈ emitted batch, m = ((g made).1, attributed (g made).2 (some p)) := by
  obtain ⟨_ | batch, s⟩ := polled
  · cases h
  · obtain ⟨_, hm, rfl⟩ := List.mem_map.mp h
    obtain ⟨made, hma, rfl⟩ := List.mem_map.mp hm
    exact ⟨batch, s, rfl, made, hma, rfl⟩

/-- Of the items that datasources received, a producer emits only those of its own, unless it is
Slack's. -/
theorem emitsOwnItems (hn : (installed.map (·.sourceKind)).Nodup)
    (hs : ∀ spec ∈ installed, spec.sourceKind = slackSourceKind →
      ∀ request now item, rawItem F spec request now ≠ .ok item)
    (hop : op.Of installed) (h : Received F installed i) : EmitsOwnItems F i op := by
  intro id e he spec hl
  obtain ⟨hi, ⟨request, now, item₀, hre⟩, row, envelope, hr, hk, hp⟩ := h id spec hl
  cases op with
  | request | arrival => cases he
  | poll p checkpoint now =>
    obtain ⟨batch, w', hru, made, hma, heq⟩ := mem_published he
    obtain ⟨hid, rfl⟩ := Prod.mk.inj heq
    cases p with
    | slack =>
      rw [InboxProducer.poll, slackPoll, runOn_get_bind] at hru
      obtain ⟨ite, w₁, hc, hru⟩ := runOn_bind_eq_ok.mp hru
      obtain ⟨events, w₂, hv, hru⟩ := runOn_bind_eq_ok.mp hru
      cases hru
      obtain ⟨hco, rfl⟩ := Prod.mk.inj hv
      have hids : some id ∈ (ite.map (·.ingressId)).map some :=
        messageIds_convert hco ▸ List.mem_map.mpr ⟨made, hma, hid.symm⟩
      obtain ⟨item, hit, rfl⟩ : ∃ item ∈ ite, item.ingressId = id := by simpa using hids
      exact absurd hre (hs spec hi (hk ▸ List.mem_singleton.mp (claimed_row hc hit hr).1) _ _ _)
    | raw other =>
      rw [InboxProducer.poll, rawPoll, runOn_get_bind] at hru
      obtain ⟨ite, w₁, hc, hru⟩ := runOn_bind_eq_ok.mp hru
      obtain ⟨⟨d, events⟩, w₂, hco, hru⟩ := runOn_bind_eq_ok.mp hru
      cases hru
      obtain ⟨item, hit, envelope', rfl⟩ := rawConvert_events _ hco hma
      obtain rfl : item.ingressId = id := (Option.some.inj hid).symm
      obtain rfl : spec = other :=
        List.inj_on_of_nodup_map hn hi hop (hk.symm.trans (List.mem_singleton.mp (claimed_row hc hit hr).1))
      exact ⟨⟨checkpoint, now, rfl⟩, rfl, rfl, rfl⟩
  | grafanaPoll checkpoint now =>
    obtain ⟨batch, w', hru, made, hma, heq⟩ := mem_published he
    obtain ⟨hid, rfl⟩ := Prod.mk.inj heq
    obtain ⟨ite, w₁, hc, hru⟩ := runOn_bind_eq_ok.mp hru
    obtain ⟨made', w₂, hco, hru⟩ := runOn_bind_eq_ok.mp hru
    cases hru
    obtain ⟨item, hit, hid', alert, hal⟩ := grafanaConvert_mem hco hma
    obtain rfl : item.ingressId = id := hid'.trans (Option.some.inj hid).symm
    -- an envelope of a datasource is not read as an alert
    obtain ⟨err, herr⟩ := F.no_alert_of_envelope envelope
    rw [(claimed_row hc hit hr).2, hp, herr] at hal
    cases hal

theorem rawItem_at (h : rawItem F spec r now = .ok i) (now' : ℕ) :
    rawItem F spec r now' = .ok { i with enqueuedAtUnixMs := now' } := by
  unfold rawItem at h ⊢
  split at h
  case isTrue => cases h
  case isFalse hlen =>
    rw [if_neg hlen]
    split at h <;> cases h
    rfl

theorem slack_emits_batch (h : (slackPolled F.readJson F.codec int.store now c).1 = .ok p) (hb : InBatch i p) :
    ∃ e, (some i, e) ∈ (datasourceStep F int (.poll .slack c now)).2 := by
  obtain ⟨e, he, hid⟩ := hb
  refine ⟨attributed e (some slackInboxProducerKey), ?_⟩
  simp only [datasourceStep, InboxProducer.poll]
  rw [← slackPolled, h]
  exact List.mem_map.mpr ⟨_, List.mem_map_of_mem he, by rw [hid]; rfl⟩

/-- Slack's producer emits what a datasource of its kind has received. -/
theorem slack_emits_received (hki : spec.sourceKind = slackSourceKind) (h : rawItem F spec r 0 = .ok it)
    (hn : it.enqueuedAtUnixMs = 0) :
    ∃ ev, (some it.ingressId, ev) ∈ (datasourceStep F (datasourceStep F ⟨.new, []⟩
      (.request spec r 0)).1 (.poll .slack none 0)).2 := by
  obtain ⟨hk, en, hp⟩ := rawItem_ok h
  have hs : (datasourceStep F ⟨.new, []⟩ (.request spec r 0)).1.store =
      ⟨IngressStore.new.table.upsert (ingressRow it 0), [.enqueued it.ingressId]⟩ := by
    simp only [datasourceStep, handle, h]
    simp [IngressStore.enqueueIngressItem, IngressStore.new, Table.empty, Table.row, hn, unixMsToDbInt]
  have hl : slackListed F.codec (datasourceStep F ⟨.new, []⟩ (.request spec r 0)).1.store 0 none =
      [it] := by
    obtain ⟨i, sourceKind, sourceKey, p, e⟩ := it
    obtain rfl : sourceKind = slackSourceKind := hk.trans hki
    obtain rfl : e = 0 := hn
    rw [hs]
    rfl
  have hli : slackListed F.codec (datasourceStep F ⟨.new, []⟩ (.request spec r 0)).1.store 0 none ≠ [] :=
    hl ▸ List.cons_ne_nil _ _
  obtain ⟨polled, hpo, hb⟩ := (slackPolled_ok_iff hli).mpr
    ⟨⟨by decide, by simpa [hl, Decodes, hp] using F.json_of_envelope en⟩,
      List.mem_map_of_mem (hl ▸ List.mem_singleton_self it)⟩
  exact slack_emits_batch hpo hb

/-- In a runner that started, each item of a datasource is emitted only by the producer of that
datasource and as this one publishes, exactly when no datasource of Slack's kind receives anything. -/
theorem raw_items_emitted_by_receiver_iff {specs installed : List RawDatasourceSpec}
    (hload : loadExternalRawDatasources [] specs = .ok installed) :
    (∀ ops, (∀ op ∈ ops, op.Of installed) → Run.Along (datasourceStep F) (EmitsOwnItems F) ⟨.new, []⟩ ops) ↔
      ∀ spec ∈ installed, spec.sourceKind = slackSourceKind →
        ∀ request now item, rawItem F spec request now ≠ .ok item := by
  constructor
  · intro hall spec hsp hk request now item hi
    obtain ⟨-, hem, -⟩ := hall [.request spec request 0, .poll .slack none 0] (by simp [DatasourceOp.Of, hsp])
    have hz := rawItem_at hi 0
    obtain ⟨event, he⟩ := slack_emits_received hk hz rfl
    have hl : (datasourceStep F ⟨.new, []⟩ (.request spec request 0)).1.receivedBy.lookup item.ingressId =
        some spec := by
      simp only [datasourceStep, received, hz]
      simp [IngressStore.enqueueIngressItem, IngressStore.new, Table.empty, Table.row, unixMsToDbInt, Except.toOption]
    obtain ⟨⟨checkpoint, now', heq⟩, -⟩ := hem _ _ he spec hl
    cases heq
  · intro hs ops hops
    have hn := (load_ok hload).2
    suffices hrun : ∀ i, Received F installed i →
        Run.Along (datasourceStep F) (EmitsOwnItems F) i ops from hrun _ fun _ _ h => by cases h
    induction ops with
    | nil => exact fun _ _ => trivial
    | cons op ops ih =>
      intro i hr
      obtain ⟨hop, hre⟩ := List.forall_mem_cons.mp hops
      exact ⟨emitsOwnItems hn hs hop hr, ih hre _ (received_step hop hr)⟩

/-! ### A datasource of Slack's kind -/

def plainFormats : IntakeFormats where
  readJson _ := .ok .null
  readEnvelope text := .ok ⟨.object [], text⟩
  codec := .marked
  readBody _ := .ok (.object [])
  writeEnvelope envelope := envelope.contextId
  readAlert _ := .error "missing field `message_id`"
  sha256 _ := "e3b0c442"
  json_of_envelope _ := ⟨.null, rfl⟩
  no_alert_of_envelope _ := ⟨_, rfl⟩

def alertSpec (sourceKind : String) : RawDatasourceSpec where
  toolName := "support/alerts"
  key := "blue"
  sourceKind := ⟨sourceKind⟩
  sourceKey := ⟨"alerts:blue"⟩
  schemaVersion := ⟨"alerts.blue.v1"⟩
  responseStatus := 202
  dedupeHeader := none
  maxBodyBytes := 1048576

def emptyRequest : WebhookRequest := ⟨fun _ => none, []⟩

/-- The runner starts with a datasource of Slack's kind, and the item that it receives is published
by Slack's producer. -/
theorem slack_publishes_item_of_datasource :
    loadExternalRawDatasources [] [alertSpec "slack"] = .ok [alertSpec "slack"] ∧
      ((datasourceStep plainFormats (Run.exec (datasourceStep plainFormats) ⟨.new, []⟩
          [.request (alertSpec "slack") emptyRequest 5]) (.poll .slack none 10)).2.map
        fun made => (made.1, made.2.schemaVersion, made.2.routingKey, made.2.producerKey)) =
          [(some "external-datasource:e3b0c442", ⟨"host.source-records.v1"⟩, ⟨"event:intake"⟩,
            some "support/slack:inbox")] ∧
      ¬ Run.Along (datasourceStep plainFormats) (EmitsOwnItems plainFormats) ⟨.new, []⟩
        [.request (alertSpec "slack") emptyRequest 5, .poll .slack none 10] := by
  have hpu : ((datasourceStep plainFormats (Run.exec (datasourceStep plainFormats) ⟨.new, []⟩
      [.request (alertSpec "slack") emptyRequest 5]) (.poll .slack none 10)).2.map
        fun made => (made.1, made.2.schemaVersion, made.2.routingKey, made.2.producerKey)) =
          [(some "external-datasource:e3b0c442", ⟨"host.source-records.v1"⟩, ⟨"event:intake"⟩,
            some "support/slack:inbox")] := by decide +kernel
  refine ⟨by decide +kernel, hpu, ?_⟩
  rintro ⟨-, hp, -⟩
  obtain ⟨⟨id, event⟩, hm, heq⟩ := List.mem_map.mp (hpu ▸ List.mem_singleton_self _)
  obtain ⟨rfl, -⟩ := Prod.mk.inj heq
  obtain ⟨⟨checkpoint, now, heq⟩, -⟩ := hp _ _ hm (alertSpec "slack") (by decide +kernel)
  cases heq

/-- A runner whose datasource is of a kind of its own. -/
theorem alerts_emitted_by_receiver : loadExternalRawDatasources [] [alertSpec "alerts"] = .ok [alertSpec "alerts"] ∧
      Run.Along (datasourceStep plainFormats) (EmitsOwnItems plainFormats) ⟨.new, []⟩
        [.request (alertSpec "alerts") emptyRequest 5, .poll .slack none 10,
          .poll (.raw (alertSpec "alerts")) none 10] := by
  have hl : loadExternalRawDatasources [] [alertSpec "alerts"] = .ok [alertSpec "alerts"] := by decide +kernel
  refine ⟨hl, (raw_items_emitted_by_receiver_iff hl).mpr ?_ _ (by simp [DatasourceOp.Of])⟩
  intro spec hs hk
  obtain rfl := List.mem_singleton.mp hs
  exact absurd hk (by decide)

end AgentiumOs.Ingress
