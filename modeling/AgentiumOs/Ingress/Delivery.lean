import AgentiumOs.Events.StorePoller
import AgentiumOs.Ingress.Producers

/-! Ingress items over whole runs of the runner: items are enqueued between and
during dispatcher cycles with one producer of the inbox, and restarts keep the
inbox and the saved checkpoint. -/

namespace AgentiumOs.Ingress

open Lib Lib.Fallible Lib.Cooperative Events
open Events.StorePoller (storeOf Ledger Keeps Acknowledges)

variable {E : Type} (S : Surroundings E) (F : Formats) (producer : InboxProducer)

/-- The producer in the runner; opening the database leaves the inbox as it is. -/
def inboxPoller : StorePoller IngressStore E InboxCall where
  call := IngressStore.inbox
  key := producer.producerKey
  poll := producer.poll S F
  reopen store := store

/-- The row of an item is in the inbox, with a property. -/
def HasRow (store : IngressStore) (id : String) (p : IngressRow → Prop) : Prop :=
  ∃ row, store.table.row id = some row ∧ p row

def inboxLedger : Ledger IngressStore where
  valid := IngressStore.Consistent
  follows := IngressStore.Follows NoneMarked
  known store id := HasRow store id fun _ => True
  closed store id := HasRow store id (·.status = .delivered)
  done store id := HasRow store id fun row => row.status = .delivered ∧ ¬ producer.Drops F row.payloadJson
  ids := F.codec.fromCheckpoint
  inBatch := InBatch

variable {S F producer}

variable {m : String → String → Prop} {s s' : IngressStore} {p : IngressRow → Prop}

theorem HasRow.follows (h : s.Follows m s') {id : String}
    (hp : ∀ row row', row.Evolves row' → p row → p row') (hro : HasRow s id p) : HasRow s' id p := by
  obtain ⟨row, hro, hr⟩ := hro
  obtain ⟨row', hro', hev⟩ := h.rows id row hro
  exact ⟨row', hro', hp row row' hev hr⟩

theorem keeps_hasRow (hp : ∀ row row', row.Evolves row' → p row → p row') (id : String) :
    Keeps (inboxPoller S F producer) IngressStore.Consistent (IngressStore.Follows NoneMarked) (HasRow · id p) where
  follows _ _ _ h hr := hr.follows h hp
  poll checkpoint w _ hr := hr.follows (poll_follows S F producer checkpoint w) hp
  reopen _ _ hr := hr

theorem done_of_follows (h : s.Follows m s') {id : String} (hdo : (inboxLedger F producer).done s' id) :
    (inboxLedger F producer).done s id ∨ ∃ payload, m id payload ∧ ¬ producer.Drops F payload := by
  obtain ⟨row', hr', hde, hd⟩ := hdo
  rcases h.delivered id row' hr' hde with ⟨row, hr, ho⟩ | hm
  · obtain ⟨row'', hr'', hev⟩ := h.rows id row hr
    obtain rfl : row' = row'' := Option.some.inj (hr'.symm.trans hr'')
    exact .inl ⟨row, hr, ho, hev.payloadJson ▸ hd⟩
  · exact .inr ⟨_, hm, hd⟩

theorem inbox_acknowledges : Acknowledges (inboxPoller S F producer) (inboxLedger F producer) where
  along := ⟨follows_refl, follows_trans, follows_inbox⟩
  keeps_valid := ⟨fun _ _ _ h => h.consistent,
    fun checkpoint w _ => (poll_follows S F producer checkpoint w).consistent,
    fun _ _ h => h⟩
  known_follows id s s' _ h hr := hr.follows h fun _ _ _ _ => trivial
  known_poll id checkpoint w hw := (keeps_hasRow (fun _ _ _ _ => trivial) id).poll checkpoint w hw
  keeps_closed := keeps_hasRow fun _ _ h => h.delivered
  done_follows id s s' _ h hd := by
    rcases done_of_follows h hd with ho | ⟨_, hm, -⟩
    · exact ho
    · exact hm.elim
  done_poll id checkpoint w _ hd := by
    rcases done_of_follows (poll_follows S F producer checkpoint w) hd with ho | ⟨payload, hm, hdr⟩
    · exact .inl ho
    · exact .inr (hm.resolve_right hdr)
  done_reopen _ _ h := h
  ids_none := rfl
  lists checkpoint w w' polled _ h := (poll_ok S h).1
  batch checkpoint w w' polled _ h id hba := by
    obtain ⟨⟨row', hr'⟩, hb⟩ := (poll_ok S h).2.1 id hba
    refine ⟨⟨row', hr', trivial⟩, ?_, ?_⟩
    · rintro ⟨row, hr, hde⟩
      exact (hb row hr).1 hde
    · rintro ⟨row, hr, -⟩
      exact (hb row hr).2
  settles checkpoint w w' polled _ h id hid := by
    rintro ⟨row, hr, -⟩
    exact (poll_ok S h).2.2 id hid row hr

variable (S F producer) (N : Neighbours E InboxCall)

abbrev inboxStep := runnerStep ((inboxPoller S F producer).deployment N)

def startRunner (env : E) : Runner (World IngressStore E) := .new ⟨.new, env⟩

/-- The next cycle polls a batch with the item and delivers every event of it. -/
abbrev CleanInboxCycle (r : Runner (World IngressStore E)) (id : String) : Prop :=
  (inboxPoller S F producer).CleanCycle N InBatch r id

theorem consistent_startRunner (env : E) : (storeOf (startRunner env)).Consistent :=
  ⟨fun _ _ => rfl, trivial⟩

/-- In every run: an item is delivered only after a clean cycle had it in its batch,
unless the raw datasource producer cannot read its payload, and no item is lost. When
a poll reconciles a checkpoint that lists the item, the item is delivered; neither that
poll nor a later one emits it. Enqueueing an identifier that exists changes nothing, and
between two claims of an item it was requeued. -/
theorem ingress_item_lifecycle (env : E) (ops later : List (RunnerOp (Activity E InboxCall))) (id : String) :
    let step := inboxStep S F producer N
    let r := Run.exec step (startRunner env) ops
    let r' := Run.exec step (startRunner env) (ops ++ later)
    let Polls := (inboxPoller S F producer).Polls N
    (∀ op row, (storeOf (Run.exec step (startRunner env) (ops ++ [op]))).table.row id = some row →
      row.status = .delivered → producer.Drops F row.payloadJson ∨
        Run.Occurs step (startRunner env) ops fun r op => op = .cycle ∧ CleanInboxCycle S F producer N r id) ∧
    (∀ row, (storeOf r).table.row id = some row →
      ∃ row', (storeOf r').table.row id = some row' ∧ row.Evolves row') ∧
    (∀ p turn polled w', Polls r p turn polled w' →
      id ∈ F.codec.fromCheckpoint (r.dispatcher.checkpoint producer.producerKey) →
      HasRow w'.store id (·.status = .delivered) ∧ ¬ InBatch id polled) ∧
    (HasRow (storeOf r) id (·.status = .delivered) →
      ∀ p turn polled w', Polls r' p turn polled w' → ¬ InBatch id polled) ∧
    (∀ item row, (storeOf r).table.row item.ingressId = some row →
      (storeOf r).enqueueIngressItem item = (storeOf r, .ok false)) ∧
    ∀ new mid old ids ids', (storeOf r).moves = new ++ .claimed ids' :: (mid ++ .claimed ids :: old) →
      id ∈ ids → id ∈ ids' → ∃ requeued, .requeued requeued ∈ mid ∧ id ∈ requeued := by
  intro step r r' Polls
  have ha : Acknowledges (inboxPoller S F producer) (inboxLedger F producer) := inbox_acknowledges
  have hv : (storeOf r).Consistent := ha.valid_run (consistent_startRunner env) ops
  have hr' : r' = Run.exec step r later := Run.exec_append _ _ _ _
  refine ⟨fun op row hr hd => ?_, fun row hr => ?_, fun p turn polled w' hp hid => ?_,
    fun hdo p turn polled w' hp => ?_, fun item row hr => by simp [IngressStore.enqueueIngressItem, hr],
    fun new mid old ids ids' hm => ?_⟩
  · by_cases hdr : producer.Drops F row.payloadJson
    · exact .inl hdr
    · refine .inr (ha.done_after_clean (N := N) ⟨.new, env⟩ (consistent_startRunner env) ?_ ops op
        ⟨row, hr, hd, hdr⟩)
      rintro ⟨row, hr, -⟩
      cases hr
  · rw [hr']
    exact Keeps.run (N := N) ha.along ha.keeps_valid
      (keeps_hasRow (p := row.Evolves) (fun _ _ h hr => hr.trans h) id) hv ⟨row, hr, .refl row⟩ later
  · have hk := ha.known_of_listed (N := N) (fun id => keeps_hasRow (fun _ _ _ _ => trivial) id)
      ⟨.new, env⟩ (consistent_startRunner env) ops hid
    have hs : Acknowledges.Settled (inboxPoller S F producer) (inboxLedger F producer) id r :=
      .inr ⟨hk, hid⟩
    refine ⟨?_, ha.not_polled_of_settled hv hs hp⟩
    obtain ⟨hkey, ht, hrun⟩ := hp
    have hb := ha.along.before_turn hkey ht
    exact ha.settles _ _ _ _ (ha.keeps_valid.follows _ _ trivial hb hv) hrun id hid
      (ha.known_follows _ _ _ hv hb hk)
  · rw [hr'] at hp
    exact ha.closed_not_polled hv hdo later hp
  · exact fun hid hid' => (hm ▸ hv.apart).requeue_between hid hid'

/-! ### A raw datasource with one item -/

/-- An agent is subscribed to the kind and accepts everything; the environment logs
the messages it is sent. -/
def loggingNeighbours : Neighbours (List (Option String)) InboxCall :=
  .logging [⟨"triage", "default", [⟨[], [⟨"echo"⟩], [], []⟩]⟩]

def loggingSurroundings : Surroundings (List (Option String)) where
  wait log := (log, [], .ok ())
  now _ := 100

def echoSpec : RawDatasourceSpec where
  toolName := "support/echo"
  key := "echo-webhook"
  sourceKind := ⟨"echo"⟩
  sourceKey := ⟨"echo:local"⟩
  schemaVersion := ⟨"echo.v1"⟩
  responseStatus := 202
  dedupeHeader := none
  maxBodyBytes := 1048576

def braceFormats : Formats where
  readJson text := if text.startsWith "\x7b" then .ok (.object []) else .error "expected value"
  readEnvelope text := if text.startsWith "\x7b" then .ok ⟨.object [], "ctx"⟩ else .error "expected value"
  codec := .marked

def echoItem (payloadJson : String) : IngressItem where
  ingressId := "item"
  sourceKind := ⟨"echo"⟩
  sourceKey := ⟨"echo:local"⟩
  payloadJson := payloadJson
  enqueuedAtUnixMs := 5

def echoRun (payloadJson : String) : List (RunnerOp (Activity (List (Option String)) InboxCall)) :=
  [.restart [⟨echoSpec.producerKey, [echoSpec.sourceKind]⟩], .outside (.call (.enqueue (echoItem payloadJson))),
    .cycle]

/-- An item that cannot be read is delivered by the poll that claims it, without an event. -/
theorem malformed_item_delivered_unsent :
    let r := Run.exec (inboxStep loggingSurroundings braceFormats (.raw echoSpec) loggingNeighbours)
      (startRunner []) (echoRun "not an envelope")
    ((storeOf r).table.row "item").map (·.status) = some .delivered ∧ r.dispatcher.host.env = [] := by
  decide +kernel

end AgentiumOs.Ingress
