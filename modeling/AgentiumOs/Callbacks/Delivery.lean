import AgentiumOs.Events.StorePoller
import AgentiumOs.Callbacks.Producer

/-! Callbacks over whole runs of the runner: dispatcher cycles with the callback
producer, tool calls between and during them, and restarts that keep the database
and the saved checkpoint. Delivery is at least once: a batch is acknowledged as a
whole, so a callback comes again with the rest of its batch until a cycle delivers
the whole batch. -/

namespace AgentiumOs.Callbacks

open Lib Lib.Fallible Lib.Cooperative Events
open Events.StorePoller (storeOf Ledger Along Keeps Acknowledges)

variable {E : Type}

def callbackPoller (S : Surroundings E) (U : UuidSupply) (C : CheckpointCodec) :
    StorePoller CallbackStore E ToolCall where
  call := CallbackStore.tool U
  key := callbackSourceKind
  poll := poll S U C
  reopen store := { store with table := purgePreCutoverPendingCallbacks store.table }

/-- The row of a callback is in the table, with a property. -/
def HasRow (store : CallbackStore) (id : String) (p : CallbackRow → Prop) : Prop :=
  ∃ row, store.table.row id = some row ∧ p row

def callbackLedger (U : UuidSupply) (C : CheckpointCodec) : Ledger CallbackStore where
  valid := CallbackStore.Minted U
  follows := CallbackStore.Follows U []
  known store id := HasRow store id fun _ => True
  closed store id := HasRow store id (·.status ≠ .pending)
  done store id := HasRow store id (·.status = .delivered)
  ids := C.fromCheckpoint
  inBatch := InBatch

/-! ### The rows of a store that moves on -/

variable {S : Surroundings E} {U : UuidSupply} {C : CheckpointCodec} {p q : CallbackRow → Prop}

theorem HasRow.of_evolves {s s' : CallbackStore} (h : Evolves s.table s'.table) {id : String}
    (hpq : ∀ row row', row.Evolves row' → p row → q row') (hr : HasRow s id p) : HasRow s' id q := by
  obtain ⟨row, hr, hp⟩ := hr
  obtain ⟨row', hr', he⟩ := h id row hr
  exact ⟨row', hr', hpq row row' he hp⟩

theorem hasRow_poll (hp : ∀ row row', row.Evolves row' → p row → p row') (id : String)
    (c : ProducerCheckpoint) (w : World CallbackStore E) (hw : w.store.Minted U) (h : HasRow w.store id p) :
    HasRow (runOn (poll S U C c) w).2.store id p :=
  h.of_evolves (preserves_poll S C c w hw).2.1 hp

theorem row_purge (s : CallbackStore) (id : String) : ((callbackPoller S U C).reopen s).table.row id =
      (s.table.row id).filter fun row => !(row.isPending && lacksScope row) :=
  Table.row_delete _ _ id

theorem HasRow.reopen {s : CallbackStore} {id : String} (h : HasRow s id p)
    (hk : ∀ row, p row → row.status ≠ .pending ∨ lacksScope row = false) :
    HasRow ((callbackPoller S U C).reopen s) id p := by
  obtain ⟨row, hr, hp⟩ := h
  refine ⟨row, ?_, hp⟩
  rw [row_purge, hr]
  rcases hk row hp with hs | hsc
  · simp [CallbackRow.isPending, hs]
  · simp [hsc]

theorem keeps_hasRow (hp : ∀ row row', row.Evolves row' → p row → p row')
    (hk : ∀ row, p row → row.status ≠ .pending ∨ lacksScope row = false) (id : String) :
    Keeps (callbackPoller S U C) (CallbackStore.Minted U) (CallbackStore.Follows U []) (HasRow · id p) where
  follows _ _ hs h hr := hr.of_evolves (h hs).2.1 hp
  poll checkpoint w hw hr := hasRow_poll hp id checkpoint w hw hr
  reopen _ _ hr := hr.reopen hk

theorem along_tool : (callbackPoller S U C).Along (CallbackStore.Follows U []) where
  refl := follows_refl
  trans := follows_trans
  call := follows_tool

theorem keeps_minted :
    Keeps (callbackPoller S U C) (fun _ => True) (CallbackStore.Follows U []) (CallbackStore.Minted U) where
  follows _ _ _ h hs := (h hs).1
  poll checkpoint w _ hw := (preserves_poll S C checkpoint w hw).1
  reopen _ _ hs id row hr := by
    rw [row_purge] at hr
    exact hs id row (Option.filter_eq_some_iff.mp hr).1

theorem callback_acknowledges : Acknowledges (callbackPoller S U C) (callbackLedger U C) where
  along := along_tool
  keeps_valid := keeps_minted
  known_follows id s s' hs h hr := hr.of_evolves (h hs).2.1 fun _ _ _ _ => trivial
  known_poll id checkpoint w hw hr := hasRow_poll (fun _ _ _ _ => trivial) id checkpoint w hw hr
  keeps_closed := keeps_hasRow (fun _ _ h => h.not_pending) fun _ => .inl
  done_follows id s s' hs h := by
    rintro ⟨row', hr', hd⟩
    rcases (h hs).2.2 id row' hr' hd with ⟨row, hr, hd⟩ | hm
    · exact ⟨row, hr, hd⟩
    · cases hm
  done_poll id checkpoint w hw := by
    rintro ⟨row', hr', hd⟩
    rcases (preserves_poll S C checkpoint w hw).2.2 id row' hr' hd with ⟨row, hr, hd⟩ | hid
    · exact .inl ⟨row, hr, hd⟩
    · exact .inr hid
  done_reopen id s := by
    rintro ⟨row, hr, hd⟩
    rw [row_purge] at hr
    exact ⟨row, (Option.filter_eq_some_iff.mp hr).1, hd⟩
  ids_none := rfl
  lists checkpoint w w' polled hw h id := by
    obtain ⟨cl, hi, hc, -⟩ := poll_ok S C h hw
    simp only [callbackLedger]
    rw [inBatch_iff hi, hc, fromCheckpoint_pollCheckpoint]
  batch checkpoint w w' polled hw h id hba := by
    obtain ⟨cl, hi, -, hcl⟩ := poll_ok S C h hw
    obtain ⟨c, hme, rfl⟩ := List.mem_map.mp ((inBatch_iff hi id).mp hba)
    obtain ⟨⟨row', hr'⟩, hb⟩ := hcl c hme
    refine ⟨⟨row', hr', trivial⟩, ?_, ?_⟩
    · rintro ⟨row, hr, hst⟩
      exact hst (hb row hr).1
    · rintro ⟨row, hr, -⟩
      exact (hb row hr).2
  settles checkpoint w w' polled hw h id hid := by
    rintro ⟨row, hr, -⟩
    have hf := preserves_poll S C checkpoint w hw
    have hru : (runOn (poll S U C checkpoint) w).2 = w' := congrArg Prod.snd h
    rw [hru] at hf
    obtain ⟨row', hr', -⟩ := hf.2.1 id row hr
    exact ⟨row', hr', poll_settles S C h hw hid hr hr'⟩

variable (S U C) (N : Neighbours E ToolCall)

/-- A step of the runner with the callback producer. -/
abbrev callbackStep := runnerStep ((callbackPoller S U C).deployment N)

def startRunner (env : E) : Runner (World CallbackStore E) := .new ⟨.new, env⟩

/-- The next cycle polls a batch with the callback and delivers every event of it,
each to at least one subscriber. -/
abbrev CleanCallbackCycle (r : Runner (World CallbackStore E)) (id : String) : Prop :=
  (callbackPoller S U C).CleanCycle N InBatch r id

theorem minted_startRunner (env : E) : (storeOf (startRunner env)).Minted U := by
  intro id row hr
  cases hr

/-- A callback whose whole batch was delivered in a cycle is in no batch of a later
cycle, up to the next restart. -/
theorem delivered_batch_not_polled_again (env : E) (ops later : List (RunnerOp (Activity E ToolCall)))
    (id : String)
    (hclean : CleanCallbackCycle S U C N (Run.exec (callbackStep S U C N) (startRunner env) ops) id)
    (hlater : ∀ producers, .restart producers ∉ later) (p : EventProducer)
    (turn : Dispatcher (World CallbackStore E)) (polled : ProducerPoll) (w' : World CallbackStore E)
    (hpolls : (callbackPoller S U C).Polls N
      (Run.exec (callbackStep S U C N) (startRunner env) (ops ++ .cycle :: later)) p turn polled w') :
    ¬ InBatch id polled := by
  have ha : Acknowledges (callbackPoller S U C) (callbackLedger U C) := callback_acknowledges
  have hv := ha.valid_run (N := N) (minted_startRunner U env) ops
  have hc := ha.settled_of_clean hv hclean
  have hv' := ha.valid_run (N := N) (minted_startRunner U env) (ops ++ [.cycle])
  rw [Run.exec_concat] at hv'
  rw [Run.exec_append] at hpolls
  exact ha.not_polled_of_settled (ha.valid_run hv' later)
    (ha.settled_run hv' hc hlater) hpolls

/-- In every run: a callback is delivered only after a clean cycle had it in its batch.
Until then it is in the table, pending unless it was cancelled, except that a restart
deletes pending callbacks without a scheduling scope. A delivered callback is in no
later batch. -/
theorem callback_kept_until_delivered (env : E) (ops later : List (RunnerOp (Activity E ToolCall))) (id : String) :
    let step := callbackStep S U C N
    let r := Run.exec step (startRunner env) ops
    let r' := Run.exec step (startRunner env) (ops ++ later)
    let Clean := fun r op => op = RunnerOp.cycle ∧ CleanCallbackCycle S U C N r id
    (∀ op, HasRow (storeOf (Run.exec step (startRunner env) (ops ++ [op]))) id (·.status = .delivered) →
      Run.Occurs step (startRunner env) ops Clean) ∧
    (∀ row, (storeOf r).table.row id = some row → lacksScope row = false ∨ (∀ pr, .restart pr ∉ later) →
      ∃ row', (storeOf r').table.row id = some row' ∧ (row'.status = .pending ∨ row'.status = .cancelled ∨
        row'.status = .delivered ∧ Run.Occurs step (startRunner env) (ops ++ later) Clean)) ∧
    (HasRow (storeOf r) id (·.status = .delivered) → ∀ p turn polled w',
      (callbackPoller S U C).Polls N r' p turn polled w' → ¬ InBatch id polled) := by
  intro step r r' Clean
  have ha : Acknowledges (callbackPoller S U C) (callbackLedger U C) := callback_acknowledges
  have hv : (storeOf r).Minted U := ha.valid_run (minted_startRunner U env) ops
  have hr' : r' = Run.exec step r later := Run.exec_append _ _ _ _
  have he : ¬ HasRow (CallbackStore.new) id (·.status = .delivered) := by
    rintro ⟨row, hrow, -⟩
    cases hrow
  refine ⟨fun op => ha.done_after_clean (N := N) ⟨.new, env⟩ (minted_startRunner U env) he ops op,
    fun row hrow hk => ?_, fun hd p turn polled w' hp => ?_⟩
  · have hf : HasRow (storeOf r') id fun _ => True := by
      rw [hr']
      rcases hk with hsc | hr
      · obtain ⟨row', hrow', -⟩ := Keeps.run (N := N) along_tool keeps_minted
          (keeps_hasRow (p := (lacksScope · = false)) (fun _ _ h hsc => h.scope.trans hsc)
            (fun _ => .inr) id) hv ⟨row, hrow, hsc⟩ later
        exact ⟨row', hrow', trivial⟩
      · exact ha.known_run hv ⟨row, hrow, trivial⟩ hr
    obtain ⟨row', hrow', -⟩ := hf
    refine ⟨row', hrow', ?_⟩
    cases hs : row'.status with
    | pending => exact .inl rfl
    | cancelled => exact .inr (.inl rfl)
    | delivered =>
      exact .inr (.inr ⟨rfl, ha.done_run (N := N) ⟨.new, env⟩ (minted_startRunner U env) he
        (ops ++ later) ⟨row', hrow', hs⟩⟩)
  · rw [hr'] at hp
    obtain ⟨row, hrow, hs⟩ := hd
    exact ha.closed_not_polled hv ⟨row, hrow, by simp [hs]⟩ later hp

/-! ### A runner with one agent -/

/-- An agent is subscribed to one source and accepts everything; the environment
logs the messages it is sent. -/
def loggingNeighbours : Neighbours (List (Option String)) ToolCall :=
  .logging [⟨"coordinator", "default", [⟨[], [], [⟨"coordinator-agent:resume"⟩], []⟩]⟩]

def loggingSurroundings : Surroundings (List (Option String)) where
  wait log := (log, [], .ok ())
  now _ := 100
  deliveryGate := false
  requestingTaskStillInFlight log _ _ _ := (log, [], false)

def callbackProducer : EventProducer := ⟨callbackSourceKind, [⟨callbackSourceKind⟩]⟩

abbrev loggingStep := callbackStep loggingSurroundings unaryIds .marked loggingNeighbours

/-- The runner starts, and an agent schedules a callback. -/
def scheduleRun : List (RunnerOp (Activity (List (Option String)) ToolCall)) :=
  [.restart [callbackProducer], .outside (.call (.schedule resumeRequest))]

/-- Another callback is scheduled for a source that nobody is subscribed to. -/
def unheardRun : List (RunnerOp (Activity (List (Option String)) ToolCall)) :=
  scheduleRun ++ [.outside (.call (.schedule { resumeRequest with sourceKey := "retired-agent:resume" }))]

/-- The accepted callback is sent again with the rest of its batch. -/
theorem accepted_callback_sent_again :
    (Run.exec loggingStep (startRunner []) (unheardRun ++ [.cycle])).dispatcher.host.env =
        [some (callbackMessageId "")] ∧
      (Run.exec loggingStep (startRunner []) (unheardRun ++ [.cycle, .cycle])).dispatcher.host.env =
        [some (callbackMessageId ""), some (callbackMessageId "")] := by
  decide +kernel

/-- A callback without a scope is gone after a restart, neither cancelled nor delivered. -/
theorem unscoped_callback_purged :
    let ops := [RunnerOp.outside (.call (.schedule { resumeRequest with schedulingTaskId := none }))]
    ((storeOf (Run.exec loggingStep (startRunner []) ops)).table.row "").map (·.status) = some .pending ∧
      (storeOf (Run.exec loggingStep (startRunner []) (ops ++ [.restart [callbackProducer]]))).table.row "" =
        none := by
  decide +kernel

/-- A callback alone in its batch is delivered once. -/
theorem lone_callback_not_polled_again :
    ∃ p turn polled w', (callbackPoller loggingSurroundings unaryIds .marked).Polls loggingNeighbours
        (Run.exec loggingStep (startRunner []) (scheduleRun ++ [.cycle])) p turn polled w' ∧
      ¬ InBatch "" polled := by
  have hm : CycleMoves ((callbackPoller loggingSurroundings unaryIds .marked).deployment loggingNeighbours)
      (Run.exec loggingStep (startRunner []) scheduleRun) callbackSourceKind
      (CheckpointCodec.marked.encode [""]) := by
    have ha : (pollAndDeliver ((callbackPoller loggingSurroundings unaryIds .marked).deployment
        loggingNeighbours).host (Run.exec loggingStep (startRunner []) scheduleRun).dispatcher).1.checkpoint
        callbackSourceKind = some (CheckpointCodec.marked.encode [""]) := by decide +kernel
    rcases checkpoint_cycle _ ha with hold | hm
    · exact absurd hold (by decide +kernel)
    · exact hm
  have hl : "" ∈ CheckpointCodec.marked.fromCheckpoint (some (CheckpointCodec.marked.encode [""])) := by
    decide +kernel
  have hc := callback_acknowledges.cleanCycle_of_moves
    (callback_acknowledges.valid_run (minted_startRunner unaryIds []) scheduleRun) hl hm
  obtain ⟨polled, w', h, -⟩ := exists_runOn_eq_ok (p := fun _ => true)
    (m := poll loggingSurroundings unaryIds .marked (some (CheckpointCodec.marked.encode [""])))
    (s := (Run.exec loggingStep (startRunner []) (scheduleRun ++ [.cycle])).dispatcher.host) (by decide +kernel)
  have hp : (callbackPoller loggingSurroundings unaryIds .marked).Polls loggingNeighbours
      (Run.exec loggingStep (startRunner []) (scheduleRun ++ [.cycle])) callbackProducer
      (Run.exec loggingStep (startRunner []) (scheduleRun ++ [.cycle])).dispatcher polled w' := by
    refine ⟨rfl, ⟨[], [], by decide +kernel, rfl⟩, ?_⟩
    have hch : (Run.exec loggingStep (startRunner []) (scheduleRun ++ [.cycle])).dispatcher.checkpoint
        callbackSourceKind = some (CheckpointCodec.marked.encode [""]) := by decide +kernel
    exact hch ▸ h
  exact ⟨_, _, polled, w', hp, delivered_batch_not_polled_again loggingSurroundings unaryIds .marked
    loggingNeighbours [] scheduleRun [] "" hc (by simp) _ _ polled w' hp⟩

end AgentiumOs.Callbacks
