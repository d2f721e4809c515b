import AgentiumOs.Callbacks.Producer

/-! Which of the due callbacks one poll emits when nothing else touches the store
meanwhile. The limit of the query counts every due row, and the scope and the gate
are looked at only afterwards, so rows that cannot be delivered use up the limit. -/

namespace AgentiumOs.Callbacks

open List Lib Lib.Fallible Lib.Cooperative
open Events (CheckpointCodec ProducedEvent ProducerCheckpoint ProducerPoll)

variable {E : Type}

/-- No other task calls the store during the poll, and the tasks in flight stay
the same. The clock may go on, and the store may fail. -/
structure Undisturbed (S : Surroundings E) (inFlight : String → String → String → Bool) : Prop where
  wait : ∀ env, (S.wait env).2.1 = []
  gate : ∀ env agentId contextId taskId,
    (S.requestingTaskStillInFlight env agentId contextId taskId).2 = ([], inFlight agentId contextId taskId)

variable (S : Surroundings E) (inFlight : String → String → String → Bool) (U : UuidSupply)
  (C : CheckpointCodec)

def gateAllows (callback : StoredCallback) : Bool :=
  match callback.requestingAgentId with
  | none => true
  | some agentId =>
      match callback.schedulingContextId, callback.schedulingTaskId with
      | some contextId, some taskId => !inFlight agentId contextId taskId
      | _, _ => false

/-- The callback has a scheduling scope, and the gate, if there is one, lets it pass. -/
def isDeliverable (callback : StoredCallback) : Bool :=
  hasSchedulingScope callback && (!S.deliveryGate || gateAllows inFlight callback)

def dueRows (table : CallbackTable) (now : ℕ) : List CallbackRow := table.rows.filter (·.isDue now)

def deliverableRows (table : CallbackTable) (now : ℕ) : List CallbackRow :=
  (dueRows table now).filter fun row => isDeliverable S inFlight (parseCallbackRow row)

/-- The world in which the due callbacks are listed. -/
def listingWorld (checkpoint : ProducerCheckpoint) (w : World CallbackStore E) : World CallbackStore E :=
  let reconciled := (runOn (reconcile S U (C.fromCheckpoint checkpoint)) w).2
  ⟨reconciled.store, (S.wait reconciled.env).1⟩

variable {S inFlight U C}

variable {w w' : World CallbackStore E}

theorem interrupted_undisturbed (h : m.2.1 = []) : interrupted (CallbackStore.tool U) w m = ⟨w.store, m.1⟩ := by
  unfold interrupted
  rw [h]
  rfl

theorem statement_undisturbed (hS : Undisturbed S inFlight)
    (h : runOn (statement (CallbackStore.tool U) S.wait f) w = (.ok a, w')) :
    a = (f ⟨w.store, (S.wait w.env).1⟩).2 ∧ w'.store = (f ⟨w.store, (S.wait w.env).1⟩).1.store := by
  rw [runOn_statement, interrupted_undisturbed (hS.wait _), interrupted_undisturbed (hS.wait _)] at h
  cases hb : (S.wait w.env).2.2 with
  | error e => simp [hb] at h
  | ok u =>
    simp only [hb, Prod.mk.injEq] at h
    obtain ⟨hr, rfl⟩ := h
    cases ha : (S.wait (f ⟨w.store, (S.wait w.env).1⟩).1.env).2.2 with
    | error e => simp [ha, Except.map] at hr
    | ok v => simpa [ha, Except.map] using hr.symm

theorem canEmitCallback_undisturbed (hS : Undisturbed S inFlight) (c : StoredCallback)
    (w : World CallbackStore E) :
    ∃ env, runOn (canEmitCallback S U c) w = (.ok (gateAllows inFlight c), ⟨w.store, env⟩) := by
  unfold canEmitCallback gateAllows
  cases c.requestingAgentId with
  | none => exact ⟨w.env, rfl⟩
  | some agentId =>
    cases c.schedulingContextId with
    | none => exact ⟨w.env, rfl⟩
    | some contextId =>
      cases c.schedulingTaskId with
      | none => exact ⟨w.env, rfl⟩
      | some taskId =>
        have ha := hS.gate w.env agentId contextId taskId
        simp [runOn_ask, interrupted, ha]

theorem askGate_undisturbed (hS : Undisturbed S inFlight) (due : List StoredCallback) (w : World CallbackStore E) :
    ∃ env, runOn (askGate S U due) w = (.ok (due.filter (gateAllows inFlight)), ⟨w.store, env⟩) := by
  induction due generalizing w with
  | nil => exact ⟨w.env, rfl⟩
  | cons c r ih =>
    obtain ⟨env, hf⟩ := canEmitCallback_undisturbed (U := U) hS c w
    obtain ⟨env', hr⟩ := ih ⟨w.store, env⟩
    refine ⟨env', ?_⟩
    rw [askGate, runOn_bind, hf]
    show runOn (askGate S U r >>= _) _ = _
    rw [runOn_bind, hr, filter_cons]
    rfl

theorem deliverableCallbacks_undisturbed (hS : Undisturbed S inFlight) {l due : List StoredCallback}
    (h : runOn (deliverableCallbacks S U (l.filter hasSchedulingScope)) w = (.ok due, w')) :
    due = l.filter (isDeliverable S inFlight) ∧ w'.store = w.store := by
  unfold deliverableCallbacks at h
  split at h
  case isTrue hgate =>
    obtain ⟨env, hrun⟩ := askGate_undisturbed (U := U) hS (l.filter hasSchedulingScope) w
    rw [hrun] at h
    cases h
    refine ⟨?_, rfl⟩
    rw [filter_filter]
    refine filter_congr fun c _ => ?_
    simp [isDeliverable, hgate, Bool.and_comm]
  case isFalse hgate =>
    cases h
    refine ⟨filter_congr fun c _ => ?_, rfl⟩
    simp [isDeliverable, hgate]

theorem mem_markCallbacksEmitted {s : CallbackStore} {c : List String} {now : ℕ} {id : String} :
    id ∈ (s.markCallbacksEmitted c now).2 ↔
      id ∈ c ∧ ∃ row, s.table.row id = some row ∧ row.status = .pending := by
  unfold CallbackStore.markCallbacksEmitted
  split
  case isTrue he =>
    obtain rfl : c = [] := by simpa using he
    simp
  case isFalse =>
    rw [← mem_eligibleIds]
    dsimp only
    split <;> rfl

theorem nodup_dueKeys (t : CallbackTable) (now : ℕ) : ((dueRows t now).map (·.dueKey)).Nodup := by
  have hi : ((dueRows t now).map (·.callbackId)).Nodup :=
    (filter_sublist.map _).nodup t.keys_nodup
  refine List.Nodup.of_map (fun key : ℤ ×ₗ String => (ofLex key).2) ?_
  rwa [map_map]

theorem exists_listed_iff (hr : row ∈ dueRows t now) (p : StoredCallback → Prop) :
    (∃ c ∈ listDueCallbacks t now limit, p c ∧ c.callbackId = row.callbackId) ↔
      p (parseCallbackRow row) ∧ (dueRows t now).countP (fun o => o.dueKey < row.dueKey) < limit := by
  rw [← StableSort.mem_take_insertionSort_iff (nodup_dueKeys t now) hr]
  constructor
  · rintro ⟨c, hm, hp, hid⟩
    obtain ⟨o, ho, rfl⟩ := mem_map.mp hm
    have hot : o ∈ t.rows := (mem_filter.mp ((perm_insertionSort _ _).mem_iff.mp (mem_of_mem_take ho))).1
    obtain rfl : o = row := t.eq_of_key_eq hot (mem_filter.mp hr).1 hid
    exact ⟨hp, ho⟩
  · rintro ⟨hp, hm⟩
    exact ⟨_, mem_map_of_mem hm, hp, rfl⟩

theorem inBatch_undisturbed (hS : Undisturbed S inFlight) (h : runOn (poll S U C ch) w = (.ok p, w'))
    (id : String) :
    InBatch id p ↔ ∃ c ∈ listDueCallbacks (listingWorld S U C ch w).store.table
        (S.now (listingWorld S U C ch w).env) maxCallbacksPerPoll,
      isDeliverable S inFlight c ∧ c.callbackId = id := by
  obtain ⟨_, w₁, hr, h⟩ := runOn_bind_eq_ok.mp h
  have hw : listingWorld S U C ch w = ⟨w₁.store, (S.wait w₁.env).1⟩ := by
    simp [listingWorld, hr]
  rw [hw]
  obtain ⟨listed, w₂, hli, h⟩ := runOn_bind_eq_ok.mp h
  obtain ⟨due, w₃, hg, h⟩ := runOn_bind_eq_ok.mp h
  obtain ⟨emitted, w₄, hc, h⟩ := runOn_bind_eq_ok.mp h
  obtain ⟨w₅, w₆, -, h⟩ := runOn_bind_eq_ok.mp h
  obtain ⟨events, w₇, he, h⟩ := runOn_bind_eq_ok.mp h
  cases h
  have hi := messageIds_mapM (congrArg Prod.fst he)
  obtain ⟨hl, hs₂⟩ := statement_undisturbed hS hli
  dsimp only at hl
  obtain ⟨hdu, hs₃⟩ := deliverableCallbacks_undisturbed hS hg
  obtain ⟨hem, -⟩ := statement_undisturbed hS hc
  rw [inBatch_iff hi, hdu]
  simp only [mem_map, mem_filter, decide_eq_true_eq]
  constructor
  · rintro ⟨c, ⟨⟨hm, hd⟩, -⟩, hid⟩
    exact ⟨c, hl ▸ hm, hd, hid⟩
  · rintro ⟨c, hm, hd, hid⟩
    -- what was listed is still pending when it is claimed
    have hcl : c.callbackId ∈ emitted := by
      rw [hem, mem_markCallbacksEmitted, hdu]
      obtain ⟨row, hro, hp⟩ := pending_of_mem_listDueCallbacks hm
      refine ⟨mem_map_of_mem (mem_filter.mpr ⟨hl ▸ hm, hd⟩), row, ?_, hp⟩
      rwa [hs₃, hs₂]
    exact ⟨c, ⟨⟨hl ▸ hm, hd⟩, hcl⟩, hid⟩

/-- Of at most as many deliverable callbacks as a poll may list, one poll emits all
exactly when no deliverable one has that many due rows before it, deliverable or not. -/
theorem poll_emits_deliverable_iff (hS : Undisturbed S inFlight) {checkpoint : ProducerCheckpoint}
    {w w' : World CallbackStore E} {polled : ProducerPoll}
    (h : runOn (poll S U C checkpoint) w = (.ok polled, w')) :
    let table := (listingWorld S U C checkpoint w).store.table
    let now := S.now (listingWorld S U C checkpoint w).env
    ((deliverableRows S inFlight table now).length ≤ maxCallbacksPerPoll →
        ∀ row ∈ deliverableRows S inFlight table now, InBatch row.callbackId polled) ↔
      ((deliverableRows S inFlight table now).length ≤ maxCallbacksPerPoll →
        ∀ row ∈ deliverableRows S inFlight table now,
          (dueRows table now).countP (fun o => o.dueKey < row.dueKey) < maxCallbacksPerPoll) := by
  refine imp_congr_right fun _ => forall₂_congr fun row hrow => ?_
  obtain ⟨hdue, hd⟩ := mem_filter.mp hrow
  rw [inBatch_undisturbed hS h, exists_listed_iff hdue]
  exact and_iff_right hd

theorem undisturbed_quiet (d : Bool) (now : ℕ) : Undisturbed (quiet d now inFlight) inFlight where
  wait _ := rfl
  gate _ _ _ _ := rfl

def inFlightTask (_agentId _contextId taskId : String) : Bool := taskId == "task-running"

/-- A due row of an agent; the tasks of the first hundred are still in flight. -/
def crowdedRow (n : ℕ) : CallbackRow :=
  callbackRow (newCallback (unaryIds.mint n) { resumeRequest with
    dedupeKey := none
    scheduledForUnixMs := n
    schedulingTaskId := some (if n < 100 then "task-running" else "task-done")
    requestingAgentId := some "coordinator-agent" }) .pending none none none

def crowdedStore (count : ℕ) : CallbackStore where
  table :=
    { rows := (List.range count).map crowdedRow
      keys_nodup := by
        rw [List.map_map]
        exact List.nodup_range.map unaryIds.mint_injective }
  minted := count

/-- A hundred callbacks that have to wait keep the one that need not from being emitted. -/
theorem waiting_callbacks_starve_ready :
    ∃ polled w', runOn (poll (quiet true 1000 inFlightTask) unaryIds .marked none) ⟨crowdedStore 101, ()⟩ =
        (.ok polled, w') ∧
      deliverableRows (quiet true 1000 inFlightTask) inFlightTask (crowdedStore 101).table 1000 =
        [crowdedRow 100] ∧
      polled.events = [] := by
  obtain ⟨polled, w', h, he⟩ := exists_runOn_eq_ok
    (m := poll (quiet true 1000 inFlightTask) unaryIds .marked none) (s := ⟨crowdedStore 101, ()⟩)
    (p := (·.events.isEmpty)) (by decide +kernel)
  exact ⟨polled, w', h, by decide +kernel, isEmpty_iff.mp he⟩

/-- With fewer rows the ready callback is emitted. -/
theorem ready_callback_emitted :
    ∃ polled w', runOn (poll (quiet true 1000 fun _ _ _ => false) unaryIds .marked none) ⟨crowdedStore 2, ()⟩ =
        (.ok polled, w') ∧
      ∀ row ∈ deliverableRows (quiet true 1000 fun _ _ _ => false) (fun _ _ _ => false) (crowdedStore 2).table 1000,
        InBatch row.callbackId polled := by
  obtain ⟨polled, w', h, -⟩ := exists_runOn_eq_ok
    (m := poll (quiet true 1000 fun _ _ _ => false) unaryIds .marked none) (s := ⟨crowdedStore 2, ()⟩)
    (p := fun _ => true) (by decide +kernel)
  refine ⟨polled, w', h, ?_⟩
  have hiff := poll_emits_deliverable_iff (undisturbed_quiet true 1000) h
  exact hiff.mpr (fun _ => by decide +kernel) (by decide +kernel)

end AgentiumOs.Callbacks
