import AgentiumOs.Tasks.Recorder
import AgentiumOs.Lib.Run

/-! The states recorded for a task, over runs of calls that do not overlap. The
invariant is that the head pointer names the last recorded state and that the
recorded states follow the transition table and stop at a terminal state. The
gate of `record_status_update` keeps it whenever it looks at the task's real
head; `cancel` does not look at all, and a call that names a context the task is
not scoped to sees no state. `SafeCall` rules out exactly these two. -/

namespace AgentiumOs.Tasks

open Lib Lib.Fallible TaskGraph

/-- A state may follow another: the other is not terminal and the table allows it. -/
def Follows (old new : TaskStateTag) : Prop :=
  isTerminalState old = false ∧ isAllowedTransition old new = true

/-- The recorded states are a path of the table and nothing follows a terminal one. -/
def RecordedPath (tags : List TaskStateTag) : Prop := tags.IsChain Follows

/-- Head and recorded states of a task agree, and the states are a path. -/
structure NodeOk (node : TaskNode) : Prop where
  head_eq : node.head = node.states.getLast?
  path : RecordedPath (node.states.map (·.newStatus.tag))

def GraphOk (g : TaskGraph) : Prop := ∀ taskId, NodeOk (g.nodeOf taskId)

theorem graphOk_empty : GraphOk ∅ := fun _ => ⟨rfl, List.isChain_nil⟩

variable {node : TaskNode} {g g' : TaskGraph} {contextId taskId o : String} {status : TaskStatus}

theorem NodeOk.scopeTo (h : NodeOk node) (contextId : String) : NodeOk (TaskGraph.scopeTo node contextId) := by
  refine ⟨?_, ?_⟩
  · rw [scopeTo_head, scopeTo_states, h.head_eq]
  · rw [scopeTo_states]
    exact h.path

theorem NodeOk.addState (h : NodeOk node) (state : TaskStateNode)
    (hf : ∀ current, node.head = some current → Follows current.newStatus.tag state.newStatus.tag) :
    NodeOk { node with states := node.states ++ [state], head := some state } := by
  refine ⟨by simp, ?_⟩
  simp only [List.map_append]
  refine List.isChain_append.mpr ⟨h.path, List.isChain_singleton _, ?_⟩
  intro last hl new hn
  simp only [List.getLast?_map, Option.mem_def, Option.map_eq_some_iff] at hl
  obtain ⟨current, hc, rfl⟩ := hl
  cases hn
  exact hf current (h.head_eq.trans hc)

theorem GraphOk.insert (h : GraphOk g) (taskId : String) (hn : NodeOk node) : GraphOk (g.insert taskId node) := by
  intro o
  by_cases ho : o = taskId
  · subst ho
    rw [nodeOf_insert_self]
    exact hn
  · rw [nodeOf_insert_of_ne _ _ _ ho]
    exact h o

theorem GraphOk.addStatusChanged (h : GraphOk g) (contextId taskId : String) (s : TaskStateNode)
    (hf : ∀ current, g.head taskId = some current → Follows current.newStatus.tag s.newStatus.tag) :
    GraphOk (g.addStatusChanged contextId taskId s) := by
  refine h.insert taskId (((h taskId).scopeTo contextId).addState s fun current hc => ?_)
  rw [scopeTo_head] at hc
  exact hf current hc

theorem GraphOk.addArtifactGenerated (h : GraphOk g) (contextId taskId : String) (ar : ArtifactNode) :
    GraphOk (g.addArtifactGenerated contextId taskId ar) :=
  h.insert taskId ⟨((h taskId).scopeTo contextId).head_eq, ((h taskId).scopeTo contextId).path⟩

/-! ### What a recorder call does to the graph -/

theorem runOn_readStore (f : Option String) (re : TaskGraph → α) (g : TaskGraph) :
    runOn (readStore f re) g = match f with
      | none => (.ok (re g), g)
      | some r => (.error (.store r), g) := by
  cases f <;> rfl

theorem writeStore_graph (f : WriteFault) (w : TaskGraph → TaskGraph) (g : TaskGraph) :
    (runOn (writeStore f w) g).2 = g ∨ (runOn (writeStore f w) g).2 = w g := by
  cases f with
  | none | afterCommit r => exact .inr rfl
  | beforeCommit r => exact .inl rfl

/-- The state a call reads as current when no read fails. -/
def seenState (g : TaskGraph) (taskId contextId : String) : Option TaskStateNode :=
  if g.resolveScoped contextId taskId then g.head taskId else none

def readFails (faults : StoreFaults) (g : TaskGraph) (taskId contextId : String) : Bool :=
  faults.scopeRead.isSome || (g.resolveScoped contextId taskId && faults.stateRead.isSome)

variable (faults : StoreFaults)

theorem runOn_readCurrent (taskId contextId : String) (g : TaskGraph) : if readFails faults g taskId contextId then
      ∃ e, runOn (readCurrent faults taskId contextId) g = (.error e, g)
    else runOn (readCurrent faults taskId contextId) g = (.ok (seenState g taskId contextId), g) := by
  simp only [readCurrent, runOn_bind, runOn_readStore, readFails, seenState]
  cases faults.scopeRead with
  | some r => exact ⟨_, rfl⟩
  | none =>
    by_cases hs : g.resolveScoped contextId taskId = true
    · simp only [hs]
      cases faults.stateRead with
      | some r => exact ⟨_, rfl⟩
      | none => rfl
    · simp only [hs]
      rfl

/-- Recording a status leaves the graph alone, or adds a state that the gate
allowed from the state the call saw. -/
theorem recordStatusUpdate_graph (taskId contextId : String) (status : TaskStatus) (g : TaskGraph) :
    (runOn (recordStatusUpdate faults taskId contextId status) g).2 = g ∨
      ∃ kind, wireStatusToKind status = .ok kind ∧
        isAllowedFrom (seenState g taskId contextId) kind.tag = true ∧
        (runOn (recordStatusUpdate faults taskId contextId status) g).2 =
          g.addStatusChanged contextId taskId ⟨kind, (seenState g taskId contextId).map (·.newStatus)⟩ := by
  cases hk : wireStatusToKind status with
  | error e =>
    simp only [recordStatusUpdate, runOn_bind, runOn_lift, hk]
    exact .inl trivial
  | ok kind =>
    have hr := runOn_readCurrent faults taskId contextId g
    split_ifs at hr with hf
    · obtain ⟨e, hr⟩ := hr
      simp only [recordStatusUpdate, runOn_bind, runOn_lift, hk, hr]
      exact .inl trivial
    · simp only [recordStatusUpdate, runOn_bind, runOn_lift, hk, hr]
      split_ifs with ha
      · cases hfa : faults.write with
        | none | afterCommit r => exact .inr ⟨kind, rfl, ha, rfl⟩
        | beforeCommit r => exact .inl rfl
      · exact .inl rfl

theorem recordArtifactUpdate_graph (taskId contextId : String) (ar : Artifact) (append l : Option Bool)
    (g : TaskGraph) :
    (runOn (recordArtifactUpdate faults taskId contextId ar append l) g).2 = g ∨
      (runOn (recordArtifactUpdate faults taskId contextId ar append l) g).2 =
        g.addArtifactGenerated contextId taskId ⟨ar.artifactId, ar.artifactType⟩ := by
  simp only [recordArtifactUpdate]
  cases faults.write with
  | none | afterCommit r => exact .inr rfl
  | beforeCommit r => exact .inl rfl

/-! ### Calls that keep the invariant -/

theorem follows_of_isAllowedFrom (h : isAllowedFrom (some c) new = true) : Follows c.newStatus.tag new := by
  simp only [isAllowedFrom, Option.map_some] at h
  split_ifs at h with ht
  exact ⟨by simpa using ht, h⟩

/-- A status for a context the task is not scoped to is recorded as if the task
had no state: harmless if it has none or is just submitted, or if the status is
not `SUBMITTED`. -/
def Recordable (g : TaskGraph) (taskId contextId : String) (status : TaskStatus) : Prop :=
  g.resolveScoped contextId taskId = true ∨
    (∀ current, g.head taskId = some current → current.newStatus.tag = .submitted) ∨
    ∀ kind, wireStatusToKind status = .ok kind → kind.tag ≠ .submitted

theorem recordStatusUpdate_graphOk (h : GraphOk g) (hsa : Recordable g taskId contextId status) :
    GraphOk (runOn (recordStatusUpdate faults taskId contextId status) g).2 := by
  obtain hsm | ⟨kind, hk, ha, hg⟩ :=
    recordStatusUpdate_graph faults taskId contextId status g
  · rw [hsm]
    exact h
  · rw [hg]
    refine h.addStatusChanged contextId taskId _ fun current hc => ?_
    by_cases hs : g.resolveScoped contextId taskId = true
    · simp only [seenState, hs, hc] at ha
      exact follows_of_isAllowedFrom ha
    · simp only [seenState, hs] at ha
      have hsu : kind.tag = .submitted := by simpa [isAllowedFrom] using ha
      rcases hsa with hs' | hh | ho
      · exact absurd hs' hs
      · rw [hh current hc, hsu]
        exact ⟨rfl, rfl⟩
      · exact absurd hsu (ho kind hk)

/-- Only artifacts were added: the heads stay and scopes are only gained. -/
structure SameStates (g g' : TaskGraph) : Prop where
  ok : GraphOk g → GraphOk g'
  head_eq : ∀ taskId, g'.head taskId = g.head taskId
  scoped_of : ∀ taskId contextId, g.resolveScoped contextId taskId = true →
    g'.resolveScoped contextId taskId = true

theorem SameStates.refl (g : TaskGraph) : SameStates g g := ⟨id, fun _ => rfl, fun _ _ => id⟩

theorem SameStates.trans (g g' g'' : TaskGraph) (h : SameStates g g') (h' : SameStates g' g'') :
    SameStates g g'' where
  ok := h'.ok ∘ h.ok
  head_eq taskId := (h'.head_eq taskId).trans (h.head_eq taskId)
  scoped_of taskId contextId := h'.scoped_of taskId contextId ∘ h.scoped_of taskId contextId

theorem mem_contexts_scopeTo (h : o ∈ node.contexts) : o ∈ (TaskGraph.scopeTo node contextId).contexts := by
  unfold scopeTo
  split_ifs
  · exact h
  · exact List.mem_append_left _ h

/-- A scope is never lost by a write whose node keeps its contexts. -/
theorem resolveScoped_insert (hn : ∀ c ∈ (g.nodeOf taskId).contexts, c ∈ node.contexts)
    (h : g.resolveScoped contextId o = true) :
    TaskGraph.resolveScoped (g.insert taskId node) contextId o = true := by
  simp only [resolveScoped, decide_eq_true_eq] at h ⊢
  by_cases ho : o = taskId
  · subst ho
    rw [nodeOf_insert_self]
    exact hn contextId h
  · rw [nodeOf_insert_of_ne _ _ _ ho]
    exact h

theorem sameStates_addArtifactGenerated (g : TaskGraph) (contextId taskId : String)
    (ar : ArtifactNode) : SameStates g (g.addArtifactGenerated contextId taskId ar) := by
  refine ⟨fun h => h.addArtifactGenerated contextId taskId ar, fun o => ?_,
    fun o c => resolveScoped_insert fun c' => mem_contexts_scopeTo⟩
  by_cases ho : o = taskId
  · subst ho
    simp [TaskGraph.head, addArtifactGenerated]
  · simp [TaskGraph.head, addArtifactGenerated, nodeOf_insert_of_ne _ _ _ ho]

theorem recordArtifactUpdate_sameStates (taskId contextId : String) (ar : Artifact) (append l : Option Bool) :
    Preserves SameStates (recordArtifactUpdate faults taskId contextId ar append l) := by
  intro g
  obtain h | h := recordArtifactUpdate_graph faults taskId contextId ar append l g
  · rw [h]
    exact .refl g
  · rw [h]
    exact sameStates_addArtifactGenerated g contextId taskId _

theorem applyArtifacts_sameStates (faults : ℕ → StoreFaults) (taskId contextId : String) (n : ℕ)
    (ar : List Artifact) :
    Preserves SameStates (applyArtifacts faults taskId contextId n ar) := by
  induction ar generalizing n with
  | nil => exact preserves_pure SameStates.refl _
  | cons artifact rest ih =>
    refine preserves_bind SameStates.trans (recordArtifactUpdate_sameStates _ _ _ _ _ _) fun event => ?_
    exact preserves_bind SameStates.trans (ih (n + 1)) fun events =>
      preserves_pure SameStates.refl _

theorem applyTaskArtifacts_sameStates (faults : ChunkFaults) (t : Task) :
    Preserves SameStates (applyTaskArtifacts faults t) := by
  unfold applyTaskArtifacts
  split
  · exact applyArtifacts_sameStates _ _ _ _ _
  · exact preserves_pure SameStates.refl _

theorem applyArtifactUpdate_sameStates (up : Option TaskArtifactUpdateEvent) :
    Preserves SameStates (applyArtifactUpdate faults up) := by
  unfold applyArtifactUpdate
  split
  · exact preserves_bind SameStates.trans (recordArtifactUpdate_sameStates _ _ _ _ _ _)
      fun event => preserves_pure SameStates.refl _
  · exact preserves_pure SameStates.refl _

inductive TaskCall where
  | ensureTaskExists (faults : StoreFaults) (taskId : String) (contextId : Option String)
  | recordStatusUpdate (faults : StoreFaults) (taskId contextId : String) (status : TaskStatus)
  | applyTaskChunk (faults : ChunkFaults) (chunk : ValidatedTaskChunk)
  | cancel (faults : StoreFaults) (hydrateFault : Option String) (taskId : String)

/-- One call, run to its end; what it answers does not matter here. -/
def taskStep (g : TaskGraph) : TaskCall → TaskGraph × Unit
  | .ensureTaskExists faults taskId contextId =>
      ((runOn (ensureTaskExists faults taskId contextId) g).2, ())
  | .recordStatusUpdate faults taskId contextId status =>
      ((runOn (recordStatusUpdate faults taskId contextId status) g).2, ())
  | .applyTaskChunk faults chunk => ((runOn (applyTaskChunk faults chunk) g).2, ())
  | .cancel faults hydrateFault taskId => ((runOn (cancel faults hydrateFault taskId) g).2, ())

/-- A status that does not submit a task again from a context it is not scoped to. -/
def SafeStatus (g : TaskGraph) (taskId contextId : String) (status : TaskStatus) : Prop :=
  g.resolveScoped contextId taskId = true ∨ g.head taskId = none ∨
    ∀ kind, wireStatusToKind status = .ok kind → kind.tag ≠ .submitted

/-- Statuses are safe, and only a task that is not in a terminal state is canceled. -/
def SafeCall (g : TaskGraph) : TaskCall → Prop
  | .ensureTaskExists _ _ _ => True
  | .recordStatusUpdate _ taskId contextId status => SafeStatus g taskId contextId status
  | .applyTaskChunk _ chunk =>
      (∀ task taskId contextId status, chunk.task = some task → task.id = some taskId →
        task.contextId = some contextId → task.status = some status → SafeStatus g taskId contextId status) ∧
      ∀ taskId contextId status, chunk.statusUpdate = some ⟨some contextId, some taskId, some status⟩ →
        SafeStatus g taskId contextId status
  | .cancel _ _ taskId =>
      ∀ current, g.head taskId = some current → isTerminalState current.newStatus.tag = false

theorem SafeStatus.recordable (h : SafeStatus g taskId contextId status) : Recordable g taskId contextId status := by
  refine h.imp_right (Or.imp_left fun hn current hc => ?_)
  rw [hn] at hc
  cases hc

theorem Recordable.sameStates (h : Recordable g taskId contextId status) (hs : SameStates g g') :
    Recordable g' taskId contextId status := by
  refine h.imp (hs.scoped_of taskId contextId) (Or.imp_left fun hh current hc => ?_)
  exact hh current ((hs.head_eq taskId).symm.trans hc)

/-- A task without a state can only become submitted, so a safe status stays
recordable behind another status. -/
theorem SafeStatus.recordable_after (h : SafeStatus g taskId contextId status) (faults : StoreFaults)
    (taskId' contextId' : String) (status' : TaskStatus) :
    Recordable (runOn (recordStatusUpdate faults taskId' contextId' status') g).2 taskId contextId status := by
  obtain hs | ⟨kind, -, ha, hg⟩ :=
    recordStatusUpdate_graph faults taskId' contextId' status' g
  · rw [hs]
    exact h.recordable
  · rw [hg]
    rcases h with hsc | hn | ho
    · exact .inl (resolveScoped_insert (fun c => mem_contexts_scopeTo) hsc)
    · refine .inr (.inl fun current hc => ?_)
      by_cases ht : taskId = taskId'
      · subst ht
        have hse : seenState g taskId contextId' = none := by
          unfold seenState
          split_ifs
          · exact hn
          · rfl
        rw [hse] at ha
        simp only [TaskGraph.head, addStatusChanged, nodeOf_insert_self, Option.some.injEq] at hc
        subst hc
        simpa [isAllowedFrom] using ha
      · simp only [TaskGraph.head, addStatusChanged, nodeOf_insert_of_ne _ _ _ ht] at hc
        rw [TaskGraph.head] at hn
        rw [hn] at hc
        cases hc
    · exact .inr (.inr ho)

theorem applyTaskStatus_graph (t : Task) (g : TaskGraph) : (runOn (applyTaskStatus faults t) g).2 = g ∨
      ∃ taskId contextId status, t.id = some taskId ∧ t.contextId = some contextId ∧ t.status = some status ∧
        (runOn (applyTaskStatus faults t) g).2 =
          (runOn (recordStatusUpdate faults taskId contextId status) g).2 := by
  unfold applyTaskStatus
  split
  · next status taskId contextId hs hid hc =>
    refine .inr ⟨taskId, contextId, status, hid, hc, hs, ?_⟩
    rw [runOn_bind]
    rcases runOn (recordStatusUpdate faults taskId contextId status) g with ⟨_ | _ | event, g'⟩
    · rfl
    · rfl
    · cases wireStatusToKind status <;> rfl
  · exact .inl rfl

theorem applyTask_ok (faults : ChunkFaults) (h : GraphOk g)
    (hsf : ∀ t taskId contextId status, ta = some t → t.id = some taskId → t.contextId = some contextId →
      t.status = some status → SafeStatus g taskId contextId status) :
    GraphOk (runOn (applyTask faults ta) g).2 ∧
      ∀ taskId contextId status, SafeStatus g taskId contextId status →
        Recordable (runOn (applyTask faults ta) g).2 taskId contextId status := by
  cases ta with
  | none => exact ⟨h, fun _ _ _ hs => hs.recordable⟩
  | some t =>
    have hf : GraphOk (runOn (applyTaskStatus faults.taskStatus t) g).2 ∧
        ∀ taskId contextId status, SafeStatus g taskId contextId status →
          Recordable (runOn (applyTaskStatus faults.taskStatus t) g).2 taskId contextId status := by
      obtain hsa | ⟨taskId, contextId, status, hid, hc, hs, hg⟩ :=
        applyTaskStatus_graph faults.taskStatus t g
      · rw [hsa]
        exact ⟨h, fun _ _ _ hs => hs.recordable⟩
      · rw [hg]
        have ht := hsf t taskId contextId status rfl hid hc hs
        exact ⟨recordStatusUpdate_graphOk _ h ht.recordable, fun _ _ _ ho => ho.recordable_after _ _ _ _⟩
    have hr : ∀ events : List TaskUpdateEvent × RecordedFromTask, Preserves SameStates (do
        let artifactEvents ← applyTaskArtifacts faults t
        pure (events.1 ++ artifactEvents, events.2) : TaskM (List TaskUpdateEvent × RecordedFromTask)) :=
      fun _ => preserves_bind SameStates.trans (applyTaskArtifacts_sameStates faults t) fun _ =>
        preserves_pure SameStates.refl _
    refine runOn_bind_state
      (fun g' => GraphOk g' ∧ ∀ taskId contextId status, SafeStatus g taskId contextId status →
        Recordable g' taskId contextId status) hf fun events => ?_
    have hsa := hr events (runOn (applyTaskStatus faults.taskStatus t) g).2
    exact ⟨hsa.ok hf.1, fun _ _ _ ho => (hf.2 _ _ _ ho).sameStates hsa⟩

theorem applyStatusUpdate_ok (r : RecordedFromTask) (h : GraphOk g)
    (hs : ∀ taskId contextId status, up = some ⟨some contextId, some taskId, some status⟩ →
      Recordable g taskId contextId status) :
    GraphOk (runOn (applyStatusUpdate faults r up) g).2 := by
  match up, hs with
  | none, _ | some ⟨_, _, none⟩, _ => exact h
  | some ⟨contextId, taskId, some status⟩, hs =>
    simp only [applyStatusUpdate, runOn_bind, runOn_lift]
    cases wireStatusToKind status with
    | error e => exact h
    | ok kind =>
      simp only
      split_ifs with hd
      · exact h
      · match taskId, contextId, hs with
        | none, _, _ | some _, none, _ => exact h
        | some taskId, some contextId, hs =>
          have hg := recordStatusUpdate_graphOk faults h (hs taskId contextId status rfl)
          exact runOn_bind_state GraphOk hg fun _ => hg

theorem applyTaskChunk_ok (faults : ChunkFaults) (h : GraphOk g) (hsa : SafeCall g (.applyTaskChunk faults c)) :
    GraphOk (runOn (applyTaskChunk faults c) g).2 := by
  obtain ⟨hta, hu⟩ := hsa
  obtain ⟨hok, hl⟩ := applyTask_ok faults h hta
  refine runOn_bind_state GraphOk hok fun f => ?_
  have hs := applyStatusUpdate_ok faults.statusUpdate f.2 hok
    (fun taskId contextId status hup => hl _ _ _ (hu taskId contextId status hup))
  refine runOn_bind_state GraphOk hs fun second => ?_
  have ht := (applyArtifactUpdate_sameStates faults.artifactUpdate c.artifactUpdate _).ok hs
  exact runOn_bind_state GraphOk ht fun _ => ht

theorem cancel_graph (h : Option String) (taskId : String) (g : TaskGraph) :
    (runOn (cancel faults h taskId) g).2 = g ∨ ∃ contextId, (runOn (cancel faults h taskId) g).2 =
        g.addStatusChanged contextId taskId ⟨.canceled, none⟩ := by
  simp only [cancel, runOn_bind, runOn_readStore]
  cases faults.scopeRead with
  | some r => exact .inl rfl
  | none =>
    cases g.resolveByTaskId taskId with
    | none => exact .inl rfl
    | some contextId =>
      cases faults.write with
      | beforeCommit r => exact .inl rfl
      | afterCommit r => exact .inr ⟨contextId, rfl⟩
      | none =>
        refine .inr ⟨contextId, ?_⟩
        cases h <;> rfl

theorem taskStep_ok (c : TaskCall) (hs : SafeCall g c) (h : GraphOk g) : GraphOk (taskStep g c).1 := by
  cases c with
  | ensureTaskExists faults taskId contextId =>
    cases contextId with
    | none => exact h
    | some contextId =>
      obtain hsa | hg := writeStore_graph faults.write (·.addTaskExists contextId taskId) g
      · simp only [taskStep, ensureTaskExists, hsa]
        exact h
      · simp only [taskStep, ensureTaskExists, hg]
        exact h.insert taskId ((h taskId).scopeTo contextId)
  | recordStatusUpdate faults taskId contextId status =>
    exact recordStatusUpdate_graphOk faults h (SafeStatus.recordable hs)
  | applyTaskChunk faults chunk => exact applyTaskChunk_ok faults h hs
  | cancel faults hf taskId =>
    obtain hsa | ⟨contextId, hg⟩ := cancel_graph faults hf taskId g
    · simp only [taskStep, hsa]
      exact h
    · simp only [taskStep, hg]
      refine h.addStatusChanged contextId taskId _ fun current hc => ?_
      exact ⟨hs current hc, isAllowedTransition_canceled (hs current hc)⟩

/-- Over every run of safe calls from a graph in order, the states recorded for
every task are a path of the transition table and stop at a terminal state. -/
theorem recorded_path_of_safe (g : TaskGraph) (calls : List TaskCall) (h : GraphOk g)
    (hsafe : Run.Along taskStep SafeCall g calls) (taskId : String) :
    RecordedPath (TaskGraph.recorded (Run.exec taskStep g calls) taskId) :=
  (Run.along_invariant taskStep SafeCall GraphOk (fun _ call hc hok => taskStep_ok call hc hok)
    g h calls hsafe taskId).path

def bareStatus (state : String) : TaskStatus := { state := some (.string state), message := none, extra := ∅ }

/-- A task that is submitted and completed in one context. -/
def submitAndComplete : List TaskCall :=
  [.recordStatusUpdate .quiet "task" "context" (bareStatus "TASK_STATE_SUBMITTED"),
    .recordStatusUpdate .quiet "task" "context" (bareStatus "TASK_STATE_COMPLETED")]

theorem recorded_path_submitAndComplete :
    RecordedPath (TaskGraph.recorded (Run.exec taskStep ∅ submitAndComplete) "task") :=
  recorded_path_of_safe ∅ submitAndComplete graphOk_empty ⟨.inr (.inl rfl), .inl (by decide), trivial⟩ "task"

/-- Canceling the completed task records a state after a terminal one. -/
theorem cancel_after_completed :
    TaskGraph.recorded (Run.exec taskStep ∅ (submitAndComplete ++ [.cancel .quiet none "task"])) "task" =
        [.submitted, .completed, .canceled] ∧
      ¬ RecordedPath
        (TaskGraph.recorded (Run.exec taskStep ∅ (submitAndComplete ++ [.cancel .quiet none "task"])) "task") := by
  have hr : recorded
      (Run.exec taskStep ∅ (submitAndComplete ++ [.cancel .quiet none "task"])) "task" =
        [.submitted, .completed, .canceled] := by decide
  rw [hr]
  simp [RecordedPath, Follows, isTerminalState]

end AgentiumOs.Tasks
