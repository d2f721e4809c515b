import AgentiumOs.Tasks.Path

/-! What a chunk that fails leaves in the graph. A chunk is a list of parts, each
its own transaction; on the graph before the call every part is silent, fails, or
records. Since records are only ever added, a failing chunk leaves the graph as
it was exactly when the first part that is not silent is one that fails. -/

namespace AgentiumOs.Tasks

open Lib Lib.Fallible TaskGraph

def TaskGraph.weight (g : TaskGraph) (taskId : String) : ℕ :=
  (g.nodeOf taskId).states.length + (g.nodeOf taskId).artifacts.length

def Grows (g g' : TaskGraph) : Prop := ∀ taskId, g.weight taskId ≤ g'.weight taskId

variable (g : TaskGraph) (faults : StoreFaults)

theorem Grows.refl : Grows g g := fun _ => Nat.le_refl _

theorem Grows.trans (g g' g'' : TaskGraph) (h : Grows g g') (h' : Grows g' g'') : Grows g g'' :=
  fun taskId => (h taskId).trans (h' taskId)

theorem weight_lt_addStatusChanged (c taskId : String) (s : TaskStateNode) :
    g.weight taskId < (g.addStatusChanged c taskId s).weight taskId := by
  simp only [weight, addStatusChanged, nodeOf_insert_self,
    scopeTo_states, scopeTo_artifacts, List.length_append, List.length_singleton]
  omega

theorem weight_lt_addArtifactGenerated (c taskId : String) (ar : ArtifactNode) :
    g.weight taskId < (g.addArtifactGenerated c taskId ar).weight taskId := by
  simp only [weight, addArtifactGenerated, nodeOf_insert_self,
    scopeTo_states, scopeTo_artifacts, List.length_append, List.length_singleton]
  omega

theorem grows_insert {g : TaskGraph} {t : String} {n : TaskNode}
    (h : g.weight t ≤ TaskGraph.weight (g.insert t n) t) :
    Grows g (g.insert t n) := by
  intro o
  by_cases ho : o = t
  · subst ho
    exact h
  · simp [weight, nodeOf_insert_of_ne _ _ _ ho]

theorem recordStatusUpdate_grows (t c : String) (s : TaskStatus) :
    Preserves Grows (recordStatusUpdate faults t c s) := by
  intro g
  obtain h | ⟨kind, -, -, h⟩ := recordStatusUpdate_graph faults t c s g
  · rw [h]
    exact .refl g
  · rw [h]
    exact grows_insert (weight_lt_addStatusChanged g c t _).le

theorem recordArtifactUpdate_grows (t c : String) (ar : Artifact) (append l : Option Bool) :
    Preserves Grows (recordArtifactUpdate faults t c ar append l) := by
  intro g
  obtain h | h := recordArtifactUpdate_graph faults t c ar append l g
  · rw [h]
    exact .refl g
  · rw [h]
    exact grows_insert (weight_lt_addArtifactGenerated g c t _).le

theorem applyArtifacts_grows (faults : ℕ → StoreFaults) (t c : String) (n : ℕ)
    (ar : List Artifact) : Preserves Grows (applyArtifacts faults t c n ar) := by
  induction ar generalizing n with
  | nil => exact preserves_pure Grows.refl _
  | cons artifact rest ih =>
    refine preserves_bind Grows.trans (recordArtifactUpdate_grows _ _ _ _ _ _) fun event => ?_
    exact preserves_bind Grows.trans (ih (n + 1)) fun events => preserves_pure Grows.refl _

theorem applyTaskArtifacts_grows (faults : ChunkFaults) (t : Task) :
    Preserves Grows (applyTaskArtifacts faults t) := by
  unfold applyTaskArtifacts
  split
  · exact applyArtifacts_grows _ _ _ _ _
  · exact preserves_pure Grows.refl _

theorem applyStatusUpdate_grows (r : RecordedFromTask) (up : Option TaskStatusUpdateEvent) :
    Preserves Grows (applyStatusUpdate faults r up) := by
  match up with
  | none | some ⟨_, _, none⟩ => exact preserves_pure Grows.refl _
  | some ⟨contextId, taskId, some status⟩ =>
    refine preserves_bind Grows.trans (preserves_lift Grows.refl _) fun kind => ?_
    split_ifs
    · exact preserves_pure Grows.refl _
    · match taskId, contextId with
      | none, _ | some _, none => exact preserves_pure Grows.refl _
      | some taskId, some contextId =>
        exact preserves_bind Grows.trans (recordStatusUpdate_grows _ _ _ _) fun event =>
          preserves_pure Grows.refl _

theorem applyArtifactUpdate_grows (up : Option TaskArtifactUpdateEvent) :
    Preserves Grows (applyArtifactUpdate faults up) := by
  unfold applyArtifactUpdate
  split
  · exact preserves_bind Grows.trans (recordArtifactUpdate_grows _ _ _ _ _ _) fun event =>
      preserves_pure Grows.refl _
  · exact preserves_pure Grows.refl _

/-- A transaction of a chunk, or a check it makes. -/
inductive Part where
  | recordStatus (faults : StoreFaults) (taskId contextId : String) (status : TaskStatus)
  | recordArtifact (faults : StoreFaults) (taskId contextId : String) (artifact : Artifact)
  | parseStatus (status : TaskStatus)

inductive Effect where
  | silent
  | fails
  | records
  deriving DecidableEq

def WriteFault.effect : WriteFault → Effect
  | .none | .afterCommit _ => .records
  | .beforeCommit _ => .fails

/-- What a part does on a graph: a write that fails after its commit has recorded. -/
def Part.effect (g : TaskGraph) : Part → Effect
  | .recordStatus faults taskId contextId status =>
      match wireStatusToKind status with
      | .error _ => .fails
      | .ok kind =>
          if readFails faults g taskId contextId then .fails
          else if isAllowedFrom (seenState g taskId contextId) kind.tag then faults.write.effect
          else .silent
  | .recordArtifact faults _ _ _ => faults.write.effect
  | .parseStatus status =>
      match wireStatusToKind status with
      | .error _ => .fails
      | .ok _ => .silent

/-- The first effect in a list of parts, all met on the same graph. -/
def firstEffect (g : TaskGraph) : List Part → Effect
  | [] => .silent
  | part :: rest => if part.effect g = .silent then firstEffect g rest else part.effect g

def taskStatusParts (faults : StoreFaults) (task : Task) : List Part :=
  match task.status, task.id, task.contextId with
  | some status, some taskId, some contextId => [.recordStatus faults taskId contextId status]
  | _, _, _ => []

def artifactParts (faults : ℕ → StoreFaults) (taskId contextId : String) :
    ℕ → List Artifact → List Part
  | _, [] => []
  | n, artifact :: rest =>
      .recordArtifact (faults n) taskId contextId artifact :: artifactParts faults taskId contextId (n + 1) rest

def taskArtifactParts (faults : ChunkFaults) (task : Task) : List Part :=
  match task.id, task.contextId with
  | some taskId, some contextId => artifactParts faults.artifact taskId contextId 0 task.artifacts
  | _, _ => []

def taskParts (faults : ChunkFaults) : Option Task → List Part
  | none => []
  | some task => taskStatusParts faults.taskStatus task ++ taskArtifactParts faults task

def statusUpdateParts (faults : StoreFaults) : Option TaskStatusUpdateEvent → List Part
  | some ⟨contextId, taskId, some status⟩ =>
      match taskId, contextId with
      | some taskId, some contextId => [.parseStatus status, .recordStatus faults taskId contextId status]
      | _, _ => [.parseStatus status]
  | _ => []

def artifactUpdateParts (faults : StoreFaults) : Option TaskArtifactUpdateEvent → List Part
  | some ⟨some contextId, some taskId, _, _, artifact⟩ =>
      [.recordArtifact faults taskId contextId (artifact.getD .default)]
  | _ => []

/-- The parts of a chunk in the order they are applied. -/
def chunkParts (faults : ChunkFaults) (chunk : ValidatedTaskChunk) : List Part :=
  taskParts faults chunk.task ++ statusUpdateParts faults.statusUpdate chunk.statusUpdate ++
    artifactUpdateParts faults.artifactUpdate chunk.artifactUpdate

/-! ### A chunk follows its parts -/

/-- A program does what the first effect of its parts says: nothing, fail without
a trace, or leave a record. -/
def Tracks {α : Type} (m : TaskM α) (parts : List Part) (g : TaskGraph) (post : α → Prop) : Prop :=
  match firstEffect g parts with
  | .silent => ∃ a, runOn m g = (.ok a, g) ∧ post a
  | .fails => ∃ e, runOn m g = (.error e, g)
  | .records => ∃ taskId, g.weight taskId < TaskGraph.weight (runOn m g).2 taskId

theorem firstEffect_append (parts r : List Part) : firstEffect g (parts ++ r) =
      if firstEffect g parts = .silent then firstEffect g r else firstEffect g parts := by
  induction parts with
  | nil => rfl
  | cons p parts ih =>
    by_cases hs : p.effect g = .silent
    · simp [firstEffect, hs, ih]
    · simp [firstEffect, hs]

theorem tracks_pure {α : Type} (a : α) (g : TaskGraph) {post : α → Prop} (h : post a) :
    Tracks (pure a) [] g post :=
  ⟨a, rfl, h⟩

/-- As long as the parts of the first statement are silent the second meets the
same graph; once something is recorded it stays. -/
theorem tracks_bind {α β : Type} {m : TaskM α} {f : α → TaskM β} {p r : List Part}
    {g : TaskGraph} {post : α → Prop} {post' : β → Prop} (hm : Tracks m p g post)
    (hf : ∀ a, post a → Tracks (f a) r g post') (hg : ∀ a, Preserves Grows (f a)) :
    Tracks (m >>= f) (p ++ r) g post' := by
  unfold Tracks at hm ⊢
  rw [firstEffect_append]
  cases he : firstEffect g p with
  | silent =>
    rw [he] at hm
    obtain ⟨a, hru, hp⟩ := hm
    have hr := hf a hp
    simp only [runOn_bind, hru]
    exact hr
  | fails =>
    rw [he] at hm
    obtain ⟨e, hru⟩ := hm
    simp only [runOn_bind, hru]
    exact ⟨e, rfl⟩
  | records =>
    rw [he] at hm
    obtain ⟨taskId, hw⟩ := hm
    refine ⟨taskId, runOn_bind_state (fun g' => g.weight taskId < weight g' taskId) hw fun a => ?_⟩
    exact lt_of_lt_of_le hw (hg a _ taskId)

theorem firstEffect_singleton (p : Part) : firstEffect g [p] = p.effect g := by
  unfold firstEffect
  split_ifs with h
  · exact h.symm
  · rfl

theorem recordArtifactUpdate_tracks (t c : String) (ar : Artifact) (append l : Option Bool)
    (g : TaskGraph) (post : Option TaskUpdateEvent → Prop) :
    Tracks (recordArtifactUpdate faults t c ar append l) [.recordArtifact faults t c ar] g post := by
  have hw := weight_lt_addArtifactGenerated g c t ⟨ar.artifactId, ar.artifactType⟩
  unfold Tracks
  rw [firstEffect_singleton]
  simp only [Part.effect, recordArtifactUpdate]
  cases faults.write with
  | none | afterCommit r => exact ⟨t, hw⟩
  | beforeCommit r => exact ⟨_, rfl⟩

/-- A status that is not recorded and does not fail leaves no event either. -/
theorem recordStatusUpdate_tracks (t c : String) (s : TaskStatus) (g : TaskGraph) :
    Tracks (recordStatusUpdate faults t c s) [.recordStatus faults t c s] g (fun ev => ev = none) := by
  have hw := weight_lt_addStatusChanged g c t
  unfold Tracks
  rw [firstEffect_singleton]
  cases hk : wireStatusToKind s with
  | error e =>
    simp only [Part.effect, hk, recordStatusUpdate]
    exact ⟨e, rfl⟩
  | ok kind =>
    have hr := runOn_readCurrent faults t c g
    simp only [Part.effect, hk, recordStatusUpdate, runOn_bind, runOn_lift]
    by_cases hf : readFails faults g t c = true
    · rw [if_pos hf] at hr
      obtain ⟨e, hr⟩ := hr
      simp only [hf, hr]
      exact ⟨e, rfl⟩
    · rw [if_neg hf] at hr
      simp only [hf, hr]
      by_cases ha : isAllowedFrom (seenState g t c) kind.tag = true
      · simp only [ha]
        cases faults.write with
        | none | afterCommit r => exact ⟨t, hw _⟩
        | beforeCommit r => exact ⟨_, rfl⟩
      · simp only [ha]
        exact ⟨none, rfl, rfl⟩

theorem tracks_bind_pure {α β : Type} {m : TaskM α} {f : α → TaskM β} {p : List Part}
    {g : TaskGraph} {post : α → Prop} {post' : β → Prop} (hm : Tracks m p g post)
    (hf : ∀ a, post a → ∃ b, f a = pure b ∧ post' b) (hg : ∀ a, Preserves Grows (f a)) :
    Tracks (m >>= f) p g post' := by
  have hp : ∀ a, post a → Tracks (f a) [] g post' := by
    intro a ha
    obtain ⟨b, hb, hpo⟩ := hf a ha
    rw [hb]
    exact tracks_pure b g hpo
  have ht := tracks_bind hm hp hg
  rwa [List.append_nil] at ht

theorem applyTaskStatus_tracks (t : Task) (g : TaskGraph) :
    Tracks (applyTaskStatus faults t) (taskStatusParts faults t) g (fun r => r.2 = none) := by
  unfold applyTaskStatus taskStatusParts
  match t.status, t.id, t.contextId with
  | some s, some taskId, some contextId =>
    refine tracks_bind_pure (recordStatusUpdate_tracks faults taskId contextId s g)
      (fun e he => ?_) fun e => ?_
    · subst he
      exact ⟨_, rfl, rfl⟩
    · cases e with
      | none => exact preserves_pure Grows.refl _
      | some e =>
        exact preserves_bind Grows.trans (preserves_lift Grows.refl _) fun kind =>
          preserves_pure Grows.refl _
  | none, _, _ | some _, none, _ | some _, some _, none => exact tracks_pure ([], none) g rfl

theorem applyArtifacts_tracks (faults : ℕ → StoreFaults) (t c : String) (n : ℕ)
    (ar : List Artifact) (g : TaskGraph) :
    Tracks (applyArtifacts faults t c n ar) (artifactParts faults t c n ar) g (fun _ => True) := by
  induction ar generalizing n with
  | nil => exact tracks_pure _ g trivial
  | cons artifact rest ih =>
    refine tracks_bind (recordArtifactUpdate_tracks _ _ _ _ _ _ g fun _ => True) (fun e _ => ?_)
      fun e => ?_
    · exact tracks_bind_pure (ih (n + 1)) (fun events _ => ⟨_, rfl, trivial⟩) fun events =>
        preserves_pure Grows.refl _
    · exact preserves_bind Grows.trans (applyArtifacts_grows _ _ _ _ _) fun events =>
        preserves_pure Grows.refl _

theorem applyTaskArtifacts_tracks (faults : ChunkFaults) (t : Task) (g : TaskGraph) :
    Tracks (applyTaskArtifacts faults t) (taskArtifactParts faults t) g (fun _ => True) := by
  unfold applyTaskArtifacts taskArtifactParts
  match t.id, t.contextId with
  | some taskId, some contextId => exact applyArtifacts_tracks _ _ _ _ _ g
  | none, _ | some _, none => exact tracks_pure [] g trivial

theorem applyTask_tracks (faults : ChunkFaults) (t : Option Task) (g : TaskGraph) :
    Tracks (applyTask faults t) (taskParts faults t) g (fun r => r.2 = none) := by
  cases t with
  | none => exact tracks_pure _ g rfl
  | some t =>
    refine tracks_bind (applyTaskStatus_tracks _ t g) (fun r hr => ?_) fun r => ?_
    · exact tracks_bind_pure (applyTaskArtifacts_tracks faults t g)
        (fun events _ => ⟨_, rfl, hr⟩) fun events => preserves_pure Grows.refl _
    · exact preserves_bind Grows.trans (applyTaskArtifacts_grows faults t) fun events =>
        preserves_pure Grows.refl _

theorem parseStatus_tracks (s : TaskStatus) (g : TaskGraph) :
    Tracks (liftM (wireStatusToKind s) : TaskM TaskStatusKind) [.parseStatus s] g (fun _ => True) := by
  unfold Tracks
  rw [firstEffect_singleton]
  cases hk : wireStatusToKind s with
  | error e =>
    simp only [Part.effect, hk]
    exact ⟨e, rfl⟩
  | ok kind =>
    simp only [Part.effect, hk]
    exact ⟨kind, rfl, trivial⟩

/-- With no status recorded from the task, the update is not a duplicate. -/
theorem applyStatusUpdate_tracks (up : Option TaskStatusUpdateEvent) (g : TaskGraph) :
    Tracks (applyStatusUpdate faults none up) (statusUpdateParts faults up) g (fun _ => True) := by
  match up with
  | none | some ⟨_, _, none⟩ => exact tracks_pure _ g trivial
  | some ⟨none, none, some s⟩ | some ⟨none, some _, some s⟩
  | some ⟨some _, none, some s⟩ =>
    exact tracks_bind_pure (parseStatus_tracks s g) (fun kind _ => ⟨[], rfl, trivial⟩)
      fun kind => preserves_pure Grows.refl _
  | some ⟨some contextId, some taskId, some s⟩ =>
    refine tracks_bind (parseStatus_tracks s g) (fun kind _ => ?_) fun kind => ?_
    · exact tracks_bind_pure (recordStatusUpdate_tracks faults taskId contextId s g)
        (fun e _ => ⟨_, rfl, trivial⟩) fun e => preserves_pure Grows.refl _
    · exact preserves_bind Grows.trans (recordStatusUpdate_grows _ _ _ _) fun e =>
        preserves_pure Grows.refl _

theorem applyArtifactUpdate_tracks (up : Option TaskArtifactUpdateEvent) (g : TaskGraph) :
    Tracks (applyArtifactUpdate faults up) (artifactUpdateParts faults up) g (fun _ => True) := by
  match up with
  | none | some ⟨none, _, _, _, _⟩ | some ⟨some _, none, _, _, _⟩ => exact tracks_pure [] g trivial
  | some ⟨some contextId, some taskId, l, append, ar⟩ =>
    exact tracks_bind_pure (recordArtifactUpdate_tracks _ _ _ _ _ _ g fun _ => True)
      (fun e _ => ⟨_, rfl, trivial⟩) fun e => preserves_pure Grows.refl _

theorem applyTaskChunk_tracks (faults : ChunkFaults) (c : ValidatedTaskChunk) (g : TaskGraph) :
    Tracks (applyTaskChunk faults c) (chunkParts faults c) g (fun _ => True) := by
  unfold chunkParts
  rw [List.append_assoc]
  refine tracks_bind (applyTask_tracks faults c.task g) (fun r hr => ?_) fun r => ?_
  · obtain ⟨events, rft⟩ := r
    cases hr
    refine tracks_bind (applyStatusUpdate_tracks _ _ g) (fun events _ => ?_) fun events => ?_
    · exact tracks_bind_pure (applyArtifactUpdate_tracks _ _ g) (fun events' _ => ⟨_, rfl, trivial⟩)
        fun events' => preserves_pure Grows.refl _
    · exact preserves_bind Grows.trans (applyArtifactUpdate_grows _ _) fun events' =>
        preserves_pure Grows.refl _
  · refine preserves_bind Grows.trans (applyStatusUpdate_grows _ _ _) fun events => ?_
    exact preserves_bind Grows.trans (applyArtifactUpdate_grows _ _) fun events' =>
      preserves_pure Grows.refl _

/-- Every task has the state, history and artifacts it had. -/
def SameRecords (g g' : TaskGraph) : Prop :=
  ∀ taskId, (g'.nodeOf taskId).head = (g.nodeOf taskId).head ∧
    (g'.nodeOf taskId).states = (g.nodeOf taskId).states ∧
    (g'.nodeOf taskId).artifacts = (g.nodeOf taskId).artifacts

theorem SameRecords.refl : SameRecords g g := fun _ => ⟨rfl, rfl, rfl⟩

theorem SameRecords.weight_eq {g g' : TaskGraph} (h : SameRecords g g') (taskId : String) :
    g'.weight taskId = g.weight taskId := by
  simp [weight, (h taskId).2.1, (h taskId).2.2]

/-- A chunk that fails has recorded nothing exactly when the first of its parts to
have an effect on the graph before the call is one that fails. -/
theorem failed_chunk_sameRecords_iff (faults : ChunkFaults) (chunk : ValidatedTaskChunk)
    (g : TaskGraph) (e : TaskError) (herror : (runOn (applyTaskChunk faults chunk) g).1 = .error e) :
    SameRecords g (runOn (applyTaskChunk faults chunk) g).2 ↔
      firstEffect g (chunkParts faults chunk) = .fails := by
  have ht := applyTaskChunk_tracks faults chunk g
  unfold Tracks at ht
  cases he : firstEffect g (chunkParts faults chunk) with
  | silent =>
    rw [he] at ht
    obtain ⟨events, h, -⟩ := ht
    rw [h] at herror
    cases herror
  | fails =>
    rw [he] at ht
    obtain ⟨e', h⟩ := ht
    simp only [h, iff_true]
    exact .refl g
  | records =>
    rw [he] at ht
    obtain ⟨taskId, hlt⟩ := ht
    refine iff_of_false (fun hs => ?_) (by simp)
    exact absurd (hs.weight_eq taskId) hlt.ne'

/-- A submitted task together with an update to a state that does not exist. -/
def submittedThenUnknown : ValidatedTaskChunk where
  task := some
    { id := some "task", contextId := some "context", artifacts := []
      status := some (bareStatus "TASK_STATE_SUBMITTED") }
  statusUpdate := some { contextId := some "context", taskId := some "task", status := some (bareStatus "DONE") }
  artifactUpdate := none
  task_isSome := fun _ => rfl

def unknownState : ValidatedTaskChunk where
  task := some
    { id := some "task", contextId := some "context"
      artifacts := [{ artifactId := some "a", artifactType := none }]
      status := some (bareStatus "DONE") }
  statusUpdate := none
  artifactUpdate := none
  task_isSome := by decide

theorem unknownState_sameRecords : SameRecords ∅ (runOn (applyTaskChunk .quiet unknownState) ∅).2 :=
  (failed_chunk_sameRecords_iff .quiet unknownState ∅ (.unsupportedState "DONE") (by rfl)).mpr (by decide)

/-- The chunk is refused at the update, after the task's own status was recorded. -/
theorem refused_chunk_recorded :
    (runOn (applyTaskChunk .quiet submittedThenUnknown) ∅).1 = .error (.unsupportedState "DONE") ∧
      ¬ SameRecords ∅ (runOn (applyTaskChunk .quiet submittedThenUnknown) ∅).2 ∧
      TaskGraph.recorded (runOn (applyTaskChunk .quiet submittedThenUnknown) ∅).2 "task" = [.submitted] := by
  refine ⟨rfl, fun hs => ?_, rfl⟩
  have hw := hs.weight_eq "task"
  exact absurd hw (by decide)

end AgentiumOs.Tasks
