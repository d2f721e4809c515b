import AgentiumOs.Tasks.Path

/-! Concurrent calls of `record_status_update`. The gate is checked on a state
that is read first, and the write is a separate transaction, so another call can
record a state in between. A run interleaves the reads and writes of any number
of calls in any order. A call that is not interrupted does what the sequential
function does (`race_uninterrupted`); the recorded states stay a path in every
run whose writes all find the head they were allowed from. -/

namespace AgentiumOs.Tasks

open Lib Lib.Fallible

structure PendingWrite where
  taskId : String
  contextId : String
  newStatus : TaskStatusKind
  current : Option TaskStateNode

structure RaceState where
  graph : TaskGraph
  pending : Finmap fun _ : ℕ => PendingWrite

inductive RaceStep where
  | read (call : ℕ) (taskId contextId : String) (status : TaskStatus)
  | write (call : ℕ)

/-- A read parses the status and passes the gate on the state it sees; a call
that does not pass is over. A write commits what was decided at the read. -/
def raceStep (s : RaceState) : RaceStep → RaceState × Unit
  | .read call taskId contextId status =>
      match wireStatusToKind status with
      | .error _ => (s, ())
      | .ok newStatus =>
          let current := seenState s.graph taskId contextId
          if isAllowedFrom current newStatus.tag then
            ({ s with pending := s.pending.insert call ⟨taskId, contextId, newStatus, current⟩ }, ())
          else (s, ())
  | .write call =>
      match s.pending.lookup call with
      | none => (s, ())
      | some w =>
          ({ graph := s.graph.addStatusChanged w.contextId w.taskId
              ⟨w.newStatus, w.current.map (·.newStatus)⟩
             pending := s.pending.erase call }, ())

/-- A call whose write follows its read at once is a call of the sequential store. -/
theorem race_uninterrupted (g : TaskGraph) (ca : ℕ) (t c : String) (s : TaskStatus) :
    (Run.exec raceStep ⟨g, ∅⟩ [.read ca t c s, .write ca]).graph =
      (runOn (recordStatusUpdate .quiet t c s) g).2 := by
  have hr : runOn (readCurrent .quiet t c) g = (.ok (seenState g t c), g) := by
    simp only [readCurrent, runOn_bind, runOn_readStore, StoreFaults.quiet, seenState]
    split_ifs <;> rfl
  simp only [Run.exec, raceStep, recordStatusUpdate, runOn_bind, runOn_lift]
  cases wireStatusToKind s with
  | error e => rfl
  | ok kind =>
    simp only [hr]
    split_ifs with ha
    · simp only [Finmap.lookup_insert]
      rfl
    · rfl

/-- The graph is in order and every pending write was allowed from what it read. -/
structure RaceOk (s : RaceState) : Prop where
  graph : GraphOk s.graph
  allowed : ∀ call w, s.pending.lookup call = some w → isAllowedFrom w.current w.newStatus.tag = true

def HeadUnchanged (s : RaceState) : RaceStep → Prop
  | .read _ _ _ _ => True
  | .write call =>
      match s.pending.lookup call with
      | none => True
      | some w => s.graph.head w.taskId = w.current

theorem raceStep_ok (step : RaceStep) (hs : HeadUnchanged s step) (h : RaceOk s) : RaceOk (raceStep s step).1 := by
  cases step with
  | read call taskId contextId st =>
    simp only [raceStep]
    cases wireStatusToKind st with
    | error e => exact h
    | ok kind =>
      simp only
      split_ifs with ha
      · refine ⟨h.graph, fun o w hw => ?_⟩
        by_cases ho : o = call
        · subst ho
          rw [Finmap.lookup_insert] at hw
          cases hw
          exact ha
        · rw [Finmap.lookup_insert_of_ne _ ho] at hw
          exact h.allowed o w hw
      · exact h
  | write call =>
    simp only [raceStep]
    cases hp : s.pending.lookup call with
    | none => exact h
    | some w =>
      refine ⟨h.graph.addStatusChanged _ _ _ fun current hc => ?_, fun o w' hw' => ?_⟩
      · have ha := h.allowed call w hp
        simp only [HeadUnchanged, hp] at hs
        rw [← hs, hc] at ha
        exact follows_of_isAllowedFrom ha
      · by_cases ho : o = call
        · subst ho
          rw [Finmap.lookup_erase] at hw'
          cases hw'
        · rw [Finmap.lookup_erase_ne ho] at hw'
          exact h.allowed o w' hw'

/-- In every interleaving whose writes all find the head their call read, the
recorded states of every task are a path that stops at a terminal state. -/
theorem race_recorded_path (g : TaskGraph) (steps : List RaceStep) (h : GraphOk g)
    (hsteps : Run.Along raceStep HeadUnchanged ⟨g, ∅⟩ steps) (taskId : String) :
    RecordedPath ((Run.exec raceStep ⟨g, ∅⟩ steps).graph.recorded taskId) :=
  ((Run.along_invariant raceStep HeadUnchanged RaceOk (fun _ step hs hok => raceStep_ok step hs hok)
    ⟨g, ∅⟩ ⟨h, fun _ _ hw => by cases hw⟩ steps hsteps).graph taskId).path

/-- The task is submitted, then two calls read it. -/
def twoReaders : List RaceStep :=
  [.read 0 "task" "context" (bareStatus "TASK_STATE_SUBMITTED"), .write 0,
    .read 1 "task" "context" (bareStatus "TASK_STATE_COMPLETED"),
    .read 2 "task" "context" (bareStatus "TASK_STATE_CANCELED")]

theorem race_one_writer_path :
    RecordedPath ((Run.exec raceStep ⟨∅, ∅⟩ (twoReaders ++ [.write 1])).graph.recorded "task") :=
  race_recorded_path ∅ (twoReaders ++ [.write 1]) graphOk_empty
    (show Run.Along raceStep HeadUnchanged ⟨∅, ∅⟩ (twoReaders ++ [RaceStep.write 1]) from
      ⟨trivial, rfl, trivial, trivial, rfl, trivial⟩) "task"

/-- Both readers write: the task is completed and then canceled. -/
theorem race_two_writers : (Run.exec raceStep ⟨∅, ∅⟩ (twoReaders ++ [.write 1, .write 2])).graph.recorded "task" =
        [.submitted, .completed, .canceled] ∧
      ¬ RecordedPath ((Run.exec raceStep ⟨∅, ∅⟩ (twoReaders ++ [.write 1, .write 2])).graph.recorded "task") := by
  have hr : (Run.exec raceStep ⟨∅, ∅⟩ (twoReaders ++ [.write 1, .write 2])).graph.recorded "task" =
      [.submitted, .completed, .canceled] := by decide
  rw [hr]
  simp [RecordedPath, Follows, isTerminalState]

end AgentiumOs.Tasks
