import AgentiumOs.Lib.Run

/-! The rows of the runners of a cluster. A runner that boots sweeps the rows that are stale by its own
measure and registers itself; then it writes the time of each heartbeat into its row. A heartbeat is
an update: it succeeds without a row, too, and does not bring the row back. -/

namespace AgentiumOs.Cluster

open Lib

structure RunnerIdentity where
  runnerId : String
  endpoint : String
  serviceInstanceId : String

/-- A row of `cluster_runners`. -/
structure RunnerRow where
  identity : RunnerIdentity
  podName : String
  lastHeartbeatMs : ℤ

abbrev ClusterRunners := String → Option RunnerRow

inductive Statement where
  | sweepStaleRunners (placementTtlMs : UInt64)
  | registerRunner (identity : RunnerIdentity) (podName : String)
  | heartbeat (runnerId : String)

/-- A statement at a time of the database, with the row that it returns. -/
def step (table : ClusterRunners) : ℤ × Statement → ClusterRunners × Option RunnerRow
  | (now, .sweepStaleRunners ttl) =>
      (fun id => (table id).filter fun row => ¬ row.lastHeartbeatMs < now - ttl.toInt64.toInt, none)
  | (now, .registerRunner identity podName) =>
      -- an `UPSERT`, which creates the row if it is missing
      let row := ⟨identity, podName, now⟩
      (Function.update table identity.runnerId (some row), some row)
  | (now, .heartbeat id) =>
      match table id with
      | none => (table, none)
      | some row =>
          let row := { row with lastHeartbeatMs := now }
          (Function.update table id (some row), some row)

variable (r : String)

/-- The statement does not register the runner again. -/
def Statement.IsForeign : Statement → Prop
  | registerRunner identity _ => identity.runnerId ≠ r
  | _ => True

/-- A sweep does not find the row of the runner stale. -/
def Spares (table : ClusterRunners) : ℤ × Statement → Prop
  | (now, .sweepStaleRunners ttl) => ∀ row ∈ table r, now - ttl.toInt64.toInt ≤ row.lastHeartbeatMs
  | _ => True

variable {r} {table : ClusterRunners}

theorem isSome_step (ha : a.2.IsForeign r) : ((step table a).1 r).isSome ↔ (table r).isSome ∧ Spares r table a := by
  obtain ⟨now, statement⟩ := a
  cases statement with
  | sweepStaleRunners ttl => cases h : table r <;> simp [step, Spares, h]
  | registerRunner i p =>
    have hne : r ≠ i.runnerId := Ne.symm ha
    simp [step, Spares, Function.update_of_ne hne]
  | heartbeat id =>
    by_cases hid : id = r
    · subst hid
      cases h : table id <;> simp [step, Spares, h]
    · cases h : table id <;> simp [step, Spares, h, Function.update_of_ne (Ne.symm hid)]

theorem isSome_exec {pre : List (ℤ × Statement)} (hp : ∀ a ∈ pre, a.2.IsForeign r) :
    (Run.exec step table pre r).isSome ↔ (table r).isSome ∧ Run.Along step (Spares r) table pre := by
  induction pre generalizing table with
  | nil => simp [Run.Along]
  | cons a pre ih =>
    rw [List.forall_mem_cons] at hp
    rw [Run.exec_cons, ih hp.2, isSome_step hp.1, Run.Along, and_assoc]

/-- After a heartbeat the row of the runner has its time exactly if no sweep has found the row stale
since the runner was registered. -/
theorem heartbeat_written_iff (hregistered : (table r).isSome) {pre : List (ℤ × Statement)}
    (hpre : ∀ a ∈ pre, a.2.IsForeign r) (now : ℤ) :
    (∃ row, Run.exec step table (pre ++ [(now, .heartbeat r)]) r = some row ∧ row.lastHeartbeatMs = now) ↔
      Run.Along step (Spares r) table pre := by
  have hrow := @isSome_exec r table pre hpre
  rw [Run.exec_concat]
  generalize Run.exec step table pre = table' at hrow
  cases hb : table' r with
  | none | some row => simpa [step, hb, hregistered] using hrow

/-- A runner that has just registered, at the time 0. -/
def oneRunner : ClusterRunners := (step (fun _ => none) (0, .registerRunner ⟨"a", "http://a", "a-0"⟩ "a-0")).1

/-- A heartbeat after a runner has booted with a limit of five minutes. -/
theorem heartbeat_written_after_sweep : ∃ row,
    Run.exec step oneRunner [(4000, .sweepStaleRunners 300000), (5000, .heartbeat "a")] "a" = some row ∧
      row.lastHeartbeatMs = 5000 := by
  refine (@heartbeat_written_iff "a" oneRunner rfl [(4000, .sweepStaleRunners 300000)] (by simp [Statement.IsForeign])
    5000).mpr ⟨?_, trivial⟩
  rintro row ⟨⟩
  decide

/-- A runner that was held up for longer than the limit is swept; its next heartbeat succeeds and
there is no row. -/
theorem swept_runner_stays_away :
    (step (Run.exec step oneRunner [(301000, .sweepStaleRunners 300000)]) (301001, .heartbeat "a")).2 = none ∧
      Run.exec step oneRunner [(301000, .sweepStaleRunners 300000), (301001, .heartbeat "a")] "a" = none := by
  decide

end AgentiumOs.Cluster
