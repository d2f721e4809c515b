import AgentiumOs.Lib.Run
import AgentiumOs.Lib.Word

/-! The policy of an external tool: a semaphore for its invocations, and a quarantine after
failures in a row. An invocation looks at the quarantine before it waits for a permit. -/

namespace AgentiumOs.Tools

open Lib

variable {ι : Type}

structure InvocationPolicy (ι : Type) where
  toolName : String
  quarantineThreshold : UInt32
  permits : ℕ
  consecutiveFailures : ℕ
  quarantine : Option (ℕ × String)
  waiting : List ι
  invoking : List ι

inductive PolicyOp (ι : Type) where
  /-- The first half of `acquire`. -/
  | check (i : ι)
  | permit (i : ι)
  | giveUp (i : ι)
  | release (i : ι)
  | recordSuccess
  | recordFailure (reason : String)
  | liftQuarantine

inductive PolicyAnswer where
  | done
  | quarantined (tool reason : String)
  | backoff (ms : ℕ)

def backoffFor (consecutiveFailures : ℕ) : ℕ :=
  [1000, 2000, 4000, 8000, 16000, 30000].getD (min (consecutiveFailures - 1) 5) 0

namespace InvocationPolicy

def new (toolName : String) (maxConcurrent : ℕ) (quarantineThreshold : UInt32) : InvocationPolicy ι :=
  ⟨toolName, quarantineThreshold, maxConcurrent, 0, none, [], []⟩

/-- The failures recorded since the last success or lift. -/
def streak : List (PolicyOp ι) → ℕ :=
  List.foldl (fun n op => match op with
    | .recordFailure _ => n + 1
    | .recordSuccess | .liftQuarantine => 0
    | _ => n) 0

variable [DecidableEq ι]

def step (p : InvocationPolicy ι) : PolicyOp ι → InvocationPolicy ι × PolicyAnswer
  | .check i =>
      match p.quarantine with
      | some (_, reason) => (p, .quarantined p.toolName reason)
      | none => ({ p with waiting := p.waiting ++ [i] }, .done)
  | .permit i =>
      -- the queue of the semaphore is left open: anyone who waits may be next
      if i ∈ p.waiting ∧ 0 < p.permits then
        ({ p with permits := p.permits - 1, waiting := p.waiting.erase i, invoking := i :: p.invoking }, .done)
      else (p, .done)
  | .giveUp i => ({ p with waiting := p.waiting.erase i }, .done)
  | .release i =>
      if i ∈ p.invoking then ({ p with permits := p.permits + 1, invoking := p.invoking.erase i }, .done)
      else (p, .done)
  | .recordSuccess => ({ p with consecutiveFailures := 0 }, .done)
  | .recordFailure reason =>
      let n := Word.saturatingAdd 32 p.consecutiveFailures 1
      ({ p with
          consecutiveFailures := n
          quarantine := if p.quarantine = none ∧ p.quarantineThreshold.toNat ≤ n then some (n, reason)
            else p.quarantine }, .backoff (backoffFor n))
  | .liftQuarantine => ({ p with consecutiveFailures := 0, quarantine := none }, .done)

variable (name : String) (maxConcurrent : ℕ) (threshold : UInt32) (ops : List (PolicyOp ι))

theorem exec_counts :
    let p := Run.exec step (new name maxConcurrent threshold) ops
    p.consecutiveFailures = min (streak ops) (Word.maxValue 32) ∧ p.quarantineThreshold = threshold := by
  induction ops using List.reverseRecOn with
  | nil => exact ⟨rfl, rfl⟩
  | append_singleton ops op ih =>
    rw [Run.exec_concat]
    simp only [streak, List.foldl_append, List.foldl_cons, List.foldl_nil] at ih ⊢
    cases op with
    | check i | permit i | release i =>
      simp only [step]
      split <;> exact ih
    | giveUp i => exact ih
    | recordFailure reason =>
      refine ⟨?_, ih.2⟩
      simp only [step, Word.saturatingAdd, ih.1]
      omega
    | recordSuccess | liftQuarantine => exact ⟨rfl, ih.2⟩

theorem quarantine_step (p : InvocationPolicy ι) (op : PolicyOp ι) :
    (p.step op).1.quarantine ≠ none ↔ (∃ r, op = .recordFailure r ∧
      p.quarantineThreshold.toNat ≤ Word.saturatingAdd 32 p.consecutiveFailures 1) ∨
      p.quarantine ≠ none ∧ op ≠ .liftQuarantine := by
  cases op with
  | check i =>
    simp only [step]
    split <;> simp_all
  | permit i | release i =>
    simp only [step]
    split <;> simp
  | recordFailure r => by_cases hq : p.quarantine = none <;> simp [step, hq]
  | _ => simp [step]

theorem quarantine_eq_none_iff : (Run.exec step (new name maxConcurrent threshold) ops).quarantine = none ↔
      ∀ pre r post, ops = pre ++ .recordFailure r :: post → threshold.toNat ≤ streak pre + 1 →
        .liftQuarantine ∈ post := by
  have hlt := threshold.toNat_lt
  rw [← not_iff_not, ← Ne, Run.exec_iff_occurs step (P := fun p => p.quarantine ≠ none) (by simp [new]) quarantine_step]
  push Not
  constructor
  · rintro ⟨pre, _, post, rfl, ⟨r, rfl, hle⟩, hp⟩
    rw [(exec_counts ..).1, (exec_counts ..).2, Word.saturatingAdd, Word.maxValue] at hle
    exact ⟨pre, r, post, rfl, by omega, fun hm => hp _ hm rfl⟩
  · rintro ⟨pre, r, post, rfl, hle, hp⟩
    refine ⟨pre, _, post, rfl, ⟨r, rfl, ?_⟩, fun b hb he => hp (he ▸ hb)⟩
    rw [(exec_counts ..).1, (exec_counts ..).2, Word.saturatingAdd, Word.maxValue]
    omega

/-- The tool is in quarantine exactly when, since the last lift, a failure was recorded that made as
many failures in a row as the threshold. -/
theorem quarantined_iff : (Run.exec step (new name maxConcurrent threshold) ops).quarantine ≠ none ↔
      ∃ pre reason post, ops = pre ++ .recordFailure reason :: post ∧ threshold.toNat ≤ streak pre + 1 ∧
        .liftQuarantine ∉ post := by
  rw [Ne, quarantine_eq_none_iff]
  push Not
  rfl

end InvocationPolicy

end AgentiumOs.Tools
