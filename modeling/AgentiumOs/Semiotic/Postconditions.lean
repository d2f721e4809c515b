import AgentiumOs.Semiotic.Calls

/-! Whose postconditions are run. A call that meets the requirements puts the
postconditions of the artifact in the slot of its scope before the policy decides
on it, the next call that completes successfully runs what it finds there, and a
call that fails leaves the slot as it is. So a call runs its own postconditions,
and nothing stays behind, in the runs where no two calls with postconditions
overlap, none of them fails or is put to the user, and no other call completes
while one of them is under way. -/

namespace AgentiumOs.Semiotic

open AgentiumOs.Core Lib CallRecord

variable {V : Type} (P : Platform V) {scope : RuntimeScope}

/-- The call is under way and has registered postconditions. -/
def CallRecord.awaits (record : CallRecord V scope) : Bool :=
  record.running && record.registered.isSome

/-- The condition on a step: a call that registers is allowed and finds no other
one waiting; a call completes successfully while no other waits; a call that
waits does not fail. -/
def KeepsSlot (r : ScopeRun V scope) : ScopeEvent V scope → Prop
  | .intercept call =>
      (registers P r.gate call.1).isSome →
        isAsked P r.gate call.1 = false ∧ ∀ record ∈ r.calls, record.awaits = false
  | .complete index failed _ =>
      ∀ record ∈ r.calls[index]?, record.running →
        if failed then record.registered = none
        else ∀ other ∈ r.calls.eraseIdx index, other.awaits = false
  | _ => True

def ScopeRun.slot (r : ScopeRun V scope) : Option PendingPostconditions :=
  r.gate.pendingPostconditions.lookup (scopeKey scope)

/-- The calls under way that have registered postconditions. -/
def ScopeRun.waiting (r : ScopeRun V scope) : List (CallRecord V scope) :=
  r.calls.filter (·.awaits)

/-- At most one call waits, and the slot holds what it registered. -/
structure SlotOwned (r : ScopeRun V scope) : Prop where
  at_most_one : r.waiting.length ≤ 1
  slot_eq : r.slot = r.waiting.head?.bind (·.registered)

variable {i ind : ℕ}

theorem exists_split {α : Type} {l : List α} {x : α} (h : l[i]? = some x) :
    ∃ pre post, l = pre ++ x :: post ∧ l.eraseIdx i = pre ++ post ∧ ∀ y, l.set i y = pre ++ y :: post := by
  induction l generalizing i with
  | nil => simp at h
  | cons head tail ih =>
    cases i with
    | zero =>
      cases h
      exact ⟨[], tail, rfl, rfl, fun _ => rfl⟩
    | succ i =>
      obtain ⟨pre, post, hl, he, hs⟩ := ih h
      exact ⟨head :: pre, post, by rw [hl, List.cons_append], by simp [he], fun y => by simp [hs y]⟩

variable {P} {r : ScopeRun V scope}

theorem CallIn.key_eq (c : CallIn V scope) : scopeKey c.1.runtimeScope = scopeKey scope :=
  scopeKey_eq_of_sameScope c.2

theorem slotOwned_intercept (hs : SlotOwned r) (c : CallIn V scope)
    (hok : KeepsSlot P r (.intercept c)) : SlotOwned (interceptCall P r c) := by
  have hp := (interceptToolCall_frame P r.gate c.1).pending
  cases hr : registers P r.gate c.1 with
  | none =>
    rw [hr] at hp
    have hw : (interceptCall P r c).waiting = r.waiting := by
      simp [ScopeRun.waiting, interceptCall, awaits, hr]
    refine ⟨hw ▸ hs.at_most_one, ?_⟩
    rw [hw, ← hs.slot_eq, ScopeRun.slot]
    exact congrArg _ hp
  | some pending =>
    rw [hr] at hp
    obtain ⟨ha, hn⟩ := hok (by rw [hr]; rfl)
    obtain ⟨tier, hm, -⟩ := Option.bind_eq_some_iff.mp hr
    have hal := interceptToolCall_allow P hm ha
    have hw : (interceptCall P r c).waiting = [⟨c, some pending, allowedUnder P r c.1, true⟩] := by
      have hb : r.calls.filter (·.awaits) = [] :=
        List.filter_eq_nil_iff.mpr fun record hre => by simp [hn record hre]
      simp only [ScopeRun.waiting, interceptCall, List.filter_append, hb]
      simp [awaits, hr, hal]
    refine ⟨by rw [hw]; rfl, ?_⟩
    rw [hw, ScopeRun.slot]
    have hsl : (interceptCall P r c).gate.pendingPostconditions =
        r.gate.pendingPostconditions.insert (scopeKey c.1.runtimeScope) pending := hp
    rw [hsl, CallIn.key_eq c]
    exact Finmap.lookup_insert _

variable {record : CallRecord V scope}

/-- A call that completes successfully runs what it registered, and the slot is
empty afterwards. -/
theorem slotOwned_success (hs : SlotOwned r) (hre : r.calls[ind]? = some record)
    (hru : record.running) (he : (r.gate.config.resolve record.call.1.agentPackage).enabled)
    (ho : ∀ o ∈ r.calls.eraseIdx ind, o.awaits = false)
    (p : List Postcondition → Option String → Bool) :
    SlotOwned (completeCall r ind record false p).1 ∧ r.slot = record.registered := by
  obtain ⟨pre, post, hc, her, hse⟩ := exists_split hre
  rw [her] at ho
  have hpr : pre.filter (·.awaits) = [] :=
    List.filter_eq_nil_iff.mpr fun o hot => by simp [ho o (by simp [hot])]
  have hp : post.filter (·.awaits) = [] :=
    List.filter_eq_nil_iff.mpr fun o hot => by simp [ho o (by simp [hot])]
  constructor
  · have hw : (completeCall r ind record false p).1.waiting = [] := by
      simp only [ScopeRun.waiting, completeCall, hse, List.filter_append, List.filter_cons, hpr, hp]
      simp [awaits]
    refine ⟨by simp [hw], ?_⟩
    rw [hw, ScopeRun.slot]
    have hsl := (onToolCallComplete_success he p).2.2
    rw [CallIn.key_eq record.call] at hsl
    simp only [completeCall, hsl]
    exact Finmap.lookup_erase _ _
  · have hw : r.waiting = if record.awaits then [record] else [] := by
      simp [ScopeRun.waiting, hc, List.filter_cons, hpr, hp]
    rw [hs.slot_eq, hw]
    cases hr : record.registered with
    | none => simp [awaits, hr]
    | some pending => simp [awaits, hr, hru]

theorem slotOwned_failed (hs : SlotOwned r) (hr : r.calls[ind]? = some record)
    (hn : record.registered = none) (p : List Postcondition → Option String → Bool) :
    SlotOwned (completeCall r ind record true p).1 := by
  obtain ⟨pre, post, hc, -, hse⟩ := exists_split hr
  have hw : (completeCall r ind record true p).1.waiting = r.waiting := by
    simp only [ScopeRun.waiting, completeCall, hse]
    rw [hc]
    simp [awaits, hn]
  have hsl : (completeCall r ind record true p).1.slot = r.slot := by
    simp [ScopeRun.slot, completeCall, onToolCallComplete_failed]
  exact ⟨hw ▸ hs.at_most_one, by rw [hsl, hw, hs.slot_eq]⟩

/-- One step: the slot stays owned, and what a completed call ran is what it
registered. -/
theorem scopeStep_slot (r : ScopeRun V scope) (e : ScopeEvent V scope)
    (hok : GateEnabled r e ∧ KeepsSlot P r e) (hs : SlotOwned r) :
    SlotOwned (scopeStep P r e).1 ∧ ∀ c ∈ (scopeStep P r e).2, c.ran = c.registered := by
  obtain ⟨he, hsl⟩ := hok
  cases e with
  | intercept call => exact ⟨slotOwned_intercept hs call hsl, by simp [scopeStep]⟩
  | complete ind failed p =>
    cases hr : r.calls[ind]? with
    | none => simpa [scopeStep, hr] using hs
    | some record =>
      by_cases hru : record.running
      · have he' := he record hr
        have hsl' := hsl record hr hru
        simp only [scopeStep, hr, hru]
        cases failed with
        | true => exact ⟨slotOwned_failed hs hr hsl' p, by simp [completeCall]⟩
        | false =>
          obtain ⟨ho, hra⟩ := slotOwned_success hs hr hru he' hsl' p
          refine ⟨ho, ?_⟩
          simp only [completeCall, SemioticState.takePendingPostconditions, he']
          rintro c ⟨⟩
          rw [← hra, ScopeRun.slot, ← CallIn.key_eq record.call]
      · simpa [scopeStep, hr, hru] using hs
  | submit | wait | configure => exact ⟨⟨hs.at_most_one, hs.slot_eq⟩, by simp [scopeStep]⟩
  | resume u =>
    refine ⟨⟨hs.at_most_one, ?_⟩, by simp [scopeStep]⟩
    have hsa : (r.gate.resolveOnResume P scope u).1.pendingPostconditions =
        r.gate.pendingPostconditions := by
      unfold SemioticState.resolveOnResume
      split
      · rfl
      · split_ifs <;> rfl
    rw [ScopeRun.slot]
    simp only [scopeStep, hsa]
    exact hs.slot_eq

/-- The gate of a scope in which no call has been made. -/
def ScopeRun.fresh (scope : RuntimeScope) (gate : SemioticState) : ScopeRun V scope :=
  { gate, calls := [], submissions := 0, unused := none }

variable (P)

/-- Along every run of the calls of a scope that keeps the slot, each call that
completes runs exactly the postconditions it registered when it was allowed, and
in every state what is in the slot was registered by a call still under way. -/
theorem postconditions_run_by_own_call (gate : SemioticState)
    (hempty : gate.pendingPostconditions.lookup (scopeKey scope) = none)
    (events : List (ScopeEvent V scope))
    (hrun : Run.Along (scopeStep P) (fun r event => GateEnabled r event ∧ KeepsSlot P r event)
      (.fresh scope gate) events) :
    (∀ answer ∈ Run.outputs (scopeStep P) (.fresh scope gate) events, ∀ completion ∈ answer,
      completion.ran = completion.registered) ∧
    ∀ pending, (Run.exec (scopeStep P) (.fresh scope gate) events).slot = some pending →
      ∃ record ∈ (Run.exec (scopeStep P) (.fresh scope gate) events).calls,
        record.running ∧ record.registered = some pending := by
  have hf : SlotOwned (ScopeRun.fresh scope gate : ScopeRun V scope) := ⟨by simp [ScopeRun.waiting,
    ScopeRun.fresh], hempty⟩
  constructor
  · exact Run.along_outputs (scopeStep P) _ SlotOwned _ scopeStep_slot _ hf events hrun
  · intro pending hp
    have hs := Run.along_invariant (scopeStep P) _ SlotOwned
      (fun r event hok hs => (scopeStep_slot r event hok hs).1) _ hf events hrun
    rw [hs.slot_eq] at hp
    obtain ⟨record, hh, hr⟩ := Option.bind_eq_some_iff.mp hp
    have hmem := List.mem_filter.mp (List.mem_of_mem_head? hh)
    refine ⟨record, hmem.1, ?_, hr⟩
    simp only [awaits, Bool.and_eq_true] at hmem
    exact hmem.2.1

/-! ### A call that leaves its postconditions behind -/

def writeIn : CallIn String writeCall.runtimeScope := ⟨writeCall, rfl, rfl⟩

def readIn : CallIn String writeCall.runtimeScope :=
  ⟨{ writeCall with toolName := "read", metadata := ⟨some "read", none, none⟩ }, rfl, rfl⟩

def deleteIn : CallIn String writeCall.runtimeScope := ⟨deleteCall, rfl, rfl⟩

def allPass : List Postcondition → Option String → Bool := fun _ _ => true

/-- The write is grounded, allowed, and completes. -/
def writeOnce : List (ScopeEvent String writeCall.runtimeScope) :=
  [.submit pinnedArtifact, .intercept writeIn, .complete 0 false allPass]

theorem writeOnce_runs_own :
    (∀ answer ∈ Run.outputs (scopeStep literalPlatform) (.fresh writeCall.runtimeScope freshState) writeOnce,
      ∀ completion ∈ answer, completion.ran = completion.registered) ∧
    ∀ pending, (Run.exec (scopeStep literalPlatform) (.fresh writeCall.runtimeScope freshState)
        writeOnce).slot = some pending →
      ∃ record ∈ (Run.exec (scopeStep literalPlatform) (.fresh writeCall.runtimeScope freshState)
          writeOnce).calls, record.running ∧ record.registered = some pending := by
  refine postconditions_run_by_own_call literalPlatform freshState rfl writeOnce
    ⟨⟨trivial, trivial⟩, ⟨rfl, fun _ => ⟨by decide +kernel, ?_⟩⟩, ⟨?_, ?_⟩, trivial⟩
  · intro record hr
    cases hr
  · rintro record ⟨⟩
    decide +kernel
  · rintro record - - other ho
    cases ho

/-- The write fails, or the deletion is only asked about, and the read that
completes next runs their postconditions. -/
theorem read_runs_others_postconditions :
    (Run.outputs (scopeStep literalPlatform) (.fresh writeCall.runtimeScope freshState)
        [.submit pinnedArtifact, .intercept writeIn, .complete 0 true allPass, .intercept readIn,
          .complete 1 false allPass]).getLast? =
      some (some ⟨none, some ⟨[⟨"true", "always"⟩], 2, none⟩⟩) ∧
    (Run.outputs (scopeStep literalPlatform) (.fresh writeCall.runtimeScope freshState)
        [.submit { pinnedArtifact with covers := ["delete"] }, .intercept deleteIn, .intercept readIn,
          .complete 1 false allPass]).getLast? =
      some (some ⟨none, some ⟨[⟨"true", "always"⟩], 3, none⟩⟩) := by
  decide +kernel

end AgentiumOs.Semiotic
