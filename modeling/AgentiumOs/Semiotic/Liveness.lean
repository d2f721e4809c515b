import AgentiumOs.Semiotic.Postconditions

/-! How long a submitted artifact stays live. Every call that completes successfully
in a scope uses up the scope's artifact, whatever its tier and whoever allowed it.
In the runs where, as long as an artifact is unused, only calls that it allowed
complete successfully, it is live until one of them has. -/

namespace AgentiumOs.Semiotic

open AgentiumOs.Core Lib

variable {V : Type} (P : Platform V) {scope : RuntimeScope}

/-- While the artifact submitted last is unused, a call that completes successfully
is one of tier 2 or 3 that was allowed under it. -/
def KeepsArtifact (r : ScopeRun V scope) : ScopeEvent V scope → Prop
  | .complete index false _ =>
      ∀ record ∈ r.calls[index]?, record.running → r.unused.isSome → record.allowedUnder = some r.submissions
  | _ => True

/-- The artifact that is unused is on record, and not consumed. -/
def ArtifactKept (r : ScopeRun V scope) : Prop :=
  ∀ artifact time, r.unused = some (artifact, time) →
    r.gate.grounding.lookup (scopeKey scope) = some ⟨artifact, time, false⟩

variable {P}

theorem resolveOnResume_grounding (s : SemioticState) (scope : RuntimeScope) (u : String) :
    (s.resolveOnResume P scope u).1.grounding = s.grounding := by
  unfold SemioticState.resolveOnResume
  split
  · rfl
  · split_ifs <;> rfl

/-- A completion keeps the artifact: it fails, the gate is off, or it is of a call
that the artifact allowed. -/
theorem artifactKept_complete (hs : ArtifactKept r) (hok : KeepsArtifact r (.complete i f p))
    (hr : r.calls[i]? = some re) (hru : re.running) :
    ArtifactKept (completeCall r i re f p).1 := by
  cases f with
  | true =>
    intro ar t hu
    simp only [completeCall, onToolCallComplete_failed] at hu ⊢
    exact hs ar t hu
  | false =>
    by_cases he : (r.gate.config.resolve re.call.1.agentPackage).enabled
    · intro ar t hu
      cases hb : r.unused with
      | none => simp [completeCall, hb] at hu
      | some unused =>
        have ha := hok re hr hru (by rw [hb]; rfl)
        simp [completeCall, he, ha] at hu
    · intro ar t hu
      simp only [completeCall, he] at hu ⊢
      simp only [onToolCallComplete, he]
      exact hs ar t hu

theorem artifactKept_step (r : ScopeRun V scope) (e : ScopeEvent V scope) (hok : KeepsArtifact r e)
    (hs : ArtifactKept r) : ArtifactKept (scopeStep P r e).1 := by
  cases e with
  | intercept call =>
    intro ar t hu
    have hf := (interceptToolCall_frame P r.gate call.1).grounding
    simp only [scopeStep, interceptCall, hf]
    exact hs ar t hu
  | complete i failed passed =>
    cases hr : r.calls[i]? with
    | none => simpa [scopeStep, hr] using hs
    | some re =>
      by_cases hru : re.running
      · simpa only [scopeStep, hr, hru, if_true] using artifactKept_complete hs hok hr hru
      · simpa [scopeStep, hr, hru] using hs
  | submit s =>
    intro ar t hu
    cases hu
    exact Finmap.lookup_insert _
  | resume u =>
    intro ar t hu
    simp only [scopeStep, resolveOnResume_grounding]
    exact hs ar t hu
  | wait | configure => exact hs

variable (P)

/-- Along every run of the calls of a scope in which only calls that it allowed
complete successfully, a submitted artifact is live until one of them has
completed, a newer one is submitted, or its time is over. -/
theorem artifact_live_until_used (gate : SemioticState) (events : List (ScopeEvent V scope))
    (hrun : Run.Along (scopeStep P) KeepsArtifact (.fresh scope gate) events)
    (artifact : ParseArtifact) (time : ℕ)
    (hunused : (Run.exec (scopeStep P) (.fresh scope gate) events).unused = some (artifact, time))
    (httl : (Run.exec (scopeStep P) (.fresh scope gate) events).gate.now - time ≤ artifactTtl) :
    (Run.exec (scopeStep P) (.fresh scope gate) events).gate.getLive scope artifactTtl = some artifact := by
  have hf : ArtifactKept (ScopeRun.fresh scope gate : ScopeRun V scope) := by
    intro artifact time h
    cases h
  have hk := Run.along_invariant (scopeStep P) KeepsArtifact ArtifactKept artifactKept_step _ hf
    events hrun artifact time hunused
  simp only [SemioticState.getLive, hk]
  simpa using httl

/-- The write fails and can be tried again under the same artifact. -/
theorem live_after_failed_write :
    (Run.exec (scopeStep literalPlatform) (.fresh writeCall.runtimeScope freshState)
        [.submit pinnedArtifact, .intercept writeIn, .complete 0 true allPass, .wait 5]).gate.getLive
      writeCall.runtimeScope artifactTtl = some pinnedArtifact :=
  artifact_live_until_used literalPlatform freshState
    [.submit pinnedArtifact, .intercept writeIn, .complete 0 true allPass, .wait 5]
    ⟨trivial, trivial, trivial, trivial, trivial⟩ pinnedArtifact 0 (by decide +kernel) (by decide +kernel)

/-- A read, which the gate lets pass without looking at the artifact, uses it up:
the write it was submitted for is blocked. -/
theorem read_uses_up_artifact :
    let r := Run.exec (scopeStep literalPlatform) (.fresh writeCall.runtimeScope freshState)
      [.submit pinnedArtifact, .intercept readIn, .complete 0 false allPass]
    r.unused = some (pinnedArtifact, 0) ∧ r.gate.now - 0 ≤ artifactTtl ∧
      (classifyTier (toolMetaFromContext readIn.1)).asU8 = 0 ∧
      r.gate.getLive writeCall.runtimeScope artifactTtl = none := by
  decide +kernel

end AgentiumOs.Semiotic
