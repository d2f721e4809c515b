import AgentiumOs.Lib.Approval
import AgentiumOs.Lib.Run
import AgentiumOs.Semiotic.Requirements

/-! Runs of the gate and the authorizations it asks for. Seen from one scope, the
store of pending authorizations is a slot of one-shot approvals: every step of the
gate is a move of it, so over a whole run an approval is used at most once and
only by the call that was last asked about. -/

namespace AgentiumOs.Semiotic

open AgentiumOs.Core Lib Lib.Approval SemioticState

variable {V : Type} (P : Platform V)

inductive GateEvent (V : Type) where
  | intercept (ctx : ToolCallContext V)
  | resume (scope : RuntimeScope) (userText : String)
  | submit (scope : RuntimeScope) (artifact : ParseArtifact)
  | complete (ctx : ToolCallContext V) (failed : Bool) (passed : List Postcondition → Option String → Bool)
  | wait (elapsed : ℕ)
  | configure (config : SemioticConfig)

inductive GateAnswer (V : Type) where
  | decision (decision : Option (InterceptorDecision V))
  | resumed (action : ResumeAction)
  | done

def gateStep (s : SemioticState) : GateEvent V → SemioticState × GateAnswer V
  | .intercept ctx => ((interceptToolCall P s ctx).1, .decision (interceptToolCall P s ctx).2)
  | .resume scope userText =>
      ((s.resolveOnResume P scope userText).1, .resumed (s.resolveOnResume P scope userText).2)
  | .submit scope artifact => (s.submit scope artifact, .done)
  | .complete ctx failed passed => (onToolCallComplete s ctx failed passed, .done)
  | .wait elapsed => ({ s with now := s.now + elapsed }, .done)
  | .configure config => ({ s with config }, .done)

def SameScope (a b : RuntimeScope) : Prop := a.agentId = b.agentId ∧ a.taskIdOpt = b.taskIdOpt

instance (a b : RuntimeScope) : Decidable (SameScope a b) := by
  unfold SameScope
  infer_instance

/-- The agent's id has no colon and the task's id, if there is one, is not empty. -/
def WellFormedScope (scope : RuntimeScope) : Prop :=
  ':' ∉ scope.agentId.toList ∧ scope.taskIdOpt ≠ some ""

instance (scope : RuntimeScope) : Decidable (WellFormedScope scope) := by
  unfold WellFormedScope
  infer_instance

theorem scopeKey_eq_of_sameScope (h : SameScope a b) : scopeKey a = scopeKey b := by
  rw [scopeKey, scopeKey, h.1, h.2]

theorem sameScope_of_scopeKey_eq (ha : WellFormedScope a) (hb : WellFormedScope b) (h : scopeKey a = scopeKey b) :
    SameScope a b := by
  obtain ⟨hag, ht⟩ := Text.append_colon_inj ha.1 hb.1 h
  refine ⟨hag, ?_⟩
  have hne := ha.2
  have hne' := hb.2
  cases hta : a.taskIdOpt <;> cases htb : b.taskIdOpt <;> simp_all

/-! ### What a step does to the pending authorizations -/

@[simp] theorem recordVerdict_pendingAuth (s : SemioticState) (ctx : ToolCallContext V)
    (v : GateVerdict) (d : String) :
    (recordVerdict s ctx v d).pendingAuth = s.pendingAuth := rfl

@[simp] theorem registerPostconditionsIfPass_pendingAuth (s : SemioticState) (ctx : ToolCallContext V)
    (v : GateVerdict) : (registerPostconditionsIfPass s ctx v).pendingAuth = s.pendingAuth := by
  unfold registerPostconditionsIfPass
  split_ifs
  · rfl
  · split
    · rfl
    · split_ifs <;> rfl

@[simp] theorem consume_pendingAuth (s : SemioticState) (scope : RuntimeScope) :
    (s.consume scope).pendingAuth = s.pendingAuth := by
  unfold consume
  split <;> rfl

theorem onToolCallComplete_pendingAuth (s : SemioticState) (ctx : ToolCallContext V) (f : Bool)
    (p : List Postcondition → Option String → Bool) :
    (onToolCallComplete s ctx f p).pendingAuth = s.pendingAuth := by
  unfold onToolCallComplete takePendingPostconditions
  split_ifs
  · rfl
  · cases s.pendingPostconditions.lookup (scopeKey ctx.runtimeScope) with
    | none | some pending => exact consume_pendingAuth _ _

theorem judge_tier (ctx : ToolCallContext V) (tier : Tier) (po : SemioticPolicy) (art : ParseArtifact) :
    (judge P ctx tier po art).tier = tier := by
  unfold judge
  simp only
  split_ifs
  · rfl
  · rfl
  · rfl
  · split <;> rfl

variable {ctx : ToolCallContext V} {p : SemioticPolicy} {s s' : SemioticState} {slot : Slot (String × V)}
  {scope : RuntimeScope}

theorem evaluate_tier (h : evaluate P s ctx tool p = some v) : v.tier = classifyTier tool := by
  unfold evaluate at h
  by_cases ht : (classifyTier tool).asU8 ≤ 1
  · simp only [ht, if_true, Option.some.injEq] at h
    exact h ▸ rfl
  · simp only [ht, if_false] at h
    cases hl : s.getLive ctx.runtimeScope artifactTtl with
    | none =>
      simp only [hl, Option.some.injEq] at h
      exact h ▸ rfl
    | some raw =>
      simp only [hl, Option.map_eq_some_iff] at h
      obtain ⟨l, -, rfl⟩ := h
      exact judge_tier P ctx _ p l

/-- A call that uses no grant is asked about, or leaves the pending authorizations
alone and is not let through at tier 3. -/
def AskedOrKept (s s' : SemioticState) (ctx : ToolCallContext V) (tier : Tier)
    (decision : Option (InterceptorDecision V)) : Prop :=
  (s'.pendingAuth = (s.setPending P ctx.runtimeScope ctx.toolName ctx.args).pendingAuth ∧
      ∃ prompt, decision = some (.requireAuthorization prompt)) ∨
    (s'.pendingAuth = s.pendingAuth ∧ (∀ prompt, decision ≠ some (.requireAuthorization prompt)) ∧
      (tier = .irreversible → decision ≠ some .allow))

theorem applyPolicy_auth (s : SemioticState) (v : GateVerdict) (ctx : ToolCallContext V)
    (he : p.shouldEnforce 3) :
    AskedOrKept P s (applyPolicy P s p v ctx).1 ctx v.tier (some (applyPolicy P s p v ctx).2) := by
  have ht3 : v.tier = .irreversible → p.shouldEnforce v.tier.asU8 := by
    intro ht
    rw [ht]
    exact he
  unfold applyPolicy
  by_cases hm : v.reason = .requirementsMet
  · rw [if_pos hm]
    by_cases ha : v.tier = .irreversible ∧ p.shouldEnforce v.tier.asU8
    · rw [if_pos ha]
      exact .inl ⟨rfl, _, rfl⟩
    · rw [if_neg ha]
      exact .inr ⟨rfl, by simp, fun ht => absurd ⟨ht, ht3 ht⟩ ha⟩
  · rw [if_neg hm]
    by_cases hb : p.shouldEnforce v.tier.asU8
    · rw [if_pos hb]
      exact .inr ⟨rfl, by simp, by simp⟩
    · rw [if_neg hb]
      exact .inr ⟨rfl, by simp, fun ht => absurd (ht3 ht) hb⟩

theorem interceptJudged_auth (s : SemioticState) (ctx : ToolCallContext V) (v : GateVerdict)
    (he : p.shouldEnforce 3) :
    AskedOrKept P s (interceptJudged P s ctx p v).1 ctx v.tier (some (interceptJudged P s ctx p v).2) := by
  unfold interceptJudged
  by_cases ht : v.tier.asU8 ≤ 1
  · rw [if_pos ht]
    refine .inr ⟨rfl, by simp, fun hi => ?_⟩
    rw [hi] at ht
    exact absurd ht (by decide)
  · rw [if_neg ht]
    have hp := applyPolicy_auth P (registerPostconditionsIfPass (recordVerdict s ctx v
      (decisionLabel v (((s.getLive ctx.runtimeScope artifactTtl).map fun art =>
        !art.postconditions.isEmpty).getD false))) ctx v) v ctx he
    unfold AskedOrKept setPending at hp ⊢
    simpa only [registerPostconditionsIfPass_pendingAuth, recordVerdict_pendingAuth] using hp

/-- A grant is used only by a call that the pending authorization is for. -/
theorem isGranted_spec (s : SemioticState) (scope : RuntimeScope) (toolName : String) (ar : V) :
    (s.pendingAuth.lookup (scopeKey scope) = some ⟨toolName, SemioticState.fingerprint P toolName ar, true⟩ ∧
      s.isGranted P scope toolName ar = ({ s with pendingAuth := s.pendingAuth.erase (scopeKey scope) }, true)) ∨
      s.isGranted P scope toolName ar = (s, false) := by
  unfold isGranted
  cases hl : s.pendingAuth.lookup (scopeKey scope) with
  | none => exact .inr rfl
  | some entry =>
    simp only
    split_ifs with ho hg
    · exact .inr rfl
    · cases entry
      simp_all
    · exact .inr rfl

theorem interceptToolCall_auth (s : SemioticState) (ctx : ToolCallContext V)
    (he : (s.config.resolve ctx.agentPackage).shouldEnforce 3) :
    (s.pendingAuth.lookup (scopeKey ctx.runtimeScope) =
        some ⟨ctx.toolName, SemioticState.fingerprint P ctx.toolName ctx.args, true⟩ ∧
      (interceptToolCall P s ctx).1.pendingAuth = s.pendingAuth.erase (scopeKey ctx.runtimeScope) ∧
      (interceptToolCall P s ctx).2 = some .allow) ∨
    AskedOrKept P s (interceptToolCall P s ctx).1 ctx (classifyTier (toolMetaFromContext ctx))
      (interceptToolCall P s ctx).2 := by
  have hen : (s.config.resolve ctx.agentPackage).enabled = true := by
    simp only [SemioticPolicy.shouldEnforce, Bool.and_eq_true] at he
    exact he.1.1
  unfold interceptToolCall
  simp only [hen]
  obtain ⟨hl, hg⟩ | hn := isGranted_spec P s ctx.runtimeScope ctx.toolName ctx.args
  · rw [hg]
    exact .inl ⟨hl, by simp, rfl⟩
  · rw [hn]
    right
    simp only
    cases hev : evaluate P s ctx (toolMetaFromContext ctx) (s.config.resolve ctx.agentPackage) with
    | none => exact .inr ⟨rfl, by simp, by simp⟩
    | some verdict =>
      rw [← evaluate_tier P hev]
      exact interceptJudged_auth P s ctx verdict he

/-- The pending authorization of a key is the slot: a request, as the tool and the
arguments it was made for, and whether it is granted. -/
def Represents (s : SemioticState) (key : String) : Slot (String × V) → Prop
  | none => s.pendingAuth.lookup key = none
  | some ((toolName, args), granted) =>
      s.pendingAuth.lookup key = some ⟨toolName, SemioticState.fingerprint P toolName args, granted⟩

/-- What is seen in a scope: tier-3 calls that are allowed, requests and grants. -/
def observed (scope : RuntimeScope) (s : SemioticState) : GateEvent V → List (Entry (String × V))
  | .intercept ctx =>
      if SameScope ctx.runtimeScope scope then
        match (interceptToolCall P s ctx).2 with
        | some .allow =>
            if classifyTier (toolMetaFromContext ctx) = .irreversible then
              [.used (ctx.toolName, ctx.args)]
            else []
        | some (.requireAuthorization _) => [.asked (ctx.toolName, ctx.args)]
        | _ => []
      else []
  | .resume other userText =>
      if SameScope other scope ∧ (s.resolveOnResume P other userText).2 = .granted then [.granted] else []
  | _ => []

/-- Scopes are well formed, and calls are made under a policy that enforces tier 3. -/
def Admissible (s : SemioticState) : GateEvent V → Prop
  | .intercept ctx =>
      WellFormedScope ctx.runtimeScope ∧ (s.config.resolve ctx.agentPackage).shouldEnforce 3 = true
  | .resume scope _ => WellFormedScope scope
  | _ => True

variable {P}

variable {key : String}

theorem Represents.of_lookup_eq (h : Represents P s key slot)
    (heq : s'.pendingAuth.lookup key = s.pendingAuth.lookup key) : Represents P s' key slot := by
  match slot with
  | none => exact heq.trans h
  | some ((toolName, args), granted) => exact heq.trans h

variable {toolName userText word rest : String} {other : RuntimeScope}

theorem fingerprint_inj (hj : Function.Injective P.toJson)
    (h : SemioticState.fingerprint P toolName args = SemioticState.fingerprint P toolName args') : args = args' := by
  exact hj (String.append_right_inj _ |>.mp h)

/-- The grant on record is for one call, and its entry tells which. -/
theorem Represents.granted (hj : Function.Injective P.toJson) (h : Represents P s key slot)
    (hl : s.pendingAuth.lookup key = some ⟨toolName, SemioticState.fingerprint P toolName args, true⟩) :
    slot = some ((toolName, args), true) := by
  match slot with
  | none => exact absurd (h.symm.trans hl) (by simp)
  | some ((name, given), granted) =>
    have he := h.symm.trans hl
    simp only [Option.some.injEq, PendingAuth.mk.injEq] at he
    obtain ⟨rfl, ha, rfl⟩ := he
    rw [fingerprint_inj hj ha]

theorem interceptToolCall_lookup_of_ne (he : (s.config.resolve ctx.agentPackage).shouldEnforce 3)
    (hke : key ≠ scopeKey ctx.runtimeScope) :
    (interceptToolCall P s ctx).1.pendingAuth.lookup key = s.pendingAuth.lookup key := by
  obtain ⟨-, her, -⟩ | ⟨hp, -⟩ | ⟨hk, -⟩ := interceptToolCall_auth P s ctx he
  · rw [her, Finmap.lookup_erase_ne hke]
  · rw [hp, setPending, Finmap.lookup_insert_of_ne _ hke]
  · rw [hk]

theorem resolveOnResume_lookup_of_ne (hk : key ≠ scopeKey other) :
    (s.resolveOnResume P other userText).1.pendingAuth.lookup key = s.pendingAuth.lookup key := by
  unfold resolveOnResume
  cases s.pendingAuth.lookup (scopeKey other) with
  | none => rfl
  | some entry =>
    split_ifs
    · exact Finmap.lookup_erase_ne hk
    · exact Finmap.lookup_insert_of_ne _ hk

theorem intercept_move (hj : Function.Injective P.toJson) (hsc : WellFormedScope scope)
    (had : Admissible s (.intercept ctx)) (h : Represents P s (scopeKey scope) slot) :
    ∃ slot', Move slot (observed P scope s (.intercept ctx)) slot' ∧
      Represents P (interceptToolCall P s ctx).1 (scopeKey scope) slot' := by
  obtain ⟨hc, he⟩ := had
  have hau := interceptToolCall_auth P s ctx he
  by_cases hs : SameScope ctx.runtimeScope scope
  · have hke := scopeKey_eq_of_sameScope hs
    simp only [observed, hs, if_true]
    rw [hke] at hau
    obtain ⟨hl, her, ha⟩ | ⟨hp, p, has⟩ | ⟨hk, hno, hd⟩ := hau
    · -- the grant is used up, by the very call it was given for
      have hsl : slot = some ((ctx.toolName, ctx.args), true) := h.granted hj hl
      have hn : Represents P (interceptToolCall P s ctx).1 (scopeKey scope) none := by
        simp [Represents, her]
      rw [ha, hsl]
      split_ifs
      · exact ⟨none, .use _, hn⟩
      · exact ⟨none, .drop _, hn⟩
    · rw [has]
      refine ⟨some ((ctx.toolName, ctx.args), false), .ask _ _, ?_⟩
      simp [Represents, hp, setPending, hke]
    · refine ⟨slot, ?_, h.of_lookup_eq (by rw [hk])⟩
      split
      · next ha =>
        split_ifs with ht
        · exact absurd ha (hd ht)
        · exact .quiet _
      · next p has => exact absurd has (hno p)
      · exact .quiet _
  · have hke : scopeKey scope ≠ scopeKey ctx.runtimeScope :=
      fun heq => hs (sameScope_of_scopeKey_eq hc hsc heq.symm)
    simp only [observed, hs]
    exact ⟨slot, .quiet _, h.of_lookup_eq (interceptToolCall_lookup_of_ne he hke)⟩

theorem resume_move (hsc : WellFormedScope scope) (ho : WellFormedScope other)
    (h : Represents P s (scopeKey scope) slot) :
    ∃ slot', Move slot (observed P scope s (.resume other userText)) slot' ∧
      Represents P (s.resolveOnResume P other userText).1 (scopeKey scope) slot' := by
  by_cases hs : SameScope other scope
  · have hk := scopeKey_eq_of_sameScope hs
    simp only [observed, hs, resolveOnResume]
    rw [hk]
    match slot, h with
    | none, h =>
      have hl : s.pendingAuth.lookup (scopeKey scope) = none := h
      simp only [hl]
      exact ⟨none, .quiet _, hl⟩
    | some ((toolName, args), granted), h =>
      have hl : s.pendingAuth.lookup (scopeKey scope) = some _ := h
      simp only [hl]
      by_cases hd : isGateDenial P userText
      · simp only [hd]
        exact ⟨none, .drop _, by simp [Represents]⟩
      · simp only [hd]
        refine ⟨some ((toolName, args), true), .grant _ granted, ?_⟩
        simp [Represents]
  · have hk : scopeKey scope ≠ scopeKey other :=
      fun heq => hs (sameScope_of_scopeKey_eq ho hsc heq.symm)
    simp only [observed, hs]
    exact ⟨slot, .quiet _, h.of_lookup_eq (resolveOnResume_lookup_of_ne hk)⟩

theorem gateStep_move (hj : Function.Injective P.toJson) (hs : WellFormedScope scope) (ha : Admissible s e)
    (h : Represents P s (scopeKey scope) slot) :
    ∃ slot', Move slot (observed P scope s e) slot' ∧
      Represents P (gateStep P s e).1 (scopeKey scope) slot' := by
  cases e with
  | intercept ctx => exact intercept_move hj hs ha h
  | resume other userText => exact resume_move hs ha h
  | complete ctx failed passed =>
    refine ⟨slot, .quiet _, h.of_lookup_eq ?_⟩
    simp [gateStep, onToolCallComplete_pendingAuth]
  | submit | wait | configure => exact ⟨slot, .quiet _, h.of_lookup_eq rfl⟩

theorem gate_moves (hj : Function.Injective P.toJson) (hs : WellFormedScope scope) (s : SemioticState)
    (e : List (GateEvent V)) (hru : Run.Along (gateStep P) Admissible s e) (slot : Slot (String × V))
    (h : Represents P s (scopeKey scope) slot) :
    ∃ slot', Moves slot (Run.collect (gateStep P) (observed P scope) s e) slot' := by
  induction e generalizing s slot with
  | nil => exact ⟨slot, .done slot⟩
  | cons event rest ih =>
    obtain ⟨ha, hr⟩ := hru
    obtain ⟨n, hm, hn⟩ := gateStep_move hj hs ha h
    obtain ⟨l, hmo⟩ := ih _ hr n hn
    exact ⟨l, .step hm hmo⟩

variable (P)

/-- Over every run of the gate, a tier-3 call is allowed in a scope at most as often
as the user approved it there when it was the call last asked about. -/
theorem allowed_le_approved [DecidableEq V] (hjson : Function.Injective P.toJson) (s : SemioticState)
    (scope : RuntimeScope) (hscope : WellFormedScope scope)
    (hfresh : s.pendingAuth.lookup (scopeKey scope) = none) (events : List (GateEvent V))
    (hrun : Run.Along (gateStep P) Admissible s events) (toolName : String) (args : V) :
    uses (toolName, args) (Run.collect (gateStep P) (observed P scope) s events) ≤
      approvals (toolName, args) none (Run.collect (gateStep P) (observed P scope) s events) := by
  obtain ⟨slot, hm⟩ := gate_moves hjson hscope s events hrun none hfresh
  exact uses_le_approvals hm (toolName, args)

/-! ### A denial -/

/-- The calls of the store of pending authorizations. -/
inductive AuthCall (V : Type) where
  | setPending (scope : RuntimeScope) (toolName : String) (args : V)
  | resolveOnResume (scope : RuntimeScope) (userText : String)
  | isGranted (scope : RuntimeScope) (toolName : String) (args : V)

def authStep (s : SemioticState) : AuthCall V → SemioticState × Unit
  | .setPending scope toolName args => (s.setPending P scope toolName args, ())
  | .resolveOnResume scope userText => ((s.resolveOnResume P scope userText).1, ())
  | .isGranted scope toolName args => ((s.isGranted P scope toolName args).1, ())

/-- A new request under the key, and after it a reply that granted what was pending there. -/
def RenewedGrant (s : SemioticState) (key : String) (calls : List (AuthCall V)) : Prop :=
  ∃ pre asker toolName args mid replier userText post,
    calls = pre ++ .setPending asker toolName args :: (mid ++ .resolveOnResume replier userText :: post) ∧
      scopeKey asker = key ∧ scopeKey replier = key ∧
      ((Run.exec (authStep P) s (pre ++ .setPending asker toolName args :: mid)).resolveOnResume P replier
        userText).2 = .granted

variable {P} {calls : List (AuthCall V)}

theorem RenewedGrant.concat (h : RenewedGrant P s key calls) (c : AuthCall V) :
    RenewedGrant P s key (calls ++ [c]) := by
  obtain ⟨pre, as, toolName, args, mid, r, userText, post, rfl, h⟩ := h
  exact ⟨pre, as, toolName, args, mid, r, userText, post ++ [c], by simp, h⟩

/-- What is pending after a slot was empty was asked for again, and what is granted was granted again. -/
theorem pending_of_none (hn : s.pendingAuth.lookup key = none)
    (he : (Run.exec (authStep P) s calls).pendingAuth.lookup key = some e) :
    (∃ pre as toolName ar po, calls = pre ++ .setPending as toolName ar :: po ∧ scopeKey as = key) ∧
      (e.granted = true → RenewedGrant P s key calls) := by
  induction calls using List.reverseRecOn generalizing e with
  | nil => exact absurd (hn.symm.trans he) (by simp)
  | append_singleton calls call ih =>
    have hke (h : (Run.exec (authStep P) s calls).pendingAuth.lookup key = some e) :
        (∃ pre as toolName ar po, calls ++ [call] = pre ++ .setPending as toolName ar :: po ∧
          scopeKey as = key) ∧ (e.granted = true → RenewedGrant P s key (calls ++ [call])) := by
      obtain ⟨⟨pre, as, toolName, ar, po, rfl, ha⟩, hg⟩ := ih h
      exact ⟨⟨pre, as, toolName, ar, po ++ [call], by simp, ha⟩, fun hgr => (hg hgr).concat call⟩
    rw [Run.exec_concat] at he
    cases call with
    | setPending as toolName ar =>
      obtain rfl | hk := eq_or_ne key (scopeKey as)
      · refine ⟨⟨calls, as, toolName, ar, [], rfl, rfl⟩, fun hg => ?_⟩
        rw [authStep, setPending, Finmap.lookup_insert] at he
        cases he
        cases hg
      · rw [authStep, setPending, Finmap.lookup_insert_of_ne _ hk] at he
        exact hke he
    | resolveOnResume r userText =>
      obtain rfl | hk := eq_or_ne key (scopeKey r)
      · cases hl : (Run.exec (authStep P) s calls).pendingAuth.lookup (scopeKey r) with
        | none =>
          rw [authStep, resolveOnResume, hl] at he
          exact absurd (hl.symm.trans he) (by simp)
        | some before =>
          obtain ⟨⟨pre, as, toolName, ar, po, rfl, ha⟩, -⟩ := ih hl
          refine ⟨⟨pre, as, toolName, ar, po ++ [.resolveOnResume r userText], by simp, ha⟩, fun _ => ?_⟩
          refine ⟨pre, as, toolName, ar, po, r, userText, [], by simp, ha, rfl, ?_⟩
          by_cases hd : isGateDenial P userText
          · simp [authStep, resolveOnResume, hl, hd] at he
          · simp [resolveOnResume, hl, hd]
      · exact hke (by rwa [authStep, resolveOnResume_lookup_of_ne hk] at he)
    | isGranted other toolName ar =>
      rw [authStep] at he
      obtain ⟨-, hg⟩ | hno := isGranted_spec P (Run.exec (authStep P) s calls) other toolName ar
      · rw [hg] at he
        obtain rfl | hk := eq_or_ne key (scopeKey other)
        · exact absurd ((Finmap.lookup_erase _ _).symm.trans he) (by simp)
        · exact hke ((Finmap.lookup_erase_ne hk).symm.trans he)
      · rw [hno] at he
        exact hke he

theorem isGateDenial_iff (hw : word = "deny" ∨ word = "reject")
    (ht : P.toLowercase (Text.trim userText) = word ++ rest) :
    isGateDenial P userText = true ↔ rest = "" ∨ Text.startsWith rest " " := by
  simp only [isGateDenial, ht, Text.startsWith, ← String.toList_inj]
  rcases hw with rfl | rfl
  all_goals
    simp

/-- A reply that begins with the word of a denial takes the pending request back for good exactly
when the word is the whole reply or a blank follows it. -/
theorem denied_reply_final_iff {s : SemioticState} {scope : RuntimeScope} {entry : PendingAuth}
    {userText word rest : String} (hpending : s.pendingAuth.lookup (scopeKey scope) = some entry)
    (hword : word = "deny" ∨ word = "reject") (htext : P.toLowercase (Text.trim userText) = word ++ rest) :
    ((s.resolveOnResume P scope userText).2 = .denied ∧
        ∀ calls toolName args, ((Run.exec (authStep P) (s.resolveOnResume P scope userText).1 calls).isGranted P scope
          toolName args).2 = true → RenewedGrant P (s.resolveOnResume P scope userText).1 (scopeKey scope) calls) ↔
      rest = "" ∨ Text.startsWith rest " " := by
  rw [← isGateDenial_iff hword htext]
  constructor
  · rintro ⟨hd, -⟩
    by_contra hnot
    simp [resolveOnResume, hpending, hnot] at hd
  · intro hd
    simp only [resolveOnResume, hpending, hd, if_true, true_and]
    intro calls toolName args hg
    obtain ⟨hl, -⟩ | hnot := isGranted_spec P _ scope toolName args
    · exact (pending_of_none (Finmap.lookup_erase _ _) hl).2 rfl
    · rw [hnot] at hg
      cases hg

/-! ### An approval and its use -/

def deleteCall : ToolCallContext String :=
  { writeCall with toolName := "delete", metadata := ⟨some "delete", none, none⟩ }

/-- The deletion is asked about, approved, and made twice. -/
def approveOnce : List (GateEvent String) :=
  [.submit deleteCall.runtimeScope { pinnedArtifact with covers := ["delete"] }, .intercept deleteCall,
    .resume deleteCall.runtimeScope "go ahead", .intercept deleteCall, .intercept deleteCall]

theorem approveOnce_allowed_once : uses ("delete", "1")
        (Run.collect (gateStep literalPlatform) (observed literalPlatform deleteCall.runtimeScope)
          freshState approveOnce) = 1 ∧
      uses ("delete", "1")
        (Run.collect (gateStep literalPlatform) (observed literalPlatform deleteCall.runtimeScope)
          freshState approveOnce) ≤
      approvals ("delete", "1") none
        (Run.collect (gateStep literalPlatform) (observed literalPlatform deleteCall.runtimeScope)
          freshState approveOnce) := by
  have hs : WellFormedScope deleteCall.runtimeScope := by decide
  refine ⟨by decide +kernel, ?_⟩
  refine allowed_le_approved literalPlatform (fun _ _ h => h) freshState deleteCall.runtimeScope
    hs rfl approveOnce ?_ "delete" "1"
  exact ⟨trivial, ⟨hs, by decide +kernel⟩, hs, ⟨hs, by decide +kernel⟩,
    ⟨hs, by decide +kernel⟩, trivial⟩

/-- The deletion is pending. -/
def deletionAsked : SemioticState := freshState.setPending literalPlatform deleteCall.runtimeScope "delete" "1"

theorem deletion_denied :
    (deletionAsked.resolveOnResume literalPlatform deleteCall.runtimeScope "deny please").2 = .denied := by
  have hl : deletionAsked.pendingAuth.lookup (scopeKey deleteCall.runtimeScope) =
      some ⟨"delete", "delete:1", false⟩ := by
    decide +kernel
  have ht : literalPlatform.toLowercase (Text.trim "deny please") = "deny" ++ " please" := by decide +kernel
  exact ((denied_reply_final_iff hl (.inl rfl) ht).mpr (.inr rfl)).1

/-- A comma after the word, and the reply grants the deletion. -/
theorem denial_with_comma_grants :
    (deletionAsked.resolveOnResume literalPlatform deleteCall.runtimeScope "deny, this is wrong").2 = .granted ∧
      ((deletionAsked.resolveOnResume literalPlatform deleteCall.runtimeScope "deny, this is wrong").1.isGranted
        literalPlatform deleteCall.runtimeScope "delete" "1").2 = true := by
  decide +kernel

end AgentiumOs.Semiotic
