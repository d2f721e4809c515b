import AgentiumOs.Semiotic.Interceptor

/-! The registry's pipeline of tool interceptors. The interceptors are asked in
order until one blocks the call or requires an authorization; one that fails is
logged and passed over like one that allows. Interceptors may share state. -/

namespace AgentiumOs.Interceptor

open Semiotic

variable {σ ε V : Type}

/-- An interceptor answers with a decision or fails. -/
abbrev ToolInterceptor (σ ε V : Type) :=
  σ → ToolCallContext V → σ × Except ε (InterceptorDecision V)

def interceptToolCall (s : σ) (ctx : ToolCallContext V) :
    List (ToolInterceptor σ ε V) → σ × Except ε (InterceptorDecision V)
  | [] => (s, .ok .allow)
  | interceptor :: rest =>
      match interceptor s ctx with
      | (s', .ok .allow) => interceptToolCall s' ctx rest
      | (s', .ok (.substitute _)) => interceptToolCall s' ctx rest
      | (s', .ok (.requireAuthorization prompt)) => (s', .ok (.requireAuthorization prompt))
      | (s', .ok (.block message)) => (s', .ok (.block message))
      -- only a warning is logged
      | (s', .error _) => interceptToolCall s' ctx rest

/-- The answer ends the pipeline: it blocks the call or suspends it. -/
def stops : Except ε (InterceptorDecision V) → Bool
  | .ok (.block _) | .ok (.requireAuthorization _) => true
  | _ => false

def passes : Except ε (InterceptorDecision V) → Bool
  | .ok .allow | .ok (.substitute _) => true
  | _ => false

def fails : Except ε (InterceptorDecision V) → Bool
  | .error _ => true
  | _ => false

/-- The answers of the interceptors that are asked, in order. -/
def answers (s : σ) (ctx : ToolCallContext V) :
    List (ToolInterceptor σ ε V) → List (Except ε (InterceptorDecision V))
  | [] => []
  | interceptor :: rest =>
      let (s', answer) := interceptor s ctx
      if stops answer then [answer] else answer :: answers s' ctx rest

variable (s : σ) (ctx : ToolCallContext V)

theorem interceptToolCall_cons (i : ToolInterceptor σ ε V) (rest : List (ToolInterceptor σ ε V)) :
    interceptToolCall s ctx (i :: rest) =
      if stops (i s ctx).2 then i s ctx
      else interceptToolCall (i s ctx).1 ctx rest := by
  rw [interceptToolCall]
  rcases i s ctx with ⟨s', answer⟩
  match answer with
  | .error _ | .ok .allow | .ok (.substitute _) | .ok (.block _) | .ok (.requireAuthorization _) => rfl

variable (pipeline : List (ToolInterceptor σ ε V))

theorem interceptToolCall_eq_find :
    (interceptToolCall s ctx pipeline).2 = ((answers s ctx pipeline).find? stops).getD (.ok .allow) := by
  induction pipeline generalizing s with
  | nil => rfl
  | cons i rest ih =>
    rw [interceptToolCall_cons, answers]
    by_cases hs : stops (i s ctx).2
    · simp [hs]
    · simp [hs, ih]

theorem interceptToolCall_allow_iff : (interceptToolCall s ctx pipeline).2 = .ok .allow ↔
      ∀ answer ∈ answers s ctx pipeline, stops answer = false := by
  rw [interceptToolCall_eq_find]
  cases hf : (answers s ctx pipeline).find? stops with
  | none =>
    have hn := List.find?_eq_none.mp hf
    simpa using hn
  | some answer =>
    have hs := List.find?_some hf
    have hm := List.mem_of_find?_eq_some hf
    refine iff_of_false ?_ fun ha => ?_
    · rintro heq
      simp only [Option.getD_some] at heq
      rw [heq] at hs
      cases hs
    · rw [ha answer hm] at hs
      cases hs

/-- The call is allowed only when every interceptor lets it pass, and is not
allowed when one that is asked fails. -/
def FailsClosed (s : σ) (ctx : ToolCallContext V) (pipeline : List (ToolInterceptor σ ε V)) : Prop :=
  ((interceptToolCall s ctx pipeline).2 = .ok .allow →
    (answers s ctx pipeline).length = pipeline.length ∧ ∀ answer ∈ answers s ctx pipeline, passes answer) ∧
  ((∃ answer ∈ answers s ctx pipeline, fails answer) → (interceptToolCall s ctx pipeline).2 ≠ .ok .allow)

theorem length_answers_of_not_stops (h : ∀ answer ∈ answers s ctx pipeline, stops answer = false) :
    (answers s ctx pipeline).length = pipeline.length := by
  induction pipeline generalizing s with
  | nil => rfl
  | cons i rest ih =>
    rw [answers] at h ⊢
    by_cases hs : stops (i s ctx).2
    · simp [hs] at h
    · simp only [hs] at h ⊢
      have hr := ih (i s ctx).1 fun answer ha => h answer (List.mem_cons_of_mem _ ha)
      simp [hr]

theorem passes_of_not (answer : Except ε (InterceptorDecision V)) (hs : stops answer = false)
    (hf : fails answer = false) : passes answer := by
  match answer with
  | .error _ => cases hf
  | .ok .allow | .ok (.substitute _) => rfl
  | .ok (.block _) | .ok (.requireAuthorization _) => cases hs

/-- The pipeline fails closed exactly when no interceptor that is asked fails, or
one of them stops the call anyway. -/
theorem failsClosed_iff (s : σ) (ctx : ToolCallContext V) (pipeline : List (ToolInterceptor σ ε V)) :
    FailsClosed s ctx pipeline ↔ (∀ answer ∈ answers s ctx pipeline, fails answer = false) ∨
        ∃ answer ∈ answers s ctx pipeline, stops answer := by
  simp only [FailsClosed, ne_eq, interceptToolCall_allow_iff]
  constructor
  · rintro ⟨-, hc⟩
    by_cases hf : ∃ answer ∈ answers s ctx pipeline, fails answer
    · right
      simpa using hc hf
    · left
      simpa using hf
  · rintro (hn | ⟨answer, h, hs⟩)
    · refine ⟨fun ha => ⟨length_answers_of_not_stops s ctx pipeline ha, fun answer h => ?_⟩, ?_⟩
      · exact passes_of_not answer (ha answer h) (hn answer h)
      · rintro ⟨answer, h, hf⟩
        rw [hn answer h] at hf
        cases hf
    · have hst : ¬ ∀ answer ∈ answers s ctx pipeline, stops answer = false := by
        intro ha
        rw [ha answer h] at hs
        cases hs
      exact ⟨fun ha => absurd ha hst, fun _ => hst⟩

def unavailable : ToolInterceptor Unit String String := fun s _ => (s, .error "store unavailable")

/-- A deletion that no interceptor has looked at is allowed. -/
theorem failed_interceptor_allows : (interceptToolCall ()
        ⟨"delete", "1", .taskScope "context" "agent" "message" "task", ⟨some "delete", none, none⟩, none, none⟩
        [unavailable]).2 = .ok .allow ∧
      answers ()
        ⟨"delete", "1", .taskScope "context" "agent" "message" "task", ⟨some "delete", none, none⟩, none, none⟩
        [unavailable] = [.error "store unavailable"] :=
  ⟨rfl, rfl⟩

end AgentiumOs.Interceptor
