import Mathlib

/-! One-shot approvals. A slot holds the request that was last asked about and
whether it has been approved; a use needs an approved slot and empties it. Along
every sequence of moves a request is used at most as often as it was approved. -/

namespace AgentiumOs.Lib.Approval

variable {C : Type*}

inductive Entry (C : Type*) where
  | asked (c : C)
  | granted
  | used (c : C)
  deriving DecidableEq

abbrev Slot (C : Type*) := Option (C × Bool)

inductive Move : Slot C → List (Entry C) → Slot C → Prop
  | quiet (slot : Slot C) : Move slot [] slot
  | ask (slot : Slot C) (c : C) : Move slot [.asked c] (some (c, false))
  | grant (c : C) (granted : Bool) : Move (some (c, granted)) [.granted] (some (c, true))
  | drop (slot : Slot C) : Move slot [] none
  | use (c : C) : Move (some (c, true)) [.used c] none

/-- Moves one after the other, with what was seen. -/
inductive Moves : Slot C → List (Entry C) → Slot C → Prop
  | done (slot : Slot C) : Moves slot [] slot
  | step {slot slot' slot'' : Slot C} {seen rest : List (Entry C)} :
      Move slot seen slot' → Moves slot' rest slot'' → Moves slot (seen ++ rest) slot''

variable [DecidableEq C]

def uses (c : C) (log : List (Entry C)) : ℕ := log.count (.used c)

/-- Approvals given while `c` was the request last asked about; `last` is the one
before the log begins. -/
def approvals (c : C) : Option C → List (Entry C) → ℕ
  | _, [] => 0
  | _, .asked d :: log => approvals c (some d) log
  | last, .granted :: log => (if last = some c then 1 else 0) + approvals c last log
  | last, .used _ :: log => approvals c last log

def credit (c : C) (slot : Slot C) : ℕ := if slot = some (c, true) then 1 else 0

variable {log : List (Entry C)}

theorem uses_le_approvals_add_credit {slot slot' : Slot C} (h : Moves slot log slot') (c : C) (last : Option C)
    (hl : ∀ d granted, slot = some (d, granted) → last = some d) :
    uses c log ≤ approvals c last log + credit c slot := by
  induction h generalizing last with
  | done slot => simp [uses]
  | step hm _ ih =>
    cases hm with
    | quiet slot => exact ih last hl
    | ask slot d =>
      have hr := ih (some d) (by rintro e granted ⟨⟩; rfl)
      simp only [uses, credit, List.singleton_append, approvals] at hr ⊢
      rw [List.count_cons_of_ne (by simp)]
      simp only [Option.some.injEq, Prod.mk.injEq, Bool.false_eq_true, and_false, if_false] at hr
      omega
    | grant d granted =>
      have hr := ih last (by rintro e granted ⟨⟩; exact hl d _ rfl)
      have ha := hl d granted rfl
      subst ha
      simp only [uses, credit, List.singleton_append, approvals] at hr ⊢
      rw [List.count_cons_of_ne (by simp)]
      simp only [Option.some.injEq, Prod.mk.injEq, and_true] at hr ⊢
      omega
    | drop slot =>
      have hr := ih last (by rintro e granted ⟨⟩)
      simp only [credit, List.nil_append] at hr ⊢
      simp only [reduceCtorEq, if_false] at hr
      omega
    | use d =>
      have hr := ih last (by rintro e granted ⟨⟩)
      simp only [uses, credit, List.singleton_append, approvals, List.count_cons] at hr ⊢
      simp only [reduceCtorEq, if_false] at hr
      by_cases hd : d = c
      · subst hd
        simp only [beq_self_eq_true]
        omega
      · simp only [beq_iff_eq, Entry.used.injEq, hd, if_false]
        omega

theorem uses_le_approvals {slot : Slot C} (h : Moves none log slot) (c : C) : uses c log ≤ approvals c none log := by
  have hle := uses_le_approvals_add_credit h c none (by rintro d granted ⟨⟩)
  simpa [credit] using hle

end AgentiumOs.Lib.Approval
