import Mathlib

/-! Runs of a machine that answers every input with a new state and an output.
The rules are the ones a verification of such a machine needs: an invariant is
carried by every run, an invariant that only holds under a condition on the
steps is carried by the runs whose steps all meet it, and two states that no
step can tell apart give the same answers for ever. -/

namespace AgentiumOs.Lib.Run

variable {σ τ α β ο : Type*}

def exec (step : σ → α → σ × ο) (s : σ) : List α → σ
  | [] => s
  | a :: as => exec step (step s a).1 as

/-- Outputs of a run, in the order of its inputs. -/
def outputs (step : σ → α → σ × ο) (s : σ) : List α → List ο
  | [] => []
  | a :: as => (step s a).2 :: outputs step (step s a).1 as

/-- Every step of the run meets `ok` in the state it is taken from. -/
def Along (step : σ → α → σ × ο) (ok : σ → α → Prop) (s : σ) : List α → Prop
  | [] => True
  | a :: as => ok s a ∧ Along step ok (step s a).1 as

instance Along.decidable (step : σ → α → σ × ο) (ok : σ → α → Prop) [∀ s a, Decidable (ok s a)] :
    (s : σ) → (as : List α) → Decidable (Along step ok s as)
  | _, [] => .isTrue trivial
  | s, a :: as =>
      have := Along.decidable step ok (step s a).1 as
      inferInstanceAs (Decidable (ok s a ∧ Along step ok (step s a).1 as))

/-- What the steps of a run contribute, in order. -/
def collect (step : σ → α → σ × ο) (f : σ → α → List β) (s : σ) : List α → List β
  | [] => []
  | a :: as => f s a ++ collect step f (step s a).1 as

/-- Some step of the run met `p` in the state it was taken from. -/
def Occurs (step : σ → α → σ × ο) (s : σ) (as : List α) (p : σ → α → Prop) : Prop :=
  ∃ pre a post, as = pre ++ a :: post ∧ p (exec step s pre) a

variable (step : σ → α → σ × ο)

@[simp] theorem exec_nil (s : σ) : exec step s [] = s := rfl

@[simp] theorem exec_cons (s : σ) (a : α) (as : List α) : exec step s (a :: as) = exec step (step s a).1 as := rfl

theorem exec_append (s : σ) (as bs : List α) : exec step s (as ++ bs) = exec step (exec step s as) bs := by
  induction as generalizing s with
  | nil => rfl
  | cons a as ih => exact ih (step s a).1

theorem exec_concat (s : σ) (as : List α) (a : α) : exec step s (as ++ [a]) = (step (exec step s as) a).1 := by
  rw [exec_append]
  rfl

theorem outputs_concat (s : σ) (as : List α) (a : α) :
    outputs step s (as ++ [a]) = outputs step s as ++ [(step (exec step s as) a).2] := by
  induction as generalizing s with
  | nil => rfl
  | cons b as ih => exact congrArg ((step s b).2 :: ·) (ih (step s b).1)

theorem collect_concat (f : σ → α → List β) (s : σ) (as : List α) (a : α) :
    collect step f s (as ++ [a]) = collect step f s as ++ f (exec step s as) a := by
  induction as generalizing s with
  | nil => simp [collect]
  | cons b as ih => simp [collect, ih]

variable {as : List α} {ok' p : σ → α → Prop} {st : τ → α → τ × ο} {s : σ} {P : σ → Prop}

theorem occurs_last {a : α} (h : p (exec step s as) a) : Occurs step s (as ++ [a]) p :=
  ⟨as, a, [], rfl, h⟩

variable {step} in
theorem Occurs.concat (h : Occurs step s as p) (a : α) : Occurs step s (as ++ [a]) p := by
  obtain ⟨pre, b, post, rfl, hp⟩ := h
  exact ⟨pre, b, post ++ [a], by simp, hp⟩

/-- What holds in the end and did not at the start came about at some step. -/
theorem occurs_of_exec (hs : ¬ P s) (h : P (exec step s as)) :
    Occurs step s as fun t a => ¬ P t ∧ P (step t a).1 := by
  induction as generalizing s with
  | nil => exact absurd h hs
  | cons a as ih =>
    by_cases hf : P (step s a).1
    · exact ⟨[], a, as, rfl, hs, hf⟩
    · obtain ⟨pre, b, post, rfl, hb⟩ := ih hf h
      exact ⟨a :: pre, b, post, rfl, hb⟩

/-- What steps set, keep or clear holds in the end when one set it and none after it cleared it. -/
theorem exec_iff_occurs {cl : α → Prop} (hs : ¬ P s) (h : ∀ t a, P (step t a).1 ↔ p t a ∨ P t ∧ ¬ cl a) :
    P (exec step s as) ↔ ∃ pre a post, as = pre ++ a :: post ∧ p (exec step s pre) a ∧ ∀ b ∈ post, ¬ cl b := by
  constructor
  · intro hp
    induction as using List.reverseRecOn with
    | nil => exact absurd hp hs
    | append_singleton as b ih =>
      rw [exec_concat] at hp
      rcases (h _ _).1 hp with hb | ⟨hp, hb⟩
      · exact ⟨as, b, [], rfl, hb, by simp⟩
      · obtain ⟨pre, a, post, rfl, ha, hpo⟩ := ih hp
        exact ⟨pre, a, post ++ [b], by simp, ha, by simpa [or_imp, forall_and] using ⟨hpo, hb⟩⟩
  · rintro ⟨pre, a, post, rfl, ha, hpo⟩
    rw [exec_append, exec_cons]
    have hp := (h _ _).2 (.inl ha)
    generalize (step (exec step s pre) a).1 = t at hp
    induction post generalizing t with
    | nil => exact hp
    | cons b post ih =>
      exact ih (fun c hc => hpo c (.tail _ hc)) _ ((h t b).2 (.inr ⟨hp, hpo b (.head _)⟩))

theorem exec_invariant (inv : σ → Prop) (hst : ∀ s a, inv s → inv (step s a).1)
    (s : σ) (hs : inv s) (as : List α) : inv (exec step s as) := by
  induction as generalizing s with
  | nil => exact hs
  | cons a as ih => exact ih _ (hst s a hs)

/-- What a step preserves under a condition, a run of such steps preserves. -/
theorem along_invariant (ok : σ → α → Prop) (inv : σ → Prop) (hst : ∀ s a, ok s a → inv s → inv (step s a).1)
    (s : σ) (hs : inv s) (as : List α) (hok : Along step ok s as) : inv (exec step s as) := by
  induction as generalizing s with
  | nil => exact hs
  | cons a as ih =>
    obtain ⟨ha, hr⟩ := hok
    exact ih _ (hst s a ha hs) hr

variable {ok : σ → α → Prop}

/-- Two conditions that agree at every step agree along every run. -/
theorem along_congr (h : ∀ s a, ok s a ↔ ok' s a) (s : σ) (as : List α) :
    Along step ok s as ↔ Along step ok' s as := by
  induction as generalizing s with
  | nil => exact Iff.rfl
  | cons a as ih => exact and_congr (h s a) (ih _)

/-- Two conditions on the steps that agree wherever an invariant holds, if steps that meet the first keep
it. -/
theorem along_congr_of_invariant (inv : σ → Prop) (h : ∀ s a, inv s → (ok s a ↔ ok' s a))
    (hk : ∀ s a, inv s → ok s a → inv (step s a).1) (s : σ) (hs : inv s) (as : List α) :
    Along step ok s as ↔ Along step ok' s as := by
  induction as generalizing s with
  | nil => exact Iff.rfl
  | cons a as ih =>
    constructor
    · rintro ⟨ha, has⟩
      exact ⟨(h s a hs).mp ha, (ih _ (hk s a hs ha)).mp has⟩
    · rintro ⟨ha, has⟩
      have hok := (h s a hs).mpr ha
      exact ⟨hok, (ih _ (hk s a hs hok)).mpr has⟩

theorem exec_map (f : σ → τ) (h : ∀ s a, (st (f s) a).1 = f (step s a).1) (s : σ) (as : List α) :
    exec st (f s) as = f (exec step s as) := by
  induction as generalizing s with
  | nil => rfl
  | cons a as ih => rw [exec_cons, exec_cons, h, ih]

theorem along_map (f : σ → τ) (h : ∀ s a, (st (f s) a).1 = f (step s a).1) {okT : τ → α → Prop}
    (hok : ∀ s a, okT (f s) a ↔ ok s a) (s : σ) (as : List α) : Along st okT (f s) as ↔ Along step ok s as := by
  induction as generalizing s with
  | nil => exact Iff.rfl
  | cons a as ih => rw [Along, Along, hok, h, ih]

/-- What is lost at a step that fails a condition, and only there, is left after a run whose
steps all meet it. -/
theorem exec_iff_along_of_invariant (inv good : σ → Prop)
    (h : ∀ s a, inv s → inv (step s a).1 ∧ (good (step s a).1 ↔ good s ∧ ok s a)) (hs : inv s) (as : List α) :
    good (exec step s as) ↔ good s ∧ Along step ok s as := by
  induction as generalizing s with
  | nil => simp [Along]
  | cons a as ih => rw [exec_cons, ih (h s a hs).1, (h s a hs).2, Along, and_assoc]

theorem exec_iff_along (good : σ → Prop) (h : ∀ s a, good (step s a).1 ↔ good s ∧ ok s a) (s : σ) (as : List α) :
    good (exec step s as) ↔ good s ∧ Along step ok s as :=
  exec_iff_along_of_invariant step (fun _ => True) good (fun s a _ => ⟨trivial, h s a⟩) trivial as

theorem along_append (ok : σ → α → Prop) (s : σ) (as bs : List α) :
    Along step ok s (as ++ bs) ↔ Along step ok s as ∧ Along step ok (exec step s as) bs := by
  induction as generalizing s with
  | nil => simp [Along]
  | cons a as ih => simp [Along, ih, and_assoc]

theorem along_iff_forall_split :
    Along step ok s as ↔ ∀ pre a post, as = pre ++ a :: post → ok (exec step s pre) a := by
  constructor
  · rintro h pre a post rfl
    exact ((along_append ..).mp h).2.1
  · intro h
    induction as generalizing s with
    | nil => trivial
    | cons a as ih => exact ⟨h [] a as rfl, ih fun pre b post heq => h (a :: pre) b post (by rw [heq]; rfl)⟩

/-- What holds in every state of a run holds at each of its steps. -/
theorem along_of_forall_isPrefix (h : ∀ pre, pre <+: as → P (exec step s pre)) :
    Along step (fun t _ => P t) s as := by
  induction as generalizing s with
  | nil => trivial
  | cons a as ih =>
    exact ⟨h [] List.nil_prefix, ih fun pre hp => h (a :: pre) (List.cons_prefix_cons.mpr ⟨rfl, hp⟩)⟩

/-- Where a step keeps a property exactly under a condition, the property holds in every
state of a run exactly when every step of it meets the condition. -/
theorem forall_isPrefix_iff_along (ok : σ → α → Prop) (inv good : σ → Prop) (hi : ∀ s a, inv s → inv (step s a).1)
    (hgo : ∀ s a, inv s → good s → (good (step s a).1 ↔ ok s a))
    (s : σ) (hs : inv s) (hg : good s) (as : List α) :
    (∀ pre, pre <+: as → good (exec step s pre)) ↔ Along step ok s as := by
  induction as generalizing s with
  | nil => simpa [Along] using hg
  | cons a as ih =>
    constructor
    · intro hal
      have hn : good (step s a).1 := hal [a] (List.prefix_append [a] as)
      refine ⟨(hgo s a hs hg).mp hn, (ih _ (hi s a hs) hn).mp fun pre hp => ?_⟩
      exact hal (a :: pre) (List.cons_prefix_cons.mpr ⟨rfl, hp⟩)
    · rintro ⟨ha, hr⟩ pre hp
      have hn : good (step s a).1 := (hgo s a hs hg).mpr ha
      rcases List.prefix_cons_iff.mp hp with rfl | ⟨pre, rfl, hre⟩
      · exact hg
      · exact (ih _ (hi s a hs) hn).mpr hr pre hre

/-- What every step answers under the invariant, a run of such steps answers. -/
theorem along_outputs (ok : σ → α → Prop) (inv : σ → Prop) (Q : ο → Prop)
    (hst : ∀ s a, ok s a → inv s → inv (step s a).1 ∧ Q (step s a).2)
    (s : σ) (hs : inv s) (as : List α) (hok : Along step ok s as) : ∀ o ∈ outputs step s as, Q o := by
  induction as generalizing s with
  | nil => simp [outputs]
  | cons a as ih =>
    obtain ⟨ha, hr⟩ := hok
    obtain ⟨hn, han⟩ := hst s a ha hs
    intro o ho
    rcases List.mem_cons.mp ho with rfl | ho
    · exact han
    · exact ih _ hn hr o ho

/-- States related by a relation that every step keeps, and under which every
step gives the same output, cannot be told apart by any run of such steps. -/
theorem outputs_eq_of_bisim (st : τ → α → τ × ο) (ok : α → Prop) (rel : σ → τ → Prop)
    (hr : ∀ s t a, ok a → rel s t → rel (step s a).1 (st t a).1 ∧ (step s a).2 = (st t a).2)
    (s : σ) (t : τ) (h : rel s t) (as : List α) (hok : ∀ a ∈ as, ok a) :
    outputs step s as = outputs st t as := by
  induction as generalizing s t with
  | nil => rfl
  | cons a as ih =>
    rw [List.forall_mem_cons] at hok
    obtain ⟨hn, ho⟩ := hr s t a hok.1 h
    simp [outputs, ho, ih _ _ hn hok.2]

end AgentiumOs.Lib.Run
