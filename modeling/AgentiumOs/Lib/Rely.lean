import AgentiumOs.Lib.Protocol

/-! Programs that run between the operations of others and rely on what these do. Each keeps to
the operations it may perform as long as the answers it gets are ones that can come; if every
operation that may be performed leaves the state such that only those answers come, all keep to
it in every interleaving. -/

namespace AgentiumOs.Lib.Program

variable {ι : Type} {κ : ι → Type} {α β ε : Type}

/-- With answers that can come, the program performs what it may, and ends as it should. -/
def Relies (may : ι → Prop) (can : (op : ι) → κ op → Prop) (ends : α → Prop) : Program ι κ α → Prop
  | .done a => ends a
  | .ask op next => may op ∧ ∀ answer, can op answer → Relies may can ends (next answer)

variable {may : ι → Prop} {can : (op : ι) → κ op → Prop}

theorem Relies.bind {mid : β → Prop} {ends : α → Prop} {x : Program ι κ β} {f : β → Program ι κ α}
    (hx : x.Relies may can mid) (hf : ∀ b, mid b → (f b).Relies may can ends) : (x.bind f).Relies may can ends := by
  induction x with
  | done b => exact hf b hx
  | ask op next ih => exact ⟨hx.1, fun answer ha => ih answer (hx.2 answer ha)⟩

variable {x : Program ι κ α}

theorem Relies.imp {ends ends' : α → Prop} (hx : x.Relies may can ends) (h : ∀ a, ends a → ends' a) :
    x.Relies may can ends' := by
  induction x with
  | done a => exact h a hx
  | ask op next ih => exact ⟨hx.1, fun answer ha => ih answer (hx.2 answer ha)⟩

theorem All.relies (hx : x.All may) : x.Relies may can fun _ => True := by
  induction x with
  | done a => trivial
  | ask op next ih => exact ⟨hx.1, fun answer _ => ih answer (hx.2 answer)⟩

/-! ### Programs that stop at an error -/

section Except

variable {mid : Except ε β → Prop} {ends : Except ε α → Prop}

theorem relies_bind {m : ExceptT ε (Program ι κ) β} {f : β → ExceptT ε (Program ι κ) α} (hm : m.run.Relies may can mid)
    (he : ∀ e, mid (.error e) → ends (.error e)) (hf : ∀ b, mid (.ok b) → (f b).run.Relies may can ends) :
    (m >>= f).run.Relies may can ends := by
  refine Relies.bind (f := ExceptT.bindCont f) hm fun r hr => ?_
  cases r with
  | error e => exact he e hr
  | ok b => exact hf b hr

theorem relies_request_bind {op : ι} {f : κ op → ExceptT ε (Program ι κ) α} (hop : may op)
    (hf : ∀ answer, can op answer → (f answer).run.Relies may can ends) : (request op >>= f).run.Relies may can ends :=
  ⟨hop, hf⟩

end Except

section Pool

variable {σ φ τ : Type} [DecidableEq τ] {se : φ → (op : ι) → σ → κ op × σ} {ends : τ → α → Prop}

/-- The state is as it should be, and every program relies on it. -/
structure Settled (may : ι → Prop) (can : (op : ι) → κ op → Prop) (ends : τ → α → Prop) (inv : σ → Prop)
    (p : Interleave.Pool σ (Program ι κ α) τ) : Prop where
  shared : inv p.shared
  thread : ∀ i, (p.thread i).Relies may can (ends i)

variable {inv ok : σ → Prop} {p : Interleave.Pool σ (Program ι κ α) τ}

/-- One operation, in a state in which only the answers come that can. -/
theorem Settled.poolStep (hs : ∀ c op s, ok s → inv s → may op → can op (se c op s).1 ∧ inv (se c op s).2)
    (h : Settled may can ends inv p) (hok : ok p.shared) (move : τ × φ) :
    Settled may can ends inv (Program.poolStep se p move).1 := by
  obtain ⟨i, c⟩ := move
  have hi := h.thread i
  cases ht : p.thread i with
  | done a =>
    have hsa : (Program.poolStep se p (i, c)).1 = p := Interleave.turn_eq_self _ (by rw [ht]; rfl)
    rwa [hsa]
  | ask op next =>
    rw [ht] at hi
    obtain ⟨hc, hin⟩ := hs c op p.shared hok h.shared hi.1
    refine ⟨?_, fun j => ?_⟩
    · rw [Program.poolStep, Interleave.turn_shared, ht]
      exact hin
    · by_cases hj : j = i
      · subst hj
        rw [Program.poolStep, Interleave.turn_thread_self, ht]
        exact hi.2 _ hc
      · rw [Program.poolStep, Interleave.turn_thread_of_ne _ p hj]
        exact h.thread j

/-- In an interleaving whose states are all such, the programs keep to what they may perform. -/
theorem Settled.exec (hs : ∀ c op s, ok s → inv s → may op → can op (se c op s).1 ∧ inv (se c op s).2)
    (h : Settled may can ends inv p) (m : List (τ × φ))
    (hok : Run.Along (Program.poolStep se) (fun p _ => ok p.shared) p m) :
    Settled may can ends inv (Run.exec (Program.poolStep se) p m) :=
  Run.along_invariant _ _ (Settled may can ends inv) (fun _ move hok h => h.poolStep hs hok move) p h m hok

/-- What a program may perform, it may at every point of an interleaving. -/
theorem all_exec {P : τ → ι → Prop} (h : ∀ i, (p.thread i).All (P i))
    (m : List (τ × φ)) (i : τ) : ((Run.exec (Program.poolStep se) p m).thread i).All (P i) := by
  refine Run.exec_invariant _ (fun p => ∀ i, (p.thread i).All (P i)) ?_ p h m i
  rintro p ⟨i, c⟩ h j
  by_cases hj : j = i
  · subst hj
    rw [Program.poolStep, Interleave.turn_thread_self]
    have hs := h j
    cases ht : p.thread j with
    | done a => trivial
    | ask op next =>
      rw [ht] at hs
      exact hs.2 _
  · rw [Program.poolStep, Interleave.turn_thread_of_ne _ p hj]
    exact h j

end Pool

end AgentiumOs.Lib.Program
