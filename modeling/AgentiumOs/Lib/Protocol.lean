import AgentiumOs.Lib.Interleave
import AgentiumOs.Lib.Program

/-! Programs that follow a protocol, taken one operation at a time between the operations of
others. A protocol has stages: a stage says which operations come next, and an operation with
its answer leads to another stage. To show something of every interleaving, it is enough to
show it of the operations that the stages allow. -/

namespace AgentiumOs.Lib

variable {ι : Type} {κ : ι → Type} {ς α β ε : Type}

/-- The operations of a stage, and where an operation and its answer lead. -/
structure Protocol (ι : Type) (κ : ι → Type) (ς : Type) where
  allows : ς → ι → Prop
  after : ς → (op : ι) → κ op → ς

namespace Protocol

variable (P : Protocol ι κ ς)

/-- From a stage, the program performs what the stages allow, and its result suits the last. -/
def Follows (ends : ς → α → Prop) : Program ι κ α → ς → Prop
  | .done a, k => ends k a
  | .ask op next, k => P.allows k op ∧ ∀ answer, Follows ends (next answer) (P.after k op answer)

variable {P} {ends ends' : ς → α → Prop} {k : ς}

variable {x : Program ι κ α}

theorem Follows.imp (h : P.Follows ends x k) (hi : ∀ k a, ends k a → ends' k a) : P.Follows ends' x k := by
  induction x generalizing k with
  | done a => exact hi k a h
  | ask op next ih => exact ⟨h.1, fun answer => ih answer (h.2 answer)⟩

theorem Follows.bind {mid : ς → β → Prop} {x : Program ι κ β} {f : β → Program ι κ α} (hx : P.Follows mid x k)
    (hf : ∀ k b, mid k b → P.Follows ends (f b) k) : P.Follows ends (x.bind f) k := by
  induction x generalizing k with
  | done b => exact hf k b hx
  | ask op next ih => exact ⟨hx.1, fun answer => ih answer (hx.2 answer)⟩

theorem follows_of_all {N : ι → Prop} (hN : ∀ op, N op → P.allows k op ∧ ∀ answer, P.after k op answer = k)
    (hx : x.All N) : P.Follows (fun k' _ => k' = k) x k := by
  induction x with
  | done a => rfl
  | ask op next ih =>
    refine ⟨(hN op hx.1).1, fun answer => ?_⟩
    rw [(hN op hx.1).2 answer]
    exact ih answer (hx.2 answer)

/-! ### Programs that stop at an error -/

section Except

variable {m : ExceptT ε (Program ι κ) β} {f : β → ExceptT ε (Program ι κ) α} {mid : ς → Except ε β → Prop}
  {last : ς → Except ε α → Prop}

theorem follows_bind (hm : P.Follows mid m.run k) (he : ∀ k e, mid k (.error e) → last k (.error e))
    (hf : ∀ k b, mid k (.ok b) → P.Follows last (f b).run k) : P.Follows last (m >>= f).run k := by
  refine Follows.bind (f := ExceptT.bindCont f) hm fun k r hr => ?_
  cases r with
  | error e => exact he k e hr
  | ok b => exact hf k b hr

/-- What is done about an error starts from the stage in which it was met. -/
theorem follows_tryCatch {m : ExceptT ε (Program ι κ) α} {handle : ε → ExceptT ε (Program ι κ) α}
    {mid : ς → Except ε α → Prop} (hm : P.Follows mid m.run k) (hok : ∀ k a, mid k (.ok a) → last k (.ok a))
    (hh : ∀ k e, mid k (.error e) → P.Follows last (handle e).run k) :
    P.Follows last (tryCatch m handle : ExceptT ε (Program ι κ) α).run k := by
  refine Follows.bind hm fun k r hr => ?_
  cases r with
  | error e => exact hh k e hr
  | ok a => exact hok k a hr

theorem follows_request_bind {op : ι} {f : κ op → ExceptT ε (Program ι κ) α} (hop : P.allows k op)
    (hf : ∀ answer, P.Follows last (f answer).run (P.after k op answer)) :
    P.Follows last (Program.request op >>= f).run k := ⟨hop, hf⟩

end Except

end Protocol

namespace Program

variable {σ φ τ : Type} (serve : φ → (op : ι) → σ → κ op × σ)

/-- The next operation of a program, under the circumstances `c`. -/
def advance (c : φ) (s : σ) : Program ι κ α → σ × Program ι κ α
  | .done a => (s, .done a)
  | .ask op next => ((serve c op s).2, next (serve c op s).1)

variable [DecidableEq τ]

def poolStep (p : Interleave.Pool σ (Program ι κ α) τ) (move : τ × φ) : Interleave.Pool σ (Program ι κ α) τ × Unit :=
  Interleave.turn (advance serve move.2) p move.1

variable {serve} {P : τ → Protocol ι κ ς} {ends : τ → ς → α → Prop} {inv : σ → (τ → ς) → Prop}

/-- Every program is at a stage it follows the protocol from, and the stages agree with the state. -/
def InStages (P : τ → Protocol ι κ ς) (ends : τ → ς → α → Prop) (inv : σ → (τ → ς) → Prop)
    (p : Interleave.Pool σ (Program ι κ α) τ) (stages : τ → ς) : Prop :=
  inv p.shared stages ∧ ∀ i, (P i).Follows (ends i) (p.thread i) (stages i)

variable {p : Interleave.Pool σ (Program ι κ α) τ} {stages : τ → ς}

theorem InStages.poolStep (hin : ∀ s stages i c op, inv s stages → (P i).allows (stages i) op →
      inv (serve c op s).2 (Function.update stages i ((P i).after (stages i) op (serve c op s).1)))
    (h : InStages P ends inv p stages) (move : τ × φ) :
    ∃ stages', InStages P ends inv (Program.poolStep serve p move).1 stages' := by
  obtain ⟨i, c⟩ := move
  obtain ⟨hp, hf⟩ := h
  cases ht : p.thread i with
  | done a =>
    have hs : (Program.poolStep serve p (i, c)).1 = p :=
      Interleave.turn_eq_self _ (by rw [ht]; rfl)
    rw [hs]
    exact ⟨stages, hp, hf⟩
  | ask op next =>
    have hi := hf i
    rw [ht] at hi
    refine ⟨Function.update stages i ((P i).after (stages i) op (serve c op p.shared).1), ?_, fun j => ?_⟩
    · have hsh : (Program.poolStep serve p (i, c)).1.shared = (serve c op p.shared).2 := by
        rw [Program.poolStep, Interleave.turn_shared, ht]
        rfl
      rw [hsh]
      exact hin _ _ _ _ _ hp hi.1
    · by_cases hj : j = i
      · subst hj
        rw [Program.poolStep, Interleave.turn_thread_self, Function.update_self, ht]
        exact hi.2 _
      · rw [Program.poolStep, Interleave.turn_thread_of_ne _ p hj, Function.update_of_ne hj]
        exact hf j

/-- What an operation does to the state, in a pool whose programs are in their stages. -/
theorem InStages.shared_poolStep {R : τ → σ → σ → Prop} (hr : ∀ i s, R i s s)
    (hop : ∀ s stages i c op, inv s stages → (P i).allows (stages i) op → R i s (serve c op s).2)
    (h : InStages P ends inv p stages) (i : τ) (c : φ) :
    R i p.shared (Program.poolStep serve p (i, c)).1.shared := by
  have hi := h.2 i
  rw [Program.poolStep, Interleave.turn_shared]
  cases ht : p.thread i with
  | done a => exact hr i p.shared
  | ask op next =>
    rw [ht] at hi
    exact hop p.shared stages i c op h.1 hi.1

theorem InStages.exec (hi : ∀ s stages i c op, inv s stages → (P i).allows (stages i) op →
      inv (serve c op s).2 (Function.update stages i ((P i).after (stages i) op (serve c op s).1)))
    (h : InStages P ends inv p stages) (mo : List (τ × φ)) :
    ∃ stages', InStages P ends inv (Run.exec (Program.poolStep serve) p mo) stages' :=
  Run.exec_invariant _ (fun p => ∃ stages, InStages P ends inv p stages)
    (fun _ move ⟨_, hs⟩ => hs.poolStep hi move) p ⟨stages, h⟩ mo

end Program

end AgentiumOs.Lib
