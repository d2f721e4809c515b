import Mathlib

/-! Programs that perform operations and go on with their answers. A program is a tree; a
handler answers the operations from a state. What a run performed is read off the same
tree, so a model needs no log of its own. -/

namespace AgentiumOs.Lib

/-- A program of operations `ι`, each with its type of answers. -/
inductive Program (ι : Type) (κ : ι → Type) (α : Type) : Type
  | done (a : α)
  | ask (op : ι) (next : κ op → Program ι κ α)

namespace Program

variable {ι : Type} {κ : ι → Type} {σ α β ε : Type}

def bind : Program ι κ α → (α → Program ι κ β) → Program ι κ β
  | done a, f => f a
  | ask op next, f => ask op fun answer => (next answer).bind f

instance : Monad (Program ι κ) where
  pure := done
  bind := bind

def next? : Program ι κ α → Option ι
  | done _ => none
  | ask op _ => some op

def result? : Program ι κ α → Option α
  | done a => some a
  | ask _ _ => none

variable {x : Program ι κ α}

theorem eq_done_of_result? {a : α} (h : x.result? = some a) : x = done a := by
  cases x <;> cases h
  rfl

/-- Every operation the program may perform meets `P`. -/
def All (P : ι → Prop) : Program ι κ α → Prop
  | done _ => True
  | ask op next => P op ∧ ∀ answer, (next answer).All P

theorem All.bind {P : ι → Prop} {f : α → Program ι κ β} (hx : x.All P)
    (hf : ∀ a, (f a).All P) : (x.bind f).All P := by
  induction x with
  | done a => exact hf a
  | ask op next ih => exact ⟨hx.1, fun answer => ih answer (hx.2 answer)⟩

theorem All.imp {P Q : ι → Prop} (h : ∀ op, P op → Q op) (hx : x.All P) : x.All Q := by
  induction x with
  | done a => trivial
  | ask op next ih => exact ⟨h op hx.1, fun answer => ih answer (hx.2 answer)⟩

variable (serve : (op : ι) → σ → κ op × σ)

/-- The result of a program, and what it leaves of the state. -/
def run : Program ι κ α → σ → α × σ
  | done a, s => (a, s)
  | ask op next, s => run (next (serve op s).1) (serve op s).2

theorem run_bind (x : Program ι κ α) (f : α → Program ι κ β) (s : σ) :
    run serve (x.bind f) s = run serve (f (run serve x s).1) (run serve x s).2 := by
  induction x generalizing s with
  | done a => rfl
  | ask op next ih => exact ih _ _

theorem run_invariant {P : ι → Prop} {inv : σ → Prop} (hse : ∀ op s, P op → inv s → inv (serve op s).2)
    (hx : x.All P) {s : σ} (hs : inv s) : inv (run serve x s).2 := by
  induction x generalizing s with
  | done a => exact hs
  | ask op next ih => exact ih _ (hx.2 _) (hse op s hx.1 hs)

/-- The answer of an operation is a failure; what the operation does may have been done. -/
structure Fault (φ : Type) where
  failure : φ
  applied : Bool

/-- Operations that can be refused are, in the event of a fault. -/
def faulty {φ : Type} (refusal : φ → (op : ι) → Option (κ op)) (fault : Option (Fault φ)) (op : ι) (s : σ) : κ op × σ :=
  match fault with
  | none => serve op s
  | some fault =>
      match refusal fault.failure op with
      | none => serve op s
      | some answer => (answer, if fault.applied then (serve op s).2 else s)

theorem faulty_cases {φ : Type} (r : φ → (op : ι) → Option (κ op)) (fa : Option (Fault φ)) (op : ι) (s : σ) :
    faulty serve r fa op s = serve op s ∨ ∃ fai answer, r fai op = some answer ∧
      (faulty serve r fa op s = (answer, s) ∨ faulty serve r fa op s = (answer, (serve op s).2)) := by
  cases fa with
  | none => exact .inl rfl
  | some fa =>
    rw [faulty]
    cases ha : r fa.failure op with
    | none => exact .inl rfl
    | some answer =>
      refine .inr ⟨_, answer, ha, ?_⟩
      dsimp only
      split
      · exact .inr rfl
      · exact .inl rfl

/-! ### Programs that stop at an error -/

def request (op : ι) : ExceptT ε (Program ι κ) (κ op) := ExceptT.mk (.ask op fun answer => .done (.ok answer))

def perform (m : ExceptT ε (Program ι κ) α) (s : σ) : Except ε α × σ := run serve m.run s

@[simp] theorem perform_pure (a : α) (s : σ) :
    perform serve (pure a : ExceptT ε (Program ι κ) α) s = (.ok a, s) := rfl

@[simp] theorem perform_throw (e : ε) (s : σ) :
    perform serve (throw e : ExceptT ε (Program ι κ) α) s = (.error e, s) := rfl

@[simp] theorem perform_request (op : ι) (s : σ) :
    perform serve (request op : ExceptT ε (Program ι κ) (κ op)) s = (.ok (serve op s).1, (serve op s).2) := rfl

variable (m : ExceptT ε (Program ι κ) α)

theorem perform_bind (f : α → ExceptT ε (Program ι κ) β) (s : σ) : perform serve (m >>= f) s =
      match perform serve m s with
      | (.ok a, s') => perform serve (f a) s'
      | (.error e, s') => (.error e, s') := by
  have hb : (m >>= f).run = m.run.bind (ExceptT.bindCont f) := rfl
  rw [perform, hb, run_bind]
  rcases h : run serve m.run s with ⟨_ | a, s'⟩
  all_goals
    simp only [perform, h]
    rfl

theorem perform_bind_pure (f : α → β) (s : σ) :
    perform serve (m >>= fun a => pure (f a)) s = ((perform serve m s).1.map f, (perform serve m s).2) := by
  rw [perform_bind]
  rcases perform serve m s with ⟨_ | a, s'⟩
  · rfl
  · rfl

/-- What is done about an error runs on what was left when it was met. -/
theorem perform_tryCatch (ha : ε → ExceptT ε (Program ι κ) α) (s : σ) : perform serve (tryCatch m ha) s =
      match perform serve m s with
      | (.ok a, s') => (.ok a, s')
      | (.error e, s') => perform serve (ha e) s' := by
  change run serve (m.run.bind _) s = _
  rw [run_bind]
  rcases h : run serve m.run s with ⟨_ | a, s'⟩
  all_goals
    simp only [perform, h]
    rfl

/-- Two programs succeed exactly when the first does and then the second. -/
theorem perform_bind_eq_ok {m : ExceptT ε (Program ι κ) α} {f : α → ExceptT ε (Program ι κ) β} {s s' : σ}
    {b : β} : perform serve (m >>= f) s = (.ok b, s') ↔
      ∃ a mid, perform serve m s = (.ok a, mid) ∧ perform serve (f a) mid = (.ok b, s') := by
  rw [perform_bind]
  rcases perform serve m s with ⟨_ | a, mid⟩
  · simp
  · simp

/-- Every operation the program may perform meets `P`. -/
structure Uses (P : ι → Prop) (m : ExceptT ε (Program ι κ) α) : Prop where
  all : m.run.All P

section Uses

variable {P : ι → Prop}

theorem uses_pure (a : α) : Uses P (pure a : ExceptT ε (Program ι κ) α) := ⟨trivial⟩

theorem uses_throw (e : ε) : Uses P (throw e : ExceptT ε (Program ι κ) α) := ⟨trivial⟩

theorem uses_request {op : ι} (h : P op) : Uses P (request op : ExceptT ε (Program ι κ) (κ op)) :=
  ⟨h, fun _ => trivial⟩

theorem Uses.bind {m : ExceptT ε (Program ι κ) α} {f : α → ExceptT ε (Program ι κ) β} (hm : Uses P m)
    (hf : ∀ a, Uses P (f a)) : Uses P (m >>= f) := by
  refine ⟨All.bind (f := ExceptT.bindCont f) hm.all fun a => ?_⟩
  cases a with
  | error e => trivial
  | ok a => exact (hf a).all

variable {serve}

theorem Uses.invariant {m : ExceptT ε (Program ι κ) α} (hm : Uses P m) (inv : σ → Prop)
    (hse : ∀ op s, P op → inv s → inv (serve op s).2) {s s' : σ} {r : Except ε α}
    (hr : perform serve m s = (r, s')) (hs : inv s) : inv s' := by
  obtain rfl : (run serve m.run s).2 = s' := congrArg Prod.snd hr
  exact run_invariant serve hse hm.all hs

end Uses

/-- An operation of a run, with the state it was performed in and its answer. -/
structure Event (σ : Type) {ι : Type} (κ : ι → Type) where
  before : σ
  op : ι
  answer : κ op

def trace : Program ι κ α → σ → List (Event σ κ)
  | done _, _ => []
  | ask op next, s => ⟨s, op, (serve op s).1⟩ :: trace (next (serve op s).1) (serve op s).2

theorem trace_bind (x : Program ι κ α) (f : α → Program ι κ β) (s : σ) :
    trace serve (x.bind f) s = trace serve x s ++ trace serve (f (run serve x s).1) (run serve x s).2 := by
  induction x generalizing s with
  | done a => rfl
  | ask op next ih => exact congrArg (List.cons _) (ih _ _)

/-- The run of a program from `s` meets `Q`: its result, what it leaves and what it performed. -/
def Ensures (m : ExceptT ε (Program ι κ) α) (s : σ) (Q : Except ε α → σ → List (Event σ κ) → Prop) : Prop :=
  Q (perform serve m s).1 (perform serve m s).2 (trace serve m.run s)

section Ensures

variable {serve} {m : ExceptT ε (Program ι κ) α} {f : α → ExceptT ε (Program ι κ) β} {s : σ}

variable {Q Q' : Except ε α → σ → List (Event σ κ) → Prop}

theorem ensures_pure {a : α} (h : Q (.ok a) s []) : Ensures serve (pure a : ExceptT ε (Program ι κ) α) s Q := h

theorem ensures_throw {e : ε} (h : Q (.error e) s []) : Ensures serve (throw e : ExceptT ε (Program ι κ) α) s Q := h

theorem ensures_bind {Q : Except ε β → σ → List (Event σ κ) → Prop} :
    Ensures serve (m >>= f) s Q ↔ Ensures serve m s fun r s₁ l₁ =>
      match r with
      | .ok a => Ensures serve (f a) s₁ fun r s' l => Q r s' (l₁ ++ l)
      | .error e => Q (.error e) s₁ l₁ := by
  have hb : (m >>= f).run = m.run.bind (ExceptT.bindCont f) := rfl
  unfold Ensures
  rw [perform_bind, hb, trace_bind]
  rcases h : run serve m.run s with ⟨e | a, s'⟩
  · simp only [perform, h]
    rw [show trace serve (ExceptT.bindCont f (.error e)) s' = [] from rfl, List.append_nil]
  · simp only [perform, h]
    rfl

theorem Ensures.imp (hm : Ensures serve m s Q)
    (h : ∀ r s' l, Q r s' l → Q' r s' l) : Ensures serve m s Q' := h _ _ _ hm

theorem Uses.ensures {P : ι → Prop} (hm : Uses P m) (s : σ) :
    Ensures serve m s fun _ _ l => ∀ e ∈ l, P e.op := by
  suffices h : ∀ (x : Program ι κ (Except ε α)) (s : σ), x.All P → ∀ e ∈ trace serve x s, P e.op from
    h m.run s hm.all
  intro x
  induction x with
  | done a => exact fun _ _ => List.forall_mem_nil _
  | ask op next ih => exact fun s hx => List.forall_mem_cons.mpr ⟨hx.1, ih _ _ (hx.2 _)⟩

variable (inv : σ → Prop) {P R : Event σ κ → Prop}

theorem ensures_keeps (hk : ∀ op s, P ⟨s, op, (serve op s).1⟩ → inv s → inv (serve op s).2)
    (m : ExceptT ε (Program ι κ) α) (s : σ) :
    Ensures serve m s fun _ s' l => (∀ e ∈ l, P e) → inv s → inv s' := by
  suffices h : ∀ (x : Program ι κ (Except ε α)) (s : σ), (∀ e ∈ trace serve x s, P e) → inv s →
      inv (run serve x s).2 from h m.run s
  intro x
  induction x with
  | done a => exact fun _ _ hs => hs
  | ask op next ih =>
    intro s hl hs
    obtain ⟨hop, hl⟩ := List.forall_mem_cons.mp hl
    exact ih _ _ hl (hk op s hop hs)

/-- What an operation of a run brings about and the others keep, holds in the end. -/
theorem ensures_reaches (hre : ∀ op s, R ⟨s, op, (serve op s).1⟩ → inv (serve op s).2)
    (hk : ∀ op s, P ⟨s, op, (serve op s).1⟩ → inv s → inv (serve op s).2)
    (m : ExceptT ε (Program ι κ) α) (s : σ) :
    Ensures serve m s fun _ s' l => (∀ e ∈ l, P e) → (∃ e ∈ l, R e) → inv s' := by
  suffices h : ∀ (x : Program ι κ (Except ε α)) (s : σ), (∀ e ∈ trace serve x s, P e) →
      (∃ e ∈ trace serve x s, R e) → inv (run serve x s).2 from h m.run s
  intro x
  induction x with
  | done a => exact fun _ _ h => absurd h.choose_spec.1 List.not_mem_nil
  | ask op next ih =>
    rintro s hl ⟨e, he, hR⟩
    obtain ⟨-, hr⟩ := List.forall_mem_cons.mp hl
    rcases List.mem_cons.mp he with rfl | he
    · exact ensures_keeps (ε := ε) inv hk (ExceptT.mk (next (serve op s).1)) _ hr (hre op s hR)
    · exact ih _ _ hr ⟨e, he, hR⟩

end Ensures

end Program

end AgentiumOs.Lib
