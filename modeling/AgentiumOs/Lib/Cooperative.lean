import AgentiumOs.Lib.Fallible

/-! Programs that share a store with other tasks. Control passes to the others
whenever the program awaits something: they call the store any number of times
before the program goes on, and what the program awaited may fail. The rules say
where a store can be after a program, given a relation along which every call of
the others moves it. -/

namespace AgentiumOs.Lib.Cooperative

open Lib.Fallible

variable {σ E C ε α : Type}

/-- The store and everything else, which decides what the other tasks do. -/
structure World (σ E : Type) where
  store : σ
  env : E

/-- What others do while something is awaited, and what the wait answers. -/
abbrev Meanwhile (E C α : Type) := E × List C × α

variable (call : σ → C → σ)

def interrupted (w : World σ E) (m : Meanwhile E C α) : World σ E := ⟨m.2.1.foldl call w.store, m.1⟩

/-- The program asks its surroundings and waits for the answer. -/
def ask (g : E → Meanwhile E C (Except ε α)) : Program ε (World σ E) α := do
  let w ← get
  set (interrupted call w (g w.env))
  liftM (g w.env).2.2

/-- One statement on the store. Others may run before it starts and before its
answer arrives, and it may fail before or after it took effect. -/
def statement (wait : E → Meanwhile E C (Except ε Unit)) (f : World σ E → World σ E × α) :
    Program ε (World σ E) α := do
  ask call wait
  let w ← get
  set (f w).1
  ask call wait
  pure (f w).2

theorem runOn_ask (g : E → Meanwhile E C (Except ε α)) (w : World σ E) :
    runOn (ask call g) w = ((g w.env).2.2, interrupted call w (g w.env)) := rfl

theorem runOn_statement (wait : E → Meanwhile E C (Except ε Unit)) (f : World σ E → World σ E × α)
    (w : World σ E) :
    runOn (statement call wait f) w = match (wait w.env).2.2 with
      | .error e => (.error e, interrupted call w (wait w.env))
      | .ok _ =>
          ((wait (f (interrupted call w (wait w.env))).1.env).2.2.map fun _ =>
              (f (interrupted call w (wait w.env))).2,
            interrupted call (f (interrupted call w (wait w.env))).1
              (wait (f (interrupted call w (wait w.env))).1.env)) := by
  simp only [statement, runOn_bind, runOn_ask]
  cases (wait w.env).2.2 with
  | error e => rfl
  | ok u =>
    simp only [runOn_get, runOn_set]
    cases (wait (f (interrupted call w (wait w.env))).1.env).2.2 <;> rfl

section Relation

variable {call} {R : σ → σ → Prop} (hr : ∀ s, R s s) (ht : ∀ s t u, R s t → R t u → R s u)
  (hc : ∀ s c, R s (call s c))

include hr ht hc

theorem rel_foldl (s : σ) (ca : List C) : R s (ca.foldl call s) := by
  induction ca generalizing s with
  | nil => exact hr s
  | cons c ca ih => exact ht _ _ _ (hc s c) (ih _)

theorem rel_interrupted (w : World σ E) (m : Meanwhile E C α) : R w.store (interrupted call w m).store :=
  rel_foldl hr ht hc w.store m.2.1

variable {f : World σ E → World σ E × α}

theorem preserves_statement (wait : E → Meanwhile E C (Except ε Unit)) (hf : ∀ w, R w.store (f w).1.store) :
    Preserves (fun w w' => R w.store w'.store) (statement call wait f) := by
  intro w
  have hb := rel_interrupted hr ht hc w (wait w.env)
  rw [runOn_statement]
  split
  · exact hb
  · exact ht _ _ _ hb (ht _ _ _ (hf _) (rel_interrupted hr ht hc _ _))

/-- A statement that succeeds ran on a store the others had left. -/
theorem statement_ok {wait : E → Meanwhile E C (Except ε Unit)}
    {w w' : World σ E} {a : α} (h : runOn (statement call wait f) w = (.ok a, w')) :
    ∃ mid, R w.store mid.store ∧ a = (f mid).2 ∧ R (f mid).1.store w'.store := by
  rw [runOn_statement] at h
  split at h
  case h_1 => cases h
  case h_2 =>
    refine ⟨interrupted call w (wait w.env), rel_interrupted hr ht hc _ _, ?_⟩
    obtain ⟨ha, rfl⟩ := Prod.mk.injEq .. ▸ h
    refine ⟨?_, rel_interrupted hr ht hc _ _⟩
    cases hl : (wait (f (interrupted call w (wait w.env))).1.env).2.2 with
    | error e => simp [hl, Except.map] at ha
    | ok u => simpa [hl, Except.map, eq_comm] using ha

end Relation

end AgentiumOs.Lib.Cooperative
