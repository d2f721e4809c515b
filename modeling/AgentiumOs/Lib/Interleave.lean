import AgentiumOs.Lib.Run

/-! Threads that take turns over a shared state. A turn advances one thread by one
atomic operation. The rules are about a token that is either in the shared state
or with exactly one thread: turns that only pass it on keep it so. -/

namespace AgentiumOs.Lib.Interleave

variable {σ τ ι : Type*}

/-- A shared state and the local state of every thread. -/
structure Pool (σ τ ι : Type*) where
  shared : σ
  thread : ι → τ

variable [DecidableEq ι] (advance : σ → τ → σ × τ)

/-- One operation of thread `i`. -/
def turn (p : Pool σ τ ι) (i : ι) : Pool σ τ ι × Unit :=
  let (shared, t) := advance p.shared (p.thread i)
  (⟨shared, Function.update p.thread i t⟩, ())

@[simp] theorem turn_shared (p : Pool σ τ ι) (i : ι) :
    (turn advance p i).1.shared = (advance p.shared (p.thread i)).1 := rfl

@[simp] theorem turn_thread_self (p : Pool σ τ ι) (i : ι) :
    (turn advance p i).1.thread i = (advance p.shared (p.thread i)).2 :=
  Function.update_self _ _ _

variable {i : ι} {p : Pool σ τ ι}

theorem turn_thread_of_ne (p : Pool σ τ ι) {j : ι} (h : j ≠ i) : (turn advance p i).1.thread j = p.thread j :=
  Function.update_of_ne h _ _

/-- What is read off the threads changes for the thread that moved. -/
theorem comp_thread_turn {β : Type*} (f : τ → β) (p : Pool σ τ ι) (i : ι) :
    (fun j => f ((turn advance p i).1.thread j)) =
      Function.update (fun j => f (p.thread j)) i (f (advance p.shared (p.thread i)).2) := by
  funext j
  by_cases hj : j = i
  · subst hj
    rw [Function.update_self, turn_thread_self]
  · rw [Function.update_of_ne hj, turn_thread_of_ne advance p hj]

/-- What is read off a thread is kept by a turn that keeps it for the thread that moved. -/
theorem thread_turn_of_eq {β : Type*} {f : τ → β} (h : f (advance p.shared (p.thread i)).2 = f (p.thread i)) (j : ι) :
    f ((turn advance p i).1.thread j) = f (p.thread j) := by
  have hc := congrFun (comp_thread_turn advance f p i) j
  rwa [h, Function.update_eq_self] at hc

theorem turn_eq_self (h : advance p.shared (p.thread i) = (p.shared, p.thread i)) : (turn advance p i).1 = p := by
  simp [turn, h]

/-- The pool that shows something else of every thread. -/
def Pool.map {τ' : Type*} (f : τ → τ') (p : Pool σ τ ι) : Pool σ τ' ι := ⟨p.shared, fun i => f (p.thread i)⟩

theorem turn_map {τ' : Type*} {advance' : σ → τ' → σ × τ'} {f : τ → τ'}
    (h : ∀ s t, advance' s (f t) = ((advance s t).1, f (advance s t).2)) (p : Pool σ τ ι) (i : ι) :
    (turn advance' (p.map f) i).1 = (turn advance p i).1.map f := by
  have ht := comp_thread_turn advance f p i
  rw [turn, Pool.map, h]
  exact congrArg (Pool.mk _) ht.symm

/-- A property of every thread is kept when the thread that moved keeps it. -/
theorem forall_turn {P : τ → Prop} (h : ∀ j, P (p.thread j)) (hi : P (advance p.shared (p.thread i)).2) (j : ι) :
    P ((turn advance p i).1.thread j) := by
  by_cases hj : j = i
  · subst hj
    rwa [turn_thread_self]
  · rw [turn_thread_of_ne advance p hj]
    exact h j

theorem thread_exec_of_notMem {is : List ι} {j : ι} (h : j ∉ is) (p : Pool σ τ ι) :
    (Run.exec (turn advance) p is).thread j = p.thread j := by
  induction is generalizing p with
  | nil => rfl
  | cons i is ih =>
    rw [List.mem_cons, not_or] at h
    rw [Run.exec_cons, ih h.2, turn_thread_of_ne advance p h.1]

section Holding

variable {α : Type*} {advance} {hold : τ → Option α} {p : Pool σ τ ι} {i j : ι} {a b : α}

/-- A thread that holds something after a turn that takes nothing held it before. -/
theorem hold_of_hold_turn (hi : hold (advance p.shared (p.thread i)).2 = none ∨
      hold (advance p.shared (p.thread i)).2 = hold (p.thread i))
    (hj : hold ((turn advance p i).1.thread j) = some a) : hold (p.thread j) = some a := by
  by_cases hji : j = i
  · subst hji
    rw [turn_thread_self] at hj
    rcases hi with hn | hs
    · rw [hn] at hj
      cases hj
    · rwa [hs] at hj
  · rwa [turn_thread_of_ne advance p hji] at hj

theorem ne_of_hold_turn (hi : hold (advance p.shared (p.thread i)).2 = none)
    (hj : hold ((turn advance p i).1.thread j) = some a) : j ≠ i := by
  rintro rfl
  rw [turn_thread_self, hi] at hj
  cases hj

/-- After a turn that takes something, it is that or what was held before. -/
theorem hold_turn_cases (hi : hold (advance p.shared (p.thread i)).2 = some b)
    (hj : hold ((turn advance p i).1.thread j) = some a) :
    (j = i ∧ a = b) ∨ (j ≠ i ∧ hold (p.thread j) = some a) := by
  by_cases hji : j = i
  · subst hji
    rw [turn_thread_self, hi] at hj
    exact .inl ⟨rfl, (Option.some.inj hj).symm⟩
  · rw [turn_thread_of_ne advance p hji] at hj
    exact .inr ⟨hji, hj⟩

variable {β : Type*} {tag : α → β}

variable (hold tag) in
def Solo (p : Pool σ τ ι) : Prop :=
  ∀ i j a b, hold (p.thread i) = some a → hold (p.thread j) = some b → tag a = tag b → i = j

omit [DecidableEq ι] in
theorem Solo.of_none (h : ∀ i, hold (p.thread i) = none) : Solo hold tag p := by
  intro i j a b hi
  rw [h i] at hi
  cases hi

theorem Solo.keeps (h : Solo hold tag p) (hi : hold (advance p.shared (p.thread i)).2 = none ∨
      hold (advance p.shared (p.thread i)).2 = hold (p.thread i)) :
    Solo hold tag (turn advance p i).1 :=
  fun j k a b hj hk => h j k a b (hold_of_hold_turn hi hj) (hold_of_hold_turn hi hk)

theorem Solo.takes (h : Solo hold tag p) (hi : hold (advance p.shared (p.thread i)).2 = some b)
    (hf : ∀ j a, hold (p.thread j) = some a → tag a ≠ tag b) :
    Solo hold tag (turn advance p i).1 := by
  intro j k x y hj hk hxy
  rcases hold_turn_cases hi hj with ⟨rfl, rfl⟩ | ⟨-, hoj⟩
  · rcases hold_turn_cases hi hk with ⟨rfl, -⟩ | ⟨-, hok⟩
    · rfl
    · exact absurd hxy.symm (hf k y hok)
  · rcases hold_turn_cases hi hk with ⟨-, rfl⟩ | ⟨-, hok⟩
    · exact absurd hxy (hf j x hoj)
    · exact h j k x y hoj hok hxy

end Holding

section Token

variable (free : σ → Prop) (holds : τ → Prop)

/-- The token is in the shared state, or one thread holds it. -/
def Owned (p : Pool σ τ ι) : Prop :=
  (free p.shared ∧ ∀ i, ¬ holds (p.thread i)) ∨
    (¬ free p.shared ∧ ∃ i, holds (p.thread i) ∧ ∀ j, holds (p.thread j) → j = i)

/-- An operation that leaves the token, takes it, or gives it back. -/
inductive Conserves (s : σ) (t : τ) (s' : σ) (t' : τ) : Prop
  | keeps (hfree : free s' ↔ free s) (hholds : holds t' ↔ holds t)
  | takes (hfree : free s) (hfree' : ¬ free s') (hholds' : holds t')
  | returns (hholds : holds t) (hfree' : free s') (hholds' : ¬ holds t')

variable {free holds}

omit [DecidableEq ι] in
theorem Owned.free_of_forall {p : Pool σ τ ι} (h : Owned free holds p)
    (hn : ∀ j, ¬ holds (p.thread j)) : free p.shared := by
  rcases h with ⟨hf, -⟩ | ⟨-, i, hi, -⟩
  · exact hf
  · exact absurd hi (hn i)

theorem Owned.after_turn {p : Pool σ τ ι} {i : ι} (h : Owned free holds p)
    (hs : Conserves free holds p.shared (p.thread i) (advance p.shared (p.thread i)).1
      (advance p.shared (p.thread i)).2) : Owned free holds (turn advance p i).1 := by
  cases hs with
  | keeps hf hh =>
    have hsa : ∀ j, holds ((turn advance p i).1.thread j) ↔ holds (p.thread j) := by
      intro j
      by_cases hj : j = i
      · subst hj
        rwa [turn_thread_self]
      · rw [turn_thread_of_ne advance p hj]
    simpa only [Owned, turn_shared, hf, hsa] using h
  | takes hf hf' hh' =>
    rcases h with ⟨-, hn⟩ | ⟨ht, -⟩
    · refine .inr ⟨hf', i, by rwa [turn_thread_self], fun j hj => ?_⟩
      by_contra hne
      rw [turn_thread_of_ne advance p hne] at hj
      exact hn j hj
    · exact absurd hf ht
  | returns hh hf' hh' =>
    rcases h with ⟨-, hn⟩ | ⟨-, k, -, ho⟩
    · exact absurd hh (hn i)
    · refine .inl ⟨hf', fun j hj => ?_⟩
      by_cases hji : j = i
      · subst hji
        exact hh' (by rwa [turn_thread_self] at hj)
      · rw [turn_thread_of_ne advance p hji] at hj
        exact hji ((ho j hj).trans (ho i hh).symm)

end Token

end AgentiumOs.Lib.Interleave
