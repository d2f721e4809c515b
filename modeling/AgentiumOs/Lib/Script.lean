import AgentiumOs.Lib.Program

/-! Programs that run statements on a store one at a time. What follows a statement
depends on the store it ran on, or on the error if it failed. The same program is run
alone, with any of its statements failing, or taken one statement at a time between the
statements of others. -/

namespace AgentiumOs.Lib

/-- A program of statements `ℓ` on a store `σ`, which may fail with `φ`. -/
abbrev Script (ℓ φ σ : Type) : Type → Type := Program ℓ fun _ => Except φ σ

namespace Script

open Program

variable {ℓ φ σ α β ε : Type}

/-- The store, the faults of the statements to come, and the statements that failed, with whether they ran. -/
structure Connection (ℓ φ σ : Type) where
  store : σ
  faults : List (Option (Fault φ))
  failed : List (ℓ × Bool)

variable (apply : ℓ → σ → σ)

def serve (stmt : ℓ) (s : σ) : Except φ σ × σ := (.ok s, apply stmt s)

/-- A statement runs on the store, unless it meets a fault. -/
def execute (stmt : ℓ) (c : Connection ℓ φ σ) : Except φ σ × Connection ℓ φ σ :=
  let fault := c.faults.head?.join
  let served := faulty (serve apply) (fun failure _ => some (.error failure)) fault stmt c.store
  (served.1, ⟨served.2, c.faults.tail, c.failed ++ (fault.map fun fault => (stmt, fault.applied)).toList⟩)

/-- A program that may stop with an error `ε`. -/
abbrev Query (ℓ φ σ ε : Type) := ExceptT ε (Script ℓ φ σ)

/-- A statement and what is read of the store it runs on; its failure ends the program. -/
def query (stmt : ℓ) (read : σ → α) (wrap : φ → ε) : Query ℓ φ σ ε α :=
  ExceptT.mk (.ask stmt fun
    | .ok s => .done (.ok (read s))
    | .error fault => .done (.error (wrap fault)))

def attempt (stmt : ℓ) : Query ℓ φ σ ε Unit := ExceptT.mk (.ask stmt fun _ => .done (.ok ()))

theorem execute_cases (stmt : ℓ) (c : Connection ℓ φ σ) :
    (∃ fault : Fault φ, ∃ f, execute apply stmt c = (.error fault.failure,
        ⟨if fault.applied then apply stmt c.store else c.store, f, c.failed ++ [(stmt, fault.applied)]⟩)) ∨
      ∃ f, execute apply stmt c = (.ok c.store, ⟨apply stmt c.store, f, c.failed⟩) := by
  rcases c with ⟨s, _ | ⟨_ | fault, f⟩, failed⟩
  · exact .inr ⟨[], by simp [execute, faulty, serve]⟩
  · exact .inr ⟨f, by simp [execute, faulty, serve]⟩
  · exact .inl ⟨fault, f, rfl⟩

theorem perform_query (stmt : ℓ) (read : σ → α) (wrap : φ → ε) (c : Connection ℓ φ σ) :
    perform (execute apply) (query stmt read wrap) c =
      (((execute apply stmt c).1.map read).mapError wrap, (execute apply stmt c).2) := by
  simp only [query, perform, ExceptT.run, ExceptT.mk, run]
  cases (execute apply stmt c).1 <;> rfl

theorem perform_query_eq_ok {stmt : ℓ} {read : σ → α} {wrap : φ → ε} {c c' : Connection ℓ φ σ} {a : α}
    (h : perform (execute apply) (query stmt read wrap) c = (.ok a, c')) :
    a = read c.store ∧ c'.store = apply stmt c.store := by
  rw [perform_query] at h
  rcases execute_cases apply stmt c with ⟨fault, f, he⟩ | ⟨f, he⟩ <;> rw [he] at h <;> cases h
  exact ⟨rfl, rfl⟩

theorem perform_query_cases (stmt : ℓ) (read : σ → α) (wrap : φ → ε) (c : Connection ℓ φ σ) :
    (∃ fa : Fault φ, ∃ f, perform (execute apply) (query stmt read wrap) c = (.error (wrap fa.failure),
        ⟨if fa.applied then apply stmt c.store else c.store, f, c.failed ++ [(stmt, fa.applied)]⟩)) ∨
      ∃ f, perform (execute apply) (query stmt read wrap) c =
        (.ok (read c.store), ⟨apply stmt c.store, f, c.failed⟩) := by
  rw [perform_query]
  rcases execute_cases apply stmt c with ⟨fa, f, he⟩ | ⟨f, he⟩ <;> rw [he]
  · exact .inl ⟨fa, f, rfl⟩
  · exact .inr ⟨f, rfl⟩

/-- A statement whose failure is ignored runs on the store or leaves it. -/
theorem perform_attempt_cases (stmt : ℓ) (c : Connection ℓ φ σ) : ∃ store fa failed,
      perform (execute apply) (attempt stmt : Query ℓ φ σ ε Unit) c = (.ok (), ⟨store, fa, c.failed ++ failed⟩) ∧
        (store = c.store ∨ store = apply stmt c.store) ∧ ∀ f ∈ failed, f.1 = stmt := by
  have hp : perform (execute apply) (attempt stmt : Query ℓ φ σ ε Unit) c =
      (.ok (), (execute apply stmt c).2) := rfl
  rw [hp]
  rcases execute_cases apply stmt c with ⟨fault, fa, he⟩ | ⟨fa, he⟩ <;> rw [he]
  · refine ⟨_, fa, [(stmt, fault.applied)], rfl, ?_, by simp⟩
    split_ifs
    · exact .inr rfl
    · exact .inl rfl
  · exact ⟨_, fa, [], by rw [List.append_nil], .inr rfl, nofun⟩

section Uses

variable {P : ℓ → Prop}

theorem uses_query {stmt : ℓ} (h : P stmt) (read : σ → α) (wrap : φ → ε) :
    Uses P (query stmt read wrap : Query ℓ φ σ ε α) :=
  ⟨h, fun answer => by cases answer <;> trivial⟩

variable {apply} {m : Query ℓ φ σ ε α} {c c' : Connection ℓ φ σ} {r : Except ε α}

theorem store_eq_of_uses (hm : Uses P m) (h : ∀ stmt, P stmt → ∀ s, apply stmt s = s)
    (hr : perform (execute apply) m c = (r, c')) : c'.store = c.store := by
  refine hm.invariant (fun d => d.store = c.store) (fun stmt d hs hd => ?_) hr rfl
  rcases execute_cases apply stmt d with ⟨fault, f, he⟩ | ⟨f, he⟩ <;> simp [he, h stmt hs, hd]

theorem failed_of_uses {Q : ℓ × Bool → Prop} (hm : Uses P m) (hQ : ∀ f, P f.1 → Q f)
    (hr : perform (execute apply) m c = (r, c')) (hc : ∀ f ∈ c.failed, Q f) : ∀ f ∈ c'.failed, Q f := by
  refine hm.invariant (fun d => ∀ f ∈ d.failed, Q f) (fun stmt d hs hd => ?_) hr hc
  rcases execute_cases apply stmt d with ⟨fault, fa, he⟩ | ⟨fa, he⟩ <;> rw [he]
  · exact List.forall_mem_append.mpr ⟨hd, List.forall_mem_singleton.mpr (hQ _ hs)⟩
  · exact hd

end Uses

/-! ### Programs taking turns -/

/-- The next statement of a program, which has ended when there is none. -/
def advance (s : σ) : Script ℓ φ σ α → σ × Script ℓ φ σ α
  | .done a => (s, .done a)
  | .ask stmt next => (apply stmt s, next (.ok s))

end Script

end AgentiumOs.Lib
