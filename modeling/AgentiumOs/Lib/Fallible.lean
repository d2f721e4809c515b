import Mathlib

/-! Fallible programs over a store that keep what they did when they fail: the
meaning of early returns in code that mutates shared state in place. `runOn`
gives the result together with the store, and the rules step through a program
one statement at a time. -/

namespace AgentiumOs.Lib.Fallible

variable {ε σ α β : Type}

/-- A program over a store `σ` that may stop with an error `ε`. -/
abbrev Program (ε σ : Type) := ExceptT ε (StateM σ)

def runOn (m : Program ε σ α) (s : σ) : Except ε α × σ := m.run.run s

@[simp] theorem runOn_pure (a : α) (s : σ) : runOn (pure a : Program ε σ α) s = (.ok a, s) := rfl

@[simp] theorem runOn_throw (e : ε) (s : σ) : runOn (throw e : Program ε σ α) s = (.error e, s) := rfl

@[simp] theorem runOn_get (s : σ) : runOn (get : Program ε σ σ) s = (.ok s, s) := rfl

@[simp] theorem runOn_set (s s' : σ) : runOn (set s' : Program ε σ PUnit) s = (.ok ⟨⟩, s') := rfl

@[simp] theorem runOn_modify (f : σ → σ) (s : σ) : runOn (modify f : Program ε σ PUnit) s = (.ok ⟨⟩, f s) := rfl

@[simp] theorem runOn_lift (x : Except ε α) (s : σ) : runOn (liftM x : Program ε σ α) s = (x, s) := rfl

variable {m : Program ε σ α} {f : α → Except ε β} {l : List α} {a : α} {s : σ} {bs : List β} {s' : σ} {b : β}

theorem runOn_bind_ok {f : α → Program ε σ β} (h : runOn m s = (.ok a, s')) : runOn (m >>= f) s = runOn (f a) s' := by
  change StateT.run (ExceptT.run m) s = (.ok a, s') at h
  simp only [runOn, ExceptT.run_bind, StateT.run_bind, h]
  rfl

/-- A statement runs, and what follows runs on the store it leaves. -/
theorem runOn_bind (m : Program ε σ α) (f : α → Program ε σ β) (s : σ) : runOn (m >>= f) s = match runOn m s with
      | (.ok a, s') => runOn (f a) s'
      | (.error e, s') => (.error e, s') := by
  rcases h : runOn m s with ⟨_ | _, s'⟩
  · change StateT.run (ExceptT.run m) s = (.error _, s') at h
    simp only [runOn, ExceptT.run_bind, StateT.run_bind, h]
    rfl
  · exact runOn_bind_ok h

/-- Two statements succeed exactly when the first does and then the second. -/
theorem runOn_bind_eq_ok {f : α → Program ε σ β} : runOn (m >>= f) s = (.ok b, s') ↔
      ∃ a mid, runOn m s = (.ok a, mid) ∧ runOn (f a) mid = (.ok b, s') := by
  rw [runOn_bind]
  rcases runOn m s with ⟨e | a, mid⟩
  · simp
  · simp

/-- What holds of the store after a statement, and after whatever follows it, holds after both. -/
theorem runOn_bind_state (post : σ → Prop) {f : α → Program ε σ β} (hm : post (runOn m s).2)
    (hf : ∀ a, post (runOn (f a) (runOn m s).2).2) : post (runOn (m >>= f) s).2 := by
  rw [runOn_bind]
  rcases h : runOn m s with ⟨r, s'⟩
  rw [h] at hm hf
  cases r with
  | error e => exact hm
  | ok a => exact hf a

/-! ### Programs that only move the store along a relation -/

/-- Whatever the program answers, it leaves a store that is related to the first. -/
def Preserves (rel : σ → σ → Prop) (m : Program ε σ α) : Prop := ∀ s, rel s (runOn m s).2

theorem exists_runOn_eq_ok {s : σ} {p : α → Bool}
    (h : (runOn m s).1.toOption.any p = true) : ∃ a s', runOn m s = (.ok a, s') ∧ p a = true := by
  rcases hr : runOn m s with ⟨e | a, s'⟩
  · rw [hr] at h
    cases h
  · rw [hr] at h
    exact ⟨a, s', rfl, h⟩

theorem runOn_get_bind (f : σ → Program ε σ α) (s : σ) : runOn (get >>= f) s = runOn (f s) s := by
  rfl

theorem bind_eq_ok {x : Except ε α} : x >>= f = .ok b ↔ ∃ a, x = .ok a ∧ f a = .ok b := by
  cases x <;> simp [bind, Except.bind]

theorem mapM_cons_eq_ok :
    (a :: l).mapM f = .ok bs ↔ ∃ b rest, f a = .ok b ∧ l.mapM f = .ok rest ∧ bs = b :: rest := by
  rw [List.mapM_cons]
  cases hf : f a with
  | error e => simp [bind, Except.bind]
  | ok b =>
    cases hr : l.mapM f with
    | error e => simp [bind, Except.bind]
    | ok rest => simp [bind, Except.bind, pure, Except.pure, eq_comm]

theorem exists_mapM_eq_ok : (∃ bs, l.mapM f = .ok bs) ↔ ∀ a ∈ l, ∃ b, f a = .ok b := by
  induction l with
  | nil => simp [pure, Except.pure]
  | cons a l ih =>
    rw [List.forall_mem_cons, ← ih]
    constructor
    · rintro ⟨bs, h⟩
      obtain ⟨b, rest, hb, hr, -⟩ := mapM_cons_eq_ok.mp h
      exact ⟨⟨b, hb⟩, rest, hr⟩
    · rintro ⟨⟨b, hb⟩, rest, hr⟩
      exact ⟨b :: rest, mapM_cons_eq_ok.mpr ⟨b, rest, hb, hr, rfl⟩⟩

theorem mem_of_mapM_eq_ok (h : l.mapM f = .ok bs) (hb : b ∈ bs) : ∃ a ∈ l, f a = .ok b := by
  induction l generalizing bs with
  | nil =>
    cases h
    cases hb
  | cons a l ih =>
    obtain ⟨b', rest, hf, hr, rfl⟩ := mapM_cons_eq_ok.mp h
    rcases List.mem_cons.mp hb with rfl | hb
    · exact ⟨a, List.mem_cons_self, hf⟩
    · obtain ⟨a', ha', hc⟩ := ih hr hb
      exact ⟨a', List.mem_cons_of_mem _ ha', hc⟩

theorem exists_mem_of_mapM_eq_ok (h : l.mapM f = .ok bs) (ha : a ∈ l) : ∃ b ∈ bs, f a = .ok b := by
  induction l generalizing bs with
  | nil => cases ha
  | cons a' l ih =>
    obtain ⟨b', rest, hf, hr, rfl⟩ := mapM_cons_eq_ok.mp h
    rcases List.mem_cons.mp ha with rfl | ha
    · exact ⟨b', List.mem_cons_self, hf⟩
    · obtain ⟨b, hb, hc⟩ := ih hr ha
      exact ⟨b, List.mem_cons_of_mem _ hb, hc⟩

/-- What each answer carries from its call, the list of answers carries in order. -/
theorem map_of_mapM_eq_ok {γ : Type} {g : β → γ} {h : α → γ} (hgh : ∀ a b, f a = .ok b → g b = h a)
    (hbs : l.mapM f = .ok bs) : bs.map g = l.map h := by
  induction l generalizing bs with
  | nil =>
    cases hbs
    rfl
  | cons a l ih =>
    obtain ⟨b, rest, hb, hr, rfl⟩ := mapM_cons_eq_ok.mp hbs
    rw [List.map_cons, List.map_cons, ih hr, hgh a b hb]

/-- Where a program can be after two statements, the second with the first's answer. -/
theorem rel_bind {rel : σ → σ → Prop} (ht : ∀ s t u, rel s t → rel t u → rel s u) {f : α → Program ε σ β}
    (hm : rel s (runOn m s).2) (hf : ∀ a mid, runOn m s = (.ok a, mid) → rel mid (runOn (f a) mid).2) :
    rel s (runOn (m >>= f) s).2 := by
  rw [runOn_bind]
  rcases hr : runOn m s with ⟨e | a, mid⟩
  · rw [hr] at hm
    exact hm
  · rw [hr] at hm
    exact ht _ _ _ hm (hf a mid hr)

section Preserves

variable {rel : σ → σ → Prop}

theorem Preserves.of_run {m : Program ε σ α} (h : Preserves rel m) {s s' : σ} {r : Except ε α}
    (hr : runOn m s = (r, s')) : rel s s' := by
  have hre := h s
  rwa [hr] at hre

theorem preserves_pure (hr : ∀ s, rel s s) (a : α) : Preserves rel (pure a : Program ε σ α) :=
  fun s => hr s

theorem preserves_lift (hr : ∀ s, rel s s) (x : Except ε α) : Preserves rel (liftM x : Program ε σ α) :=
  fun s => hr s

theorem preserves_bind (ht : ∀ s t u, rel s t → rel t u → rel s u) {m : Program ε σ α}
    {f : α → Program ε σ β} (hm : Preserves rel m) (hf : ∀ a, Preserves rel (f a)) :
    Preserves rel (m >>= f) := by
  intro s
  exact runOn_bind_state (rel s) (hm s) fun a => ht _ _ _ (hm s) (hf a _)

end Preserves

/-! ### Programs that cannot tell two stores apart -/

/-- Related stores give the same result and stay related. -/
def Respects (rel : σ → σ → Prop) (m : Program ε σ α) : Prop :=
  ∀ s t, rel s t → (runOn m s).1 = (runOn m t).1 ∧ rel (runOn m s).2 (runOn m t).2

section Respects

variable {rel : σ → σ → Prop}

theorem respects_pure (a : α) : Respects rel (pure a : Program ε σ α) :=
  fun _ _ h => ⟨rfl, h⟩

theorem respects_throw (e : ε) : Respects rel (throw e : Program ε σ α) :=
  fun _ _ h => ⟨rfl, h⟩

theorem respects_lift (x : Except ε α) : Respects rel (liftM x : Program ε σ α) :=
  fun _ _ h => ⟨rfl, h⟩

theorem respects_modify {f : σ → σ} (hf : ∀ s t, rel s t → rel (f s) (f t)) :
    Respects rel (modify f : Program ε σ PUnit) :=
  fun s t h => ⟨rfl, hf s t h⟩

theorem respects_bind {m : Program ε σ α} {f : α → Program ε σ β} (hm : Respects rel m)
    (hf : ∀ a, Respects rel (f a)) : Respects rel (m >>= f) := by
  intro s t h
  obtain ⟨hr, hst⟩ := hm s t h
  rw [runOn_bind, runOn_bind]
  rcases hs : runOn m s with ⟨r, s'⟩
  rcases ht : runOn m t with ⟨r', t'⟩
  simp only [hs, ht] at hr hst
  subst hr
  cases r with
  | error e => exact ⟨rfl, hst⟩
  | ok a => exact hf a s' t' hst

end Respects

end AgentiumOs.Lib.Fallible
