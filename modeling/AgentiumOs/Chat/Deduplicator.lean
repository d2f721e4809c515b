import AgentiumOs.Lib.Interleave

/-! Results that are to be stored once. A call checks that its value has not been seen, stores it and
marks it as seen; between these steps other calls run. Calls for one value that overlap store it
more than once. -/

namespace AgentiumOs.Chat

open Lib Interleave Function

/-- A call of `store_result`, by what it does next. -/
inductive StoreCall (V : Type) where
  | shouldProcess (value : V)
  | storeResult (value : V)
  | markProcessed (value : V)
  | returned (ok : Bool)

/-- The hashes that were marked, and the values that the inner pipeline has stored. -/
structure DeduplicatorState (V : Type) where
  seen : List UInt64
  stored : List V

namespace StoreCall

variable {V ι : Type} (hashValue : V → UInt64)

/-- The next step of a call; `stores` says what becomes of the value in the inner pipeline. -/
def advance (stores : Bool) (s : DeduplicatorState V) : StoreCall V → DeduplicatorState V × StoreCall V
  | shouldProcess v => if hashValue v ∈ s.seen then (s, returned true) else (s, storeResult v)
  | storeResult v =>
      if stores then ({ s with stored := s.stored ++ [v] }, markProcessed v) else (s, returned false)
  | markProcessed v => ({ s with seen := hashValue v :: s.seen }, returned true)
  | returned ok => (s, returned ok)

def step [DecidableEq ι] (p : Pool (DeduplicatorState V) (StoreCall V) ι) (move : ι × Bool) :
    Pool (DeduplicatorState V) (StoreCall V) ι × Unit :=
  turn (advance hashValue move.2) p move.1

/-- Calls for these values, none of which has started. -/
def calls (values : ι → V) : Pool (DeduplicatorState V) (StoreCall V) ι :=
  ⟨⟨[], []⟩, fun i => shouldProcess (values i)⟩

/-- The value of a call that has passed its check and not marked the value. -/
def held : StoreCall V → Option V
  | storeResult v | markProcessed v => some v
  | _ => none

/-- A call that makes its check overlaps with no other for its value. -/
def Alone (p : Pool (DeduplicatorState V) (StoreCall V) ι) (move : ι × Bool) : Prop :=
  ∀ v, p.thread move.1 = shouldProcess v → ∀ j, (p.thread j).held ≠ some v

structure Sound (p : Pool (DeduplicatorState V) (StoreCall V) ι) : Prop where
  seen : ∀ h ∈ p.shared.seen, ∃ v ∈ p.shared.stored, hashValue v = h
  marking : ∀ i v, p.thread i = markProcessed v → v ∈ p.shared.stored

/-- Every value was stored once, and is known by its mark or by the call that is about to mark it. -/
structure Once (p : Pool (DeduplicatorState V) (StoreCall V) ι) : Prop where
  nodup : p.shared.stored.Nodup
  known : ∀ v ∈ p.shared.stored, hashValue v ∈ p.shared.seen ∨ ∃ i, p.thread i = markProcessed v
  fresh : ∀ i v, p.thread i = storeResult v → v ∉ p.shared.stored
  solo : Solo held id p

inductive Acts (s : DeduplicatorState V) : StoreCall V → DeduplicatorState V → StoreCall V → Prop
  | passes (v : V) (h : hashValue v ∉ s.seen) : Acts s (shouldProcess v) s (storeResult v)
  | stores (v : V) : Acts s (storeResult v) { s with stored := s.stored ++ [v] } (markProcessed v)
  | marks (v : V) : Acts s (markProcessed v) { s with seen := hashValue v :: s.seen } (returned true)
  | ends (call : StoreCall V) (ok : Bool) (h : ∀ v, call ≠ markProcessed v) : Acts s call s (returned ok)

variable {hashValue}

theorem acts (st : Bool) (s : DeduplicatorState V) (call : StoreCall V) :
    Acts hashValue s call (advance hashValue st s call).1 (advance hashValue st s call).2 := by
  cases call with
  | shouldProcess v =>
    rw [advance]
    split
    · exact .ends _ true (fun _ => nofun)
    · exact .passes v ‹_›
  | storeResult v =>
    cases st with
    | true => exact .stores v
    | false => exact .ends _ false (fun _ => nofun)
  | markProcessed v => exact .marks v
  | returned ok => exact .ends _ ok (fun _ => nofun)

theorem sound_calls (v : ι → V) : Sound hashValue (calls v) := ⟨nofun, nofun⟩

theorem once_calls (v : ι → V) : Once hashValue (calls v) := ⟨.nil, nofun, nofun, .of_none fun _ => rfl⟩

variable [DecidableEq ι] {p : Pool (DeduplicatorState V) (StoreCall V) ι} {i : ι} {s : DeduplicatorState V}
  {call : StoreCall V}

theorem Sound.acts (h : Sound hashValue p) (ha : Acts hashValue p.shared (p.thread i) s call) :
    Sound hashValue ⟨s, Function.update p.thread i call⟩ := by
  obtain ⟨hs, hm⟩ := h
  generalize hi : p.thread i = before at ha
  cases ha with
  | passes v hv | ends call ok hv => exact ⟨hs, by grind [update_apply]⟩
  | stores v | marks v => exact ⟨by grind, by grind [update_apply]⟩

theorem Once.acts (h : Once hashValue p) (ha : ∀ v, p.thread i = shouldProcess v → ∀ j, (p.thread j).held ≠ some v)
    (hac : Acts hashValue p.shared (p.thread i) s call) : Once hashValue ⟨s, Function.update p.thread i call⟩ := by
  obtain ⟨hn, hk, hf, hso⟩ := h
  have hs : ∀ v, p.thread i ≠ markProcessed v → (∃ j, p.thread j = markProcessed v) →
      ∃ j, update p.thread i call j = markProcessed v := by
    rintro v hne ⟨j, hj⟩
    have hji : j ≠ i := fun heq => hne (heq ▸ hj)
    exact ⟨j, by rw [update_of_ne hji, hj]⟩
  generalize hi : p.thread i = before at hac ha hs
  cases hac with
  | passes v hv =>
    refine ⟨hn, fun v' hv' => (hk v' hv').imp_right (hs v' nofun), ?_, ?_⟩
    · grind [update_apply, held]
    · grind [update_apply, Solo, held]
  | stores v =>
    have hl : ∀ j, p.thread j = storeResult v → j = i := fun j hj =>
      hso j i v v (by rw [hj, held]) (by rw [hi, held]) rfl
    refine ⟨by grind, fun v' hv' => ?_, by grind [update_apply], by grind [update_apply, Solo, held]⟩
    rcases List.mem_append.mp hv' with ho | hnw
    · exact (hk v' ho).imp_right (hs v' nofun)
    · obtain rfl := List.mem_singleton.mp hnw
      exact .inr ⟨i, update_self i _ _⟩
  | marks v =>
    refine ⟨hn, fun v' hv' => ?_, by grind [update_apply], by grind [update_apply, Solo, held]⟩
    by_cases hvv : v' = v
    · exact .inl (hvv ▸ List.mem_cons_self)
    · exact (hk v' hv').imp (List.mem_cons_of_mem _) (hs v' (by simpa using Ne.symm hvv))
  | ends call ok hv =>
    refine ⟨hn, fun v' hv' => (hk v' hv').imp_right (hs v' (hv v')), ?_, ?_⟩
    · grind [update_apply]
    · grind [update_apply, Solo, held]

/-- If no two calls for one value overlap, each value is stored at most once; and a call for a value
that was never stored passes its check, whatever overlaps. -/
theorem stored_at_most_once (hhash : Function.Injective hashValue) (values : ι → V) (moves : List (ι × Bool)) :
    (Run.Along (step hashValue) Alone (calls values) moves →
      (Run.exec (step hashValue) (calls values) moves).shared.stored.Nodup) ∧
    ∀ i v stores, (Run.exec (step hashValue) (calls values) moves).thread i = shouldProcess v →
      v ∉ (Run.exec (step hashValue) (calls values) moves).shared.stored →
      (step hashValue (Run.exec (step hashValue) (calls values) moves) (i, stores)).1.thread i = storeResult v := by
  constructor
  · intro hal
    exact (Run.along_invariant _ _ (Once hashValue) (fun p move ha h => h.acts ha (acts move.2 _ _)) _
      (once_calls values)
      moves hal).nodup
  · intro i v stores hi hv
    have hs := Run.exec_invariant (step hashValue) (Sound hashValue) (fun p move h => h.acts (acts move.2 _ _)) _
      (sound_calls values) moves
    have hse : hashValue v ∉ (Run.exec (step hashValue) (calls values) moves).shared.seen := by
      intro hmem
      obtain ⟨v', hv', heq⟩ := hs.seen _ hmem
      exact hv (hhash heq ▸ hv')
    rw [step, turn_thread_self, hi, advance, if_neg hse]

/-- The first call fails to store the value, the second stores it after that. -/
theorem retried_value_stored_once : (Run.exec (step fun _ : Unit => 0) (calls fun _ : Bool => ())
      [(false, true), (false, false), (true, true), (true, true), (true, true)]).shared.stored.Nodup := by
  refine (stored_at_most_once (fun _ _ _ => rfl) _ _).1 ?_
  simp [Run.Along, Alone, step, calls, turn, advance, held, update_apply]

/-- Both calls make their check before either has stored the value. -/
theorem overlapping_calls_store_twice : (Run.exec (step fun _ : Unit => 0) (calls fun _ : Bool => ())
      [(false, true), (true, true), (false, true), (true, true)]).shared.stored = [(), ()] := by
  decide

end StoreCall

end AgentiumOs.Chat
