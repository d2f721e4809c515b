import AgentiumOs.Sandbox.PoolWaiters

/-! How many sandboxes of a key there are at a time. A sandbox leaves the pool first and
is torn down afterwards, outside the lock, so its place can be taken by a new one while it
is still there. What the bound of the pool limits is the number of sandboxes that were
created and have not been taken out to be torn down. -/

namespace AgentiumOs.Sandbox

open SessionPool Lib Lib.Interleave

variable {κ ι : Type}

inductive PoolEvent (κ : Type) where
  | reserved (key : κ)
  /-- A reservation is given up without a sandbox. -/
  | failed (key : κ)
  | created (key : κ)
  /-- A sandbox is taken out of the pool to be torn down. -/
  | condemned (key : κ)
  | tornDown (key : κ)
  deriving DecidableEq

def PoolTask.key? : PoolTask κ → Option κ
  | .idle => none
  | .entering key => some key
  | .parked key _ => some key
  | .cancelling key _ => some key
  | .booting key _ => some key
  | .booted key _ _ => some key
  | .dropping key _ _ => some key
  | .holding sandbox => some sandbox.key
  | .releasing sandbox _ => some sandbox.key
  | .tearing _ next => next

/-- What a move of a task that works for the key `working` brings about. -/
def poolEvents (working : Option κ) : PoolMove κ → PoolTask κ → PoolTask κ → List (PoolEvent κ)
  | .proceed _, .entering key, .booting _ _ => [.reserved key]
  | .proceed _, .entering key, .tearing handles _ => .replicate handles.length (.condemned key)
  | .proceed _, .releasing sandbox _, .tearing handles _ =>
      .replicate handles.length (.condemned sandbox.key)
  | .proceed _, .dropping key _ none, _ => [.failed key]
  | .proceed _, .dropping key _ (some _), _ => [.condemned key]
  | .proceed _, .tearing (_ :: _) _, _ => working.toList.map .tornDown
  | .create (some _), .booting key _, _ => [.created key]
  | _, _, _ => []

/-- The pool with a log of what happened to the sandboxes and, for every task, the key it
was last at work for. -/
structure Census (κ ι : Type) where
  pool : Pool (SessionPool κ) (PoolTask κ) ι
  working : ι → Option κ
  log : List (PoolEvent κ)

variable [DecidableEq κ]

namespace Census

/-- The sandboxes of a key that were created and whose teardown is not over. -/
def standing (c : Census κ ι) (key : κ) : ℕ :=
  c.log.count (.created key) - c.log.count (.tornDown key)

/-- Every sandbox of the key that was taken out of the pool has been torn down. -/
def Settled (c : Census κ ι) (key : κ) : Prop :=
  c.log.count (.condemned key) ≤ c.log.count (.tornDown key)

end Census

def emptyCensus : Census κ ι := ⟨emptyPool, fun _ => none, []⟩

/-- No sandbox comes up while one of its key is still to be torn down. -/
def BootsSettled (c : Census κ ι) (op : PoolOp κ ι) : Prop :=
  match op.move, c.pool.thread op.task with
  | .create (some _), .booting key _ => c.Settled key
  | _, _ => True

instance BootsSettled.decidable (c : Census κ ι) (op : PoolOp κ ι) : Decidable (BootsSettled c op) := by
  unfold BootsSettled Census.Settled
  generalize op.move = move, c.pool.thread op.task = task
  casesm* PoolMove _, PoolTask _, Option _ <;> infer_instance

variable (poolMax : ℕ)

def censusStep [DecidableEq ι] (c : Census κ ι) (op : PoolOp κ ι) : Census κ ι × Unit :=
  let next := (poolStep poolMax c.pool op).1
  let working := (next.thread op.task).key?.or (c.working op.task)
  (⟨next, Function.update c.working op.task working,
    poolEvents working op.move (c.pool.thread op.task) (next.thread op.task) ++ c.log⟩, ())

/-- The boots of a key that a task has under way or has given up without a sandbox. -/
def PoolTask.pending (key : κ) : PoolTask κ → ℕ
  | .booting k _ => if k = key then 1 else 0
  | .dropping k _ none => if k = key then 1 else 0
  | _ => 0

/-- What a step adds to the log covers what it does to the entries and to the boots of a key. -/
structure Logged (s : SessionPool κ) (t : PoolTask κ) (s' : SessionPool κ) (t' : PoolTask κ)
    (events : List (PoolEvent κ)) (key : κ) : Prop where
  entries : (s.pools key).entries.length + events.count (.reserved key) ≤
    (s'.pools key).entries.length + events.count (.condemned key) + events.count (.failed key)
  boots : events.count (.created key) + events.count (.failed key) + t'.pending key ≤
    t.pending key + events.count (.reserved key)

variable {poolMax} {s s' : SessionPool κ} {t t' : PoolTask κ}

/-- A step without events may only leave the entries and give up boots. -/
theorem Logged.silent (key : κ) (he : (s.pools key).entries.length ≤ (s'.pools key).entries.length)
    (hb : t'.pending key ≤ t.pending key) : Logged s t s' t' [] key :=
  ⟨he, by simpa using hb⟩

theorem Logged.same (s : SessionPool κ) (key : κ) (hb : t'.pending key ≤ t.pending key) : Logged s t s t' [] key :=
  .silent key le_rfl hb

variable {out into : List PoolEntry}

theorem Exchanged.length_at (h : Exchanged s s' key out into) (k : κ) :
    (s'.pools k).entries.length + (if key = k then out.length else 0) =
      (s.pools k).entries.length + (if key = k then into.length else 0) := by
  by_cases hk : key = k
  · subst hk
    simpa using h.length
  · simp [hk, h.other k (Ne.symm hk)]

theorem Logged.condemned {key : κ} {n : ℕ} (h : Exchanged s s' key out [])
    (hn : out.length ≤ n) (k : κ) (hb : t'.pending k ≤ t.pending k) :
    Logged s t s' t' (.replicate n (.condemned key)) k := by
  have hl := h.length_at k
  refine ⟨?_, by simpa [List.count_replicate] using hb⟩
  by_cases hk : key = k
  · subst hk
    simp only [if_true] at hl
    simp [List.count_replicate]
    omega
  · simp only [hk, if_false] at hl
    simp [List.count_replicate]
    omega

theorem Logged.failed {key : κ} {id : ℕ} (h : Exchanged s s' key out [])
    (ho : out.length ≤ 1) (k : κ) (hb : t'.pending k = 0) :
    Logged s (.dropping key id none) s' t' [.failed key] k := by
  have hl := h.length_at k
  by_cases hk : key = k
  · subst hk
    simp only [if_true] at hl
    have hp : (PoolTask.dropping key id none).pending key = 1 := if_pos rfl
    refine ⟨?_, by simp [hp, hb]⟩
    simp
    omega
  · simp only [hk, if_false] at hl
    exact ⟨by simp; omega, by simp [hk, hb]⟩

theorem logged_enter (working : Option κ) (expired : String → Bool) (key k : κ) :
    Logged s (.entering key) (s.enter poolMax key expired).1 (s.enter poolMax key expired).2
      (poolEvents working (.proceed expired) (.entering key) (s.enter poolMax key expired).2) k := by
  have hc : Changes poolMax s (.entering key) _ _ := changes_enter key expired
  generalize s.enter poolMax key expired = r at hc
  obtain ⟨s', t'⟩ := r
  cases hc with
  | quiet he hcr hto hid hp hca hb hr =>
    have hl : (s.pools k).entries.length ≤ (s'.pools k).entries.length := by rw [he]
    cases t' with
    | booting key' id | dropping key' id handle => rcases hr with hn | hs <;> contradiction
    | tearing ha next =>
      cases hca
      exact .silent k hl le_rfl
    | _ => exact .silent k hl le_rfl
  | takes key' out handle he hid ho ht =>
    subst ht
    have hl := he.length_at k
    exact .silent k (Nat.add_right_cancel hl).ge le_rfl
  | sweeps key' swept he hid ht ht' =>
    cases ht
    subst ht'
    exact .condemned he (by rw [List.length_map]) k le_rfl
  | reserves key' hro he hid ht ht' =>
    cases ht
    subst ht'
    have hl := he.length_at k
    refine ⟨?_, ?_⟩
    · by_cases hk : key = k
      · subst hk
        simpa [poolEvents] using hl.ge
      · simpa [poolEvents, hk] using hl.ge
    · by_cases hk : key = k <;> simp [poolEvents, PoolTask.pending, hk]
  | vanishes sandbox hp => cases hp
  | _ => contradiction

theorem logged_promote (key k : κ) (r : ℕ) (ha : String) :
    Logged s (.booted key r ha) (s.promote key r ha).1 (s.promote key r ha).2 [] k := by
  simp only [promote]
  split
  · refine .silent k ?_ le_rfl
    by_cases hk : k = key
    · subst hk
      simp [setEntries]
    · simp [setEntries, updatePool, hk]
  · exact .same s k le_rfl

theorem logged_dropReservation (hs : Orderly poolMax s) (w : Option κ) (e : String → Bool)
    (key k : κ) (r : ℕ) (ha : Option String) :
    Logged s (.dropping key r ha) (s.dropReservation key r ha).1
      (s.dropReservation key r ha).2
      (poolEvents w (.proceed e) (.dropping key r ha) (s.dropReservation key r ha).2) k := by
  have hse := exchanged_dropReservation s key r ha
  have ho := length_filter_isReserving (hs.nodup key) r
  cases ha with
  | some ha => exact Logged.condemned (n := 1) hse ho k le_rfl
  | none => exact Logged.failed hse ho k rfl

theorem logged_release (w : Option κ) (e : String → Bool) (k : κ) (sa : PooledSandbox κ) (d : Release) :
    Logged s (.releasing sa d) (s.release sa d).1
      (s.release sa d).2
      (poolEvents w (.proceed e) (.releasing sa d) (s.release sa d).2) k := by
  simp only [release]
  split
  · rename_i idx hf
    obtain ⟨entry, hi, he⟩ := exists_of_findIdx? hf
    cases entry with
    | live session handle =>
      rw [hi]
      cases d with
      | returnIdle =>
        have hs := (exchanged_setEntries (set_append_perm hi (.idle handle))).notify
        exact .silent k (Nat.add_right_cancel (hs.length_at k)).ge le_rfl
      | destroy => exact Logged.condemned (n := 1) (exchanged_swapRemove hi) le_rfl k le_rfl
    | _ => cases he
  · exact .same s k le_rfl

theorem logged_poolProceed (hs : Orderly poolMax s) (w : Option κ) (e : String → Bool)
    (t : PoolTask κ) (k : κ) :
    Logged s t (poolProceed poolMax e s t).1 (poolProceed poolMax e s t).2
      (poolEvents w (.proceed e) t (poolProceed poolMax e s t).2) k := by
  cases t with
  | entering key => exact logged_enter w e key k
  | cancelling key waiter => exact .silent k (by simp [poolProceed, cancelWaiter]) le_rfl
  | booted key r handle => exact logged_promote key k r handle
  | dropping key r handle => exact logged_dropReservation hs w e key k r handle
  | releasing sa d => exact logged_release w e k sa d
  | tearing ha n =>
    cases ha with
    | nil => cases n <;> exact .same s k le_rfl
    | cons handle ha =>
      cases w with
      | none => exact .silent k le_rfl le_rfl
      | some key => exact ⟨by simp [poolEvents, poolProceed], by simp [poolEvents, poolProceed, PoolTask.pending]⟩
  | _ => exact .same s k le_rfl

theorem pending_poolDrop (i : Bool) (t : PoolTask κ) (k : κ) : (poolDrop i t).pending k ≤ t.pending k := by
  cases t with
  | booting key r =>
    cases i with
    | true => exact le_rfl
    | false => exact Nat.zero_le _
  | booted key r handle | holding sandbox => cases i <;> exact le_rfl
  | _ => exact Nat.zero_le _

theorem logged_poolAdvance (hs : Orderly poolMax s) (w : Option κ) (m : PoolMove κ) (t : PoolTask κ) (k : κ) :
    Logged s t (poolAdvance poolMax m s t).1 (poolAdvance poolMax m s t).2
      (poolEvents w m t (poolAdvance poolMax m s t).2) k := by
  cases m with
  | proceed e => exact logged_poolProceed hs w e t k
  | create result =>
    cases result with
    | none => cases t <;> exact .same s k le_rfl
    | some handle =>
      cases t with
      | booting key r =>
        refine ⟨by simp [poolEvents, poolAdvance], ?_⟩
        by_cases hk : key = k <;> simp [poolEvents, poolAdvance, PoolTask.pending, hk]
      | _ => exact .same s k le_rfl
  | wake =>
    cases t with
    | parked key waiter =>
      refine .same s k ?_
      simp only [poolAdvance]
      split_ifs <;> exact le_rfl
    | _ => exact .same s k le_rfl
  | drop i => exact .same s k (pending_poolDrop i t k)
  | _ => cases t <;> exact .same s k le_rfl

/-- Every reservation has an entry, was given up, or became a sandbox that was taken out of
the pool; every sandbox was created under a reservation of its own. -/
structure Booked (poolMax : ℕ) (c : Census κ ι) : Prop where
  orderly : Orderly poolMax c.pool.shared
  entries : ∀ key, c.log.count (.reserved key) ≤ (c.pool.shared.pools key).entries.length +
    c.log.count (.condemned key) + c.log.count (.failed key)
  boots : ∀ key, ∃ pending, Tallied (fun i => (c.pool.thread i).pending key) pending ∧
    c.log.count (.created key) + c.log.count (.failed key) + pending ≤ c.log.count (.reserved key)

theorem booked_emptyCensus : Booked poolMax (emptyCensus : Census κ ι) where
  orderly := orderly_emptyPool
  entries _ := Nat.zero_le _
  boots _ := ⟨0, .zero, le_rfl⟩

variable [DecidableEq ι] {c : Census κ ι}

theorem Booked.step (h : Booked poolMax c) (op : PoolOp κ ι) : Booked poolMax (censusStep poolMax c op).1 := by
  have ht : (poolStep poolMax c.pool op).1.thread op.task =
      (poolAdvance poolMax op.move c.pool.shared (c.pool.thread op.task)).2 := turn_thread_self _ _ _
  have hl := logged_poolAdvance h.orderly
    (((poolStep poolMax c.pool op).1.thread op.task).key?.or (c.working op.task)) op.move
    (c.pool.thread op.task)
  rw [← ht] at hl
  refine ⟨h.orderly.poolAdvance op.move _, fun key => ?_, fun key => ?_⟩
  · have ho := h.entries key
    have hn : _ ≤ ((poolStep poolMax c.pool op).1.shared.pools key).entries.length + _ + _ :=
      (hl key).entries
    simp only [censusStep, List.count_append]
    omega
  · obtain ⟨pending, hta, ho⟩ := h.boots key
    have hn := (hl key).boots
    obtain ⟨rest, rfl, hr⟩ := hta.exists_update op.task
      (((poolStep poolMax c.pool op).1.thread op.task).pending key)
    rw [ht, ← comp_thread_turn (poolAdvance poolMax op.move) (PoolTask.pending key), ← ht] at hr
    refine ⟨_, hr, ?_⟩
    simp only [censusStep, List.count_append]
    omega

omit [DecidableEq ι] in
/-- The sandboxes of a key that were created and not taken out of the pool are within the
bound, whatever the interleaving. -/
theorem Booked.created_le (h : Booked poolMax c) (key : κ) :
    c.log.count (.created key) ≤ c.log.count (.condemned key) + max poolMax 1 := by
  obtain ⟨pending, -, hb⟩ := h.boots key
  have := h.entries key
  have := h.orderly.capped key
  omega

/-- Whatever the interleaving, the sandboxes created for a key are those given up and as many more
as the pool allows. -/
theorem creations_accounted (poolMax : ℕ) (ops : List (PoolOp κ ι)) (key : κ) :
    let log := (Run.exec (censusStep poolMax) emptyCensus ops).log
    log.count (.created key) ≤ log.count (.condemned key) + max poolMax 1 :=
  (Run.exec_invariant _ (Booked poolMax) (fun _ op h => h.step op) _ booked_emptyCensus ops).created_le key

omit [DecidableEq κ] in
theorem booting_of_created {w : Option κ} {m : PoolMove κ} {key : κ} (h : .created key ∈ poolEvents w m t t') :
    ∃ handle id, m = .create (some handle) ∧ t = .booting key id := by
  unfold poolEvents at h
  split at h
  case h_7 =>
    cases List.mem_singleton.mp h
    exact ⟨_, _, rfl, rfl⟩
  all_goals simp at h

/-- The bound is kept by a boot that finds nothing of its key left to be torn down. -/
theorem Booked.standing_step (h : Booked poolMax c) (op : PoolOp κ ι) (hop : BootsSettled c op)
    (hb : ∀ key, c.standing key ≤ max poolMax 1) (key : κ) :
    (censusStep poolMax c op).1.standing key ≤ max poolMax 1 := by
  by_cases hc : .created key ∈ poolEvents
      (((poolStep poolMax c.pool op).1.thread op.task).key?.or (c.working op.task)) op.move
      (c.pool.thread op.task) ((poolStep poolMax c.pool op).1.thread op.task)
  · obtain ⟨handle, id, hm, ht⟩ := booting_of_created hc
    have hle := (h.step op).created_le key
    have hs : c.Settled key := by
      unfold BootsSettled at hop
      rwa [hm, ht] at hop
    unfold Census.Settled at hs
    simp only [Census.standing, censusStep, hm, ht, poolEvents] at hle ⊢
    simp at hle ⊢
    omega
  · have ho := hb key
    simp only [Census.standing, censusStep, List.count_append, List.count_eq_zero.mpr hc] at ho ⊢
    omega

/-- In every interleaving in which a sandbox of a key comes up only when nothing of that key
is left to be torn down, there are at most as many sandboxes of a key as the pool allows. -/
theorem standing_sandboxes_capped (poolMax : ℕ) (ops : List (PoolOp κ ι))
    (hops : Run.Along (censusStep poolMax) BootsSettled emptyCensus ops) (key : κ) :
    (Run.exec (censusStep poolMax) emptyCensus ops).standing key ≤ max poolMax 1 :=
  (Run.along_invariant (censusStep poolMax) BootsSettled
    (fun c : Census κ ι => Booked poolMax c ∧ ∀ key, c.standing key ≤ max poolMax 1)
    (fun _ op hop hc => ⟨hc.1.step op, hc.1.standing_step op hop hc.2⟩) emptyCensus
    ⟨booked_emptyCensus, fun _ => Nat.zero_le _⟩ ops hops).2 key

/-- Task 1 queues for the only place of a key; task 0 gives its sandbox back to be destroyed. -/
def destroyed : List (PoolOp Unit (Fin 2)) :=
  [⟨0, .checkout ()⟩, ⟨0, .proceed fun _ => false⟩, ⟨0, .create (some "a")⟩, ⟨0, .proceed fun _ => false⟩,
    ⟨1, .checkout ()⟩, ⟨1, .proceed fun _ => false⟩, ⟨0, .release .destroy⟩, ⟨0, .proceed fun _ => false⟩]

/-- Task 1 is woken and boots a sandbox in the place that is free. -/
def replaced : List (PoolOp Unit (Fin 2)) :=
  [⟨1, .wake⟩, ⟨1, .proceed fun _ => false⟩, ⟨1, .create (some "b")⟩]

/-- The teardown is over before the new sandbox comes up. -/
theorem replaced_after_teardown_capped :
    (Run.exec (censusStep 1) emptyCensus (destroyed ++ ⟨0, .proceed fun _ => false⟩ :: replaced)).log.count
      (.created ()) = 2 ∧
    (Run.exec (censusStep 1) emptyCensus (destroyed ++ ⟨0, .proceed fun _ => false⟩ :: replaced)).standing () ≤
      max 1 1 :=
  ⟨by decide +kernel, standing_sandboxes_capped 1 _ (by decide +kernel) ()⟩

/-- The entry is removed and its waiter woken before the teardown, so the new sandbox comes
up next to the old one. -/
theorem replaced_before_teardown :
    (Run.exec (censusStep 1) emptyCensus (destroyed ++ replaced)).standing () = 2 := by
  decide +kernel

end AgentiumOs.Sandbox
