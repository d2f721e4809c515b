import AgentiumOs.Lib.Tally
import AgentiumOs.Sandbox.PoolMatching

/-! Safety of the session pool over every interleaving of its tasks: the bound on the
entries of a key, the correspondence of live entries and the sandboxes given out, and
the account of every sandbox that was created. -/

namespace AgentiumOs.Sandbox

open Multiset PoolTask Lib Lib.Interleave

variable {κ ι : Type}

def handles (entries : List PoolEntry) : Multiset String :=
  (entries.filterMap PoolEntry.handle? : List String)

def ownedBy (s : SessionPool κ) (key : κ) : Multiset String :=
  handles (s.pools key).entries

def carriedBy (p : Pool (SessionPool κ) (PoolTask κ) ι) (i : ι) : Multiset String :=
  ((p.thread i).carried : List String)

/-- The sandboxes a task has booted and not yet given an entry. -/
def booted (t : PoolTask κ) : Multiset String :=
  (t.boots.toList : List String)

def bootedBy (p : Pool (SessionPool κ) (PoolTask κ) ι) (i : ι) : Multiset String :=
  booted (p.thread i)

/-- What the pool guarantees. A task that carries a handle has booted its sandbox under a
reservation or is about to hand it to teardown. -/
structure PoolSafe (poolMax : ℕ) (p : Pool (SessionPool κ) (PoolTask κ) ι) : Prop where
  capped : ∀ key, (p.shared.pools key).entries.length ≤ max poolMax 1
  exclusive : ∀ i j a b, (p.thread i).pooled = some a → (p.thread j).pooled = some b → i ≠ j → a.handle ≠ b.handle
  live_owned : ∀ key session handle, .live session handle ∈ (p.shared.pools key).entries →
    ∃! i, (p.thread i).pooled = some ⟨key, session, handle⟩
  pooled_live : ∀ i sandbox, (p.thread i).pooled = some sandbox →
    (p.shared.pools sandbox.key).entries.count (.live sandbox.session sandbox.handle) = 1
  accounted : ∃ owned carried, Tallied (ownedBy p.shared) owned ∧ Tallied (carriedBy p) carried ∧
    (p.shared.created : Multiset String) = owned + carried + (p.shared.tornDown : Multiset String)

/-- A sandbox is created under a name that no entry and no other boot has, and nothing is
dropped in a way that loses what it had. -/
def Careful (p : Pool (SessionPool κ) (PoolTask κ) ι) (op : PoolOp κ ι) : Prop :=
  match op.move, p.thread op.task with
  | .create (some handle), .booting _ _ =>
      (∀ key, handle ∉ ownedBy p.shared key) ∧ ∀ i, handle ∉ bootedBy p i
  | .drop inRuntime, task => task.survivesDrop inRuntime = true
  | _, _ => True

instance Careful.decidable [Fintype κ] [Fintype ι] (p : Pool (SessionPool κ) (PoolTask κ) ι)
    (op : PoolOp κ ι) : Decidable (Careful p op) := by
  unfold Careful
  split <;> infer_instance

variable {poolMax cap id : ℕ} {s s' : SessionPool κ} {key : κ}

theorem Exchanged.length (h : Exchanged s s' key out into) :
    (s'.pools key).entries.length + out.length = (s.pools key).entries.length + into.length := by
  simpa using h.entries.length_eq

/-- Entries that are exchanged one for one or given up stay within any bound. -/
theorem Exchanged.length_le (h : Exchanged s s' key out into) (hc : ∀ k, (s.pools k).entries.length ≤ cap)
    (hke : (s.pools key).entries.length + into.length ≤ cap + out.length) (k : κ) :
    (s'.pools k).entries.length ≤ cap := by
  by_cases hk : k = key
  · subst hk
    have := h.length
    omega
  · rw [h.other k hk]
    exact hc k

variable {t t' : PoolTask κ}

theorem Changes.capped (h : Changes poolMax s t s' t') (hc : ∀ k, (s.pools k).entries.length ≤ max poolMax 1)
    (k : κ) : (s'.pools k).entries.length ≤ max poolMax 1 := by
  cases h with
  | quiet he =>
    rw [he]
    exact hc k
  | takes key out handle he =>
    exact he.length_le hc (Nat.add_le_add_right (hc key) 1) k
  | gives sa d handle into he hid htask hi =>
    have hlength : into.length ≤ 1 := by
      rcases hi with ⟨rfl, -⟩ | ⟨rfl, -⟩
      · exact le_rfl
      · exact Nat.zero_le 1
    exact he.length_le hc (Nat.add_le_add (hc _) hlength) k
  | vanishes sa hpooled hgone hs | creates key id handle hs | handsOver handle handles next hs =>
    subst hs
    exact hc k
  | sweeps key swept he => exact he.length_le hc (Nat.le_add_right_of_le (hc key)) k
  | reserves key hr he => exact he.length_le hc hr k
  | unreserves key id handle out hout he =>
    exact he.length_le hc (Nat.le_add_right_of_le (hc key)) k

/-! ### The account of the sandboxes -/

variable [DecidableEq ι] {p : Pool (SessionPool κ) (PoolTask κ) ι}
  {ad : SessionPool κ → PoolTask κ → SessionPool κ × PoolTask κ} {i : ι}

@[simp] theorem handles_nil : handles [] = 0 := rfl

@[simp] theorem handles_idle (handle : String) : handles [.idle handle] = {handle} := rfl

@[simp] theorem handles_live (se : ℕ) (handle : String) : handles [.live se handle] = {handle} := rfl

@[simp] theorem handles_reserving (id : ℕ) : handles [.reserving id] = 0 := rfl

theorem handles_append (a b : List PoolEntry) : handles (a ++ b) = handles a + handles b := by
  simp [handles]

theorem Exchanged.handles_eq (h : Exchanged s s' key out into) :
    ownedBy s' key + handles out = ownedBy s key + handles into := by
  have hp : handles ((s'.pools key).entries ++ out) = handles ((s.pools key).entries ++ into) :=
    coe_eq_coe.mpr (h.entries.filterMap _)
  rwa [handles_append, handles_append] at hp

/-- Between two states the entries give up the sandboxes `out` and get the sandboxes `into`. -/
def Transfers (s s' : SessionPool κ) (out into : Multiset String) : Prop :=
  ∀ n, Tallied (ownedBy s) n → ∃ n', Tallied (ownedBy s') n' ∧ n' + out = n + into

theorem Transfers.of_entries (h : ∀ k, (s'.pools k).entries = (s.pools k).entries) : Transfers s s' 0 0 := by
  intro n hn
  have hs : ownedBy s' = ownedBy s := by
    funext k
    rw [ownedBy, ownedBy, h]
  exact ⟨n, hs ▸ hn, rfl⟩

theorem Exchanged.transfers (h : Exchanged s s' key out into) : Transfers s s' (handles out) (handles into) := by
  classical
  intro n hn
  have hu : ownedBy s' = Function.update (ownedBy s) key (ownedBy s' key) := by
    funext k
    by_cases hk : k = key
    · subst hk
      rw [Function.update_self]
    · rw [Function.update_of_ne hk, ownedBy, ownedBy, h.other k hk]
  obtain ⟨r, rfl, hr⟩ := hn.exists_update key (ownedBy s' key)
  rw [← hu] at hr
  refine ⟨ownedBy s' key + r, hr, ?_⟩
  rw [add_right_comm, h.handles_eq, add_right_comm]

/-- What a step moves: every sandbox that is created, leaves the entries or was with the
task goes to the entries, stays with the task or is handed over; and of the sandboxes that
are to be given out, those of the entries and of the boots, only a boot makes more. -/
structure Moves (s : SessionPool κ) (t : PoolTask κ) (s' : SessionPool κ) (t' : PoolTask κ)
    (out into : Multiset String) : Prop where
  entries : Transfers s s' out into
  balance : (s'.created : Multiset String) + (out + t.carried + s.tornDown) =
    s.created + (into + t'.carried + s'.tornDown)
  boots : into + booted t' ≤ out + booted t ∨
    ∃ key id handle, t = .booting key id ∧ t' = .booted key id handle ∧ out = 0 ∧ into = 0

/-- An exchange of entries moves their sandboxes, when the task makes up the difference. -/
theorem Exchanged.moves (h : Exchanged s s' key out into)
    (hc : handles out + (t.carried : Multiset String) = handles into + (t'.carried : Multiset String))
    (hb : handles into + booted t' ≤ handles out + booted t) : Moves s t s' t' (handles out) (handles into) where
  entries := h.transfers
  balance := by rw [h.created, h.tornDown, hc]
  boots := .inl hb

theorem handles_eq_zero (h : ∀ e ∈ en, e = .reserving id) : handles en = 0 := by
  rw [handles, coe_eq_zero, List.filterMap_eq_nil_iff]
  intro e he
  rw [h e he]
  rfl

theorem Changes.moves (h : Changes poolMax s t s' t') (hh : ∀ sa, t.pooled = some sa →
      .live sa.session sa.handle ∈ (s.pools sa.key).entries) :
    ∃ out into, Moves s t s' t' out into := by
  cases h with
  | quiet he hc ht hid hp hca hb =>
    refine ⟨0, 0, .of_entries he, by rw [hc, ht, hca], .inl ?_⟩
    rcases hb with hn | hsame
    · simp [booted, hn]
    · simp [booted, hsame]
  | takes key out handle he hid ho htask =>
    subst htask
    rcases ho with ⟨rfl, rfl⟩ | ⟨id, rfl, rfl⟩
    all_goals exact ⟨_, _, he.moves (by simp [carried]) le_rfl⟩
  | gives sa d handle into he hid htask hi =>
    subst htask
    rcases hi with ⟨rfl, rfl⟩ | ⟨rfl, rfl⟩
    · exact ⟨_, _, he.moves (by simp [carried]) le_rfl⟩
    · exact ⟨_, _, he.moves (by simp [carried]) (zero_le _)⟩
  | vanishes sa hp hg => exact absurd (hh sa hp) (hg _)
  | sweeps key swept he hid htask htask' =>
    subst htask htask'
    exact ⟨_, _, he.moves (by simp [carried, handles, Function.comp_def, PoolEntry.handle?]) (zero_le _)⟩
  | reserves key hroom he hid htask htask' =>
    subst htask htask'
    exact ⟨_, _, he.moves rfl le_rfl⟩
  | unreserves key id handle out ho he hid htask htask' =>
    subst htask htask'
    exact ⟨_, _, he.moves (by simp [carried, handles_eq_zero ho]) (zero_le _)⟩
  | creates key id handle hs htask htask' =>
    refine ⟨0, 0, .of_entries (by simp [hs]), ?_, .inr ⟨key, id, handle, htask, htask', rfl, rfl⟩⟩
    rw [hs, htask, htask']
    simp only [carried, ← cons_coe, ← singleton_add]
    abel
  | handsOver handle handles next hs htask htask' =>
    subst htask htask'
    refine ⟨0, 0, .of_entries (by simp [hs]), ?_, .inl (zero_le _)⟩
    rw [hs]
    simp only [carried, ← cons_coe, ← singleton_add]
    abel

/-- Every sandbox created is owned by an entry, carried by a task or torn down, once. -/
def Accounted (p : Pool (SessionPool κ) (PoolTask κ) ι) : Prop :=
  ∃ owned carried, Tallied (ownedBy p.shared) owned ∧ Tallied (carriedBy p) carried ∧
    (p.shared.created : Multiset String) = owned + carried + (p.shared.tornDown : Multiset String)

/-- No two entries or boots have sandboxes of one name. -/
def Distinct (p : Pool (SessionPool κ) (PoolTask κ) ι) : Prop :=
  ∃ owned booting, Tallied (ownedBy p.shared) owned ∧ Tallied (bootedBy p) booting ∧ (owned + booting).Nodup

theorem carriedBy_turn : carriedBy (turn ad p i).1 =
      Function.update (carriedBy p) i (ad p.shared (p.thread i)).2.carried :=
  comp_thread_turn ad (fun t : PoolTask κ => (t.carried : Multiset String)) p i

theorem bootedBy_turn : bootedBy (turn ad p i).1 =
      Function.update (bootedBy p) i (booted (ad p.shared (p.thread i)).2) :=
  comp_thread_turn ad booted p i

variable {out into : Multiset String}

theorem Accounted.after_turn (h : Accounted p) (hm : Moves p.shared (p.thread i) (ad p.shared (p.thread i)).1
      (ad p.shared (p.thread i)).2 out into) : Accounted (turn ad p i).1 := by
  obtain ⟨owned, carried, ho, hc, hcr⟩ := h
  obtain ⟨owned', ho', he⟩ := hm.entries owned ho
  obtain ⟨r, rfl, hr⟩ := hc.exists_update i (ad p.shared (p.thread i)).2.carried
  rw [← carriedBy_turn] at hr
  refine ⟨owned', _, ho', hr, ?_⟩
  -- what left the entries and the task is on both sides of the two balances
  refine add_right_cancel (b := out + (p.thread i).carried + p.shared.tornDown) ?_
  rw [turn_shared, hm.balance, hcr]
  calc owned + (carriedBy p i + r) + ↑p.shared.tornDown +
        (into + ↑(ad p.shared (p.thread i)).2.carried + ↑(ad p.shared (p.thread i)).1.tornDown)
      = (owned + into) + (carriedBy p i + r + ↑p.shared.tornDown +
        ↑(ad p.shared (p.thread i)).2.carried + ↑(ad p.shared (p.thread i)).1.tornDown) := by abel
    _ = (owned' + out) + (carriedBy p i + r + ↑p.shared.tornDown +
        ↑(ad p.shared (p.thread i)).2.carried + ↑(ad p.shared (p.thread i)).1.tornDown) := by rw [he]
    _ = _ := by
      rw [carriedBy]
      abel

theorem Distinct.after_turn (h : Distinct p) (hm : Moves p.shared (p.thread i) (ad p.shared (p.thread i)).1
      (ad p.shared (p.thread i)).2 out into)
    (hf : ∀ key id handle, p.thread i = .booting key id → (ad p.shared (p.thread i)).2 = .booted key id handle →
      (∀ k, handle ∉ ownedBy p.shared k) ∧ ∀ j, handle ∉ bootedBy p j) :
    Distinct (turn ad p i).1 := by
  obtain ⟨owned, b, ho, hb, hn⟩ := h
  obtain ⟨owned', ho', he⟩ := hm.entries owned ho
  obtain ⟨rest, hs, hr⟩ := hb.exists_update i (booted (ad p.shared (p.thread i)).2)
  rw [← bootedBy_turn] at hr
  refine ⟨owned', _, ho', hr, ?_⟩
  rcases hm.boots with hle | ⟨key, id, handle, ht, ht', rfl, rfl⟩
  · refine nodup_of_le ?_ hn
    rw [hs]
    refine le_of_add_le_add_right (a := out) ?_
    calc owned' + (booted (ad p.shared (p.thread i)).2 + rest) + out
        = (owned' + out) + booted (ad p.shared (p.thread i)).2 + rest := by abel
      _ = owned + (into + booted (ad p.shared (p.thread i)).2) + rest := by
        rw [he]
        abel
      _ ≤ owned + (out + booted (p.thread i)) + rest := by gcongr
      _ = owned + (bootedBy p i + rest) + out := by
        rw [bootedBy]
        abel
  · obtain ⟨hke, hta⟩ := hf key id handle ht ht'
    have hno : bootedBy p i = 0 := by
      rw [bootedBy, ht]
      rfl
    have hne : booted (ad p.shared (p.thread i)).2 = {handle} := by
      rw [ht']
      rfl
    rw [hno, zero_add] at hs
    obtain rfl : owned' = owned := by simpa using he
    rw [hne, ← hs, add_left_comm, singleton_add, nodup_cons]
    refine ⟨fun hme => ?_, hn⟩
    rcases mem_add.mp hme with hme | hme
    · obtain ⟨k, hk⟩ := ho.exists_mem hme
      exact hke k hk
    · obtain ⟨j, hj⟩ := hb.exists_mem hme
      exact hta j hj

omit [DecidableEq ι] in
theorem exclusive_of_matched (hm : Matched p) (hd : Distinct p) {j : ι}
    {a b : PooledSandbox κ} (ha : (p.thread i).pooled = some a) (hb : (p.thread j).pooled = some b)
    (hij : i ≠ j) : a.handle ≠ b.handle := by
  intro heq
  obtain ⟨o, booting, ho, -, hn⟩ := hd
  have hn : o.Nodup := (Multiset.nodup_add.mp hn).1
  have hs : b.session ≠ a.session := fun h => hij (hm.single i j a b ha hb h.symm)
  have hme : ∀ {k} {c : PooledSandbox κ}, (p.thread k).pooled = some c → c.handle ∈ ownedBy p.shared c.key := by
    intro k c hc
    exact Multiset.mem_coe.mpr (List.mem_filterMap.mpr ⟨_, hm.held k c hc, rfl⟩)
  -- one key owns both, so the name is there twice
  have hk : a.key = b.key := ho.eq_of_mem_mem hn (hme ha) (heq ▸ hme hb)
  have hl := hm.held j b hb
  rw [← hk] at hl
  obtain ⟨rest, hp, -⟩ := exists_rest_of_live (hm.nodup a.key) (hm.held i a ha)
  have hce : (a.handle ::ₘ handles rest).Nodup := by
    have hsp : ownedBy p.shared a.key = a.handle ::ₘ handles rest :=
      Multiset.coe_eq_coe.mpr (hp.filterMap _)
    exact hsp ▸ ho.nodup_cell hn a.key
  refine (Multiset.nodup_cons.mp hce).1 ?_
  rcases List.mem_cons.mp (hp.mem_iff.mp hl) with hsa | hr
  · exact absurd (PoolEntry.live.inj hsa).1 hs
  · exact Multiset.mem_coe.mpr (List.mem_filterMap.mpr ⟨_, hr, by rw [heq]; rfl⟩)

/-- What every step that loses nothing preserves. -/
structure Sound (poolMax : ℕ) (p : Pool (SessionPool κ) (PoolTask κ) ι) : Prop where
  capped : ∀ key, (p.shared.pools key).entries.length ≤ max poolMax 1
  matched : Matched p
  accounted : Accounted p
  distinct : Distinct p

omit [DecidableEq ι] in
theorem sound_emptyPool : Sound poolMax (emptyPool : Pool (SessionPool κ) (PoolTask κ) ι) where
  capped _ := Nat.zero_le _
  matched := by
    refine ⟨?_, ?_, .of_none fun _ => rfl, ?_, ?_⟩ <;> simp [emptyPool, PoolTask.pooled, sessions]
  accounted := ⟨0, 0, .zero, .zero, rfl⟩
  distinct := ⟨0, 0, .zero, .zero, Multiset.nodup_zero⟩

omit [DecidableEq ι] in
theorem Sound.safe (h : Sound poolMax p) : PoolSafe poolMax p where
  capped := h.capped
  exclusive i j a b ha hb hij := exclusive_of_matched h.matched h.distinct ha hb hij
  live_owned key session handle hm := by
    obtain ⟨i, hi⟩ := h.matched.owner key session handle hm
    exact ⟨i, hi, fun j hj => h.matched.single j i _ _ hj hi rfl⟩
  pooled_live i sandbox hi := count_live (h.matched.nodup _) (h.matched.held i sandbox hi)
  accounted := h.accounted

omit [DecidableEq ι] in
theorem Careful.survivesDrop {op : PoolOp κ ι} (h : Careful p op) (ir : Bool)
    (hm : op.move = .drop ir) : (p.thread op.task).survivesDrop ir = true := by
  unfold Careful at h
  rw [hm] at h
  exact h

variable [DecidableEq κ]

theorem create_of_booted (h : (poolAdvance poolMax m s (.booting key id)).2 = .booted key id ha) :
    m = .create (some ha) := by
  cases m with
  | create result =>
    cases result with
    | none => cases h
    | some a =>
      cases h
      rfl
  | drop ir => cases ir <;> cases h
  | _ => cases h

theorem Sound.step (h : Sound poolMax p) (op : PoolOp κ ι) (hc : Careful p op) :
    Sound poolMax (poolStep poolMax p op).1 := by
  have hch : Changes poolMax p.shared (p.thread op.task) _ _ :=
    changes_poolAdvance hc.survivesDrop
  obtain ⟨out, into, hm⟩ := hch.moves (h.matched.held op.task)
  refine ⟨hch.capped h.capped, h.matched.after_turn hch, h.accounted.after_turn hm,
    h.distinct.after_turn hm fun key id handle ht ht' => ?_⟩
  rw [ht] at ht'
  unfold Careful at hc
  rw [create_of_booted ht', ht] at hc
  exact hc

/-- In every interleaving in which sandboxes are created under names of their own and
nothing is dropped in a way that loses what it had, the pool is safe. -/
theorem session_pool_safe (poolMax : ℕ) (ops : List (PoolOp κ ι))
    (hcareful : Run.Along (poolStep poolMax) Careful emptyPool ops) :
    PoolSafe poolMax (Run.exec (poolStep poolMax) emptyPool ops) :=
  (Run.along_invariant (poolStep poolMax) Careful (Sound poolMax)
    (fun _ op hop hp => hp.step op hop) emptyPool sound_emptyPool ops hcareful).safe

scoped instance two_neZero : NeZero 2 := ⟨two_ne_zero⟩

/-- Two tasks check out one key, and the provider names the sandboxes it boots for them. -/
def twoCheckouts (first second : String) : List (PoolOp Unit (Fin 2)) :=
  [⟨0, .checkout ()⟩, ⟨1, .checkout ()⟩, ⟨0, .proceed fun _ => false⟩, ⟨1, .proceed fun _ => false⟩,
    ⟨0, .create (some first)⟩, ⟨1, .create (some second)⟩, ⟨0, .proceed fun _ => false⟩,
    ⟨1, .proceed fun _ => false⟩]

theorem two_names_pool_safe : ((Run.exec (poolStep 2) emptyPool (twoCheckouts "a" "b")).shared.pools ()).entries =
      [.live 2 "a", .live 3 "b"] ∧
    PoolSafe 2 (Run.exec (poolStep 2) emptyPool (twoCheckouts "a" "b")) :=
  ⟨by decide +kernel, session_pool_safe 2 (twoCheckouts "a" "b") (by decide +kernel)⟩

/-- The name is computed from the key, so the second boot replaces the first sandbox, and
both tasks have the one that is left. -/
theorem one_name_given_out_twice :
    ((Run.exec (poolStep 2) emptyPool (twoCheckouts "runner-key" "runner-key")).thread 0).pooled =
      some ⟨(), 2, "runner-key"⟩ ∧
    ((Run.exec (poolStep 2) emptyPool (twoCheckouts "runner-key" "runner-key")).thread 1).pooled =
      some ⟨(), 3, "runner-key"⟩ ∧
    ¬ PoolSafe 2 (Run.exec (poolStep 2) emptyPool (twoCheckouts "runner-key" "runner-key")) := by
  have hf : ((Run.exec (poolStep 2) emptyPool
      (twoCheckouts "runner-key" "runner-key")).thread 0).pooled = some ⟨(), 2, "runner-key"⟩ := by
    decide +kernel
  have hs : ((Run.exec (poolStep 2) emptyPool
      (twoCheckouts "runner-key" "runner-key")).thread 1).pooled = some ⟨(), 3, "runner-key"⟩ := by
    decide +kernel
  exact ⟨hf, hs, fun h => h.exclusive 0 1 _ _ hf hs (by decide) rfl⟩

end AgentiumOs.Sandbox
