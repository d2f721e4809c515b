import AgentiumOs.Sandbox.SessionPool

/-! What one step of a task does to the session pool. Every step is one of a few
changes: sandboxes are created by boots, move between entries and tasks, and are handed
to teardown. What holds along every run is derived from these changes alone. -/

namespace AgentiumOs.Sandbox

open SessionPool List Lib Lib.Interleave

variable {κ : Type} [DecidableEq κ] (poolMax : ℕ)

namespace PoolTask

/-- The sandbox a task was given and has not returned to the pool. -/
def pooled : PoolTask κ → Option (PooledSandbox κ)
  | .holding sandbox => some sandbox
  | .releasing sandbox _ => some sandbox
  | _ => none

def boots : PoolTask κ → Option String
  | .booted _ _ handle => some handle
  | _ => none

def carried : PoolTask κ → List String
  | .booted _ _ handle => [handle]
  | .dropping _ _ handle => handle.toList
  | .tearing handles _ => handles
  | _ => []

/-- The reservation a task has made and not yet turned into an entry or given up. -/
def reserves : PoolTask κ → Option (κ × ℕ)
  | .booting key id => some (key, id)
  | .booted key id _ => some (key, id)
  | .dropping key id _ => some (key, id)
  | _ => none

/-- A task that can be dropped without anything being lost. -/
def survivesDrop (inRuntime : Bool) : PoolTask κ → Bool
  | .booted _ _ _ => inRuntime
  | .holding _ => inRuntime
  | .releasing _ _ => false
  | .dropping _ _ handle => handle.isNone
  | .tearing handles _ => handles = []
  | _ => true

end PoolTask

/-- One key gives up the entries `out` for the entries `into`; the rest of the pool is
the same. -/
structure Exchanged (s s' : SessionPool κ) (key : κ) (out into : List PoolEntry) : Prop where
  other : ∀ k, k ≠ key → (s'.pools k).entries = (s.pools k).entries
  entries : List.Perm ((s'.pools key).entries ++ out) ((s.pools key).entries ++ into)
  created : s'.created = s.created
  tornDown : s'.tornDown = s.tornDown

/-- What one step of a task does: nothing to the entries, or the one change named. -/
inductive Changes (s : SessionPool κ) (t : PoolTask κ) (s' : SessionPool κ) (t' : PoolTask κ) : Prop
  | quiet (hentries : ∀ k, (s'.pools k).entries = (s.pools k).entries)
      (hcreated : s'.created = s.created) (htorn : s'.tornDown = s.tornDown)
      (hid : s.nextId ≤ s'.nextId) (hpooled : t'.pooled = t.pooled)
      (hcarried : t'.carried = t.carried) (hboots : t'.boots = none ∨ t'.boots = t.boots)
      (hreserves : t'.reserves = none ∨ t'.reserves = t.reserves)
  /-- A sandbox goes to a task: an idle one, or the one the task booted. -/
  | takes (key : κ) (out : PoolEntry) (handle : String)
      (hentries : Exchanged s s' key [out] [.live s.nextId handle]) (hid : s'.nextId = s.nextId + 1)
      (hout : (t = .entering key ∧ out = .idle handle) ∨ ∃ id, t = .booted key id handle ∧ out = .reserving id)
      (htask : t' = .holding ⟨key, s.nextId, handle⟩)
  /-- A sandbox comes back, to the pool or on its way to teardown. -/
  | gives (sandbox : PooledSandbox κ) (disposition : Release) (handle : String) (into : List PoolEntry)
      (hentries : Exchanged s s' sandbox.key [.live sandbox.session handle] into)
      (hid : s'.nextId = s.nextId) (htask : t = .releasing sandbox disposition)
      (hinto : (into = [.idle handle] ∧ t' = .idle) ∨ (into = [] ∧ t' = .tearing [handle] none))
  /-- There is no entry for the sandbox that comes back. -/
  | vanishes (sandbox : PooledSandbox κ) (hpooled : t.pooled = some sandbox)
      (hgone : ∀ handle, .live sandbox.session handle ∉ (s.pools sandbox.key).entries)
      (hstate : s' = s)
  | sweeps (key : κ) (swept : List String)
      (hentries : Exchanged s s' key (swept.map .idle) []) (hid : s'.nextId = s.nextId)
      (htask : t = .entering key) (htask' : t' = .tearing swept (some key))
  | reserves (key : κ) (hroom : (s.pools key).entries.length < max poolMax 1)
      (hentries : Exchanged s s' key [] [.reserving s.nextId]) (hid : s'.nextId = s.nextId + 1)
      (htask : t = .entering key) (htask' : t' = .booting key s.nextId)
  | unreserves (key : κ) (id : ℕ) (handle : Option String) (out : List PoolEntry)
      (hout : ∀ e ∈ out, e = .reserving id)
      (hentries : Exchanged s s' key out []) (hid : s'.nextId = s.nextId)
      (htask : t = .dropping key id handle) (htask' : t' = .tearing handle.toList none)
  | creates (key : κ) (id : ℕ) (handle : String)
      (hstate : s' = { s with created := handle :: s.created })
      (htask : t = .booting key id) (htask' : t' = .booted key id handle)
  | handsOver (handle : String) (handles : List String) (next : Option κ)
      (hstate : s' = { s with tornDown := handle :: s.tornDown })
      (htask : t = .tearing (handle :: handles) next) (htask' : t' = .tearing handles next)

section Steps

variable (s : SessionPool κ) (key : κ)

@[simp] theorem entries_updatePool_self (p : KeyPool) :
    ((s.updatePool key p).pools key).entries = p.entries := by
  simp [updatePool]

theorem entries_updatePool_of_ne {key k : κ} (hk : k ≠ key) (p : KeyPool) :
    ((s.updatePool key p).pools k).entries = (s.pools k).entries := by
  simp [updatePool, Function.update_of_ne hk]

@[simp] theorem entries_updatePool_same (k : κ) (w : List ℕ) :
    ((s.updatePool key ⟨(s.pools key).entries, w⟩).pools k).entries = (s.pools k).entries := by
  by_cases hk : k = key
  · subst hk
    rw [entries_updatePool_self]
  · rw [entries_updatePool_of_ne s hk]

@[simp] theorem entries_notifyOneWaiter (k : κ) :
    ((s.notifyOneWaiter key).pools k).entries = (s.pools k).entries := by
  unfold notifyOneWaiter
  split
  · rfl
  · exact entries_updatePool_same s key k _

@[simp] theorem created_notifyOneWaiter : (s.notifyOneWaiter key).created = s.created := by
  unfold notifyOneWaiter
  split <;> rfl

@[simp] theorem tornDown_notifyOneWaiter : (s.notifyOneWaiter key).tornDown = s.tornDown := by
  unfold notifyOneWaiter
  split <;> rfl

@[simp] theorem nextId_notifyOneWaiter : (s.notifyOneWaiter key).nextId = s.nextId := by
  unfold notifyOneWaiter
  split <;> rfl

end Steps

variable {s s' : SessionPool κ} {poolMax}

theorem exchanged_setEntries {key : κ} {entries out i : List PoolEntry}
    (h : List.Perm (entries ++ out) ((s.pools key).entries ++ i)) :
    Exchanged s (s.setEntries key entries) key out i where
  other k hk := entries_updatePool_of_ne s hk _
  entries := by
    rw [setEntries, entries_updatePool_self]
    exact h
  created := rfl
  tornDown := rfl

theorem Exchanged.notify (h : Exchanged s s' key out i) : Exchanged s (s'.notifyOneWaiter key) key out i where
  other k hk := by
    rw [entries_notifyOneWaiter]
    exact h.other k hk
  entries := by
    rw [entries_notifyOneWaiter]
    exact h.entries
  created := by
    rw [created_notifyOneWaiter]
    exact h.created
  tornDown := by
    rw [tornDown_notifyOneWaiter]
    exact h.tornDown

theorem sweep_perm (ex : String → Bool) (n idx : ℕ) (e : List PoolEntry) (sw : List String) :
    List.Perm ((sweep ex n idx e sw).1 ++ (sweep ex n idx e sw).2.map .idle) (e ++ sw.map .idle) := by
  induction n generalizing idx e sw with
  | zero => exact .refl _
  | succ n ih =>
    unfold sweep
    split
    · rename_i handle hi
      split_ifs with he
      · refine (ih idx (swapRemove e idx) (sw ++ [handle])).trans ?_
        rw [map_append, ← append_assoc]
        refine (perm_append_singleton _ _).trans ?_
        exact (cons_swapRemove_perm hi).append_right _
      · exact ih (idx + 1) e sw
    · exact ih (idx + 1) e sw

theorem sweep_eq_of_nil {e : String → Bool} {n idx : ℕ} {entries : List PoolEntry}
    {sw : List String} (h : (sweep e n idx entries sw).2 = []) :
    sw = [] ∧ (sweep e n idx entries sw).1 = entries := by
  induction n generalizing idx entries sw with
  | zero => exact ⟨h, rfl⟩
  | succ n ih =>
    unfold sweep at h ⊢
    split at h
    · split_ifs at h with he
      · exact absurd (ih h).1 (by simp)
      · simpa [*] using ih h
    · exact ih h

theorem changes_claim (key : κ) :
    Changes poolMax s (.entering key) (s.claim poolMax key (s.pools key).entries).1
      (s.claim poolMax key (s.pools key).entries).2 := by
  unfold SessionPool.claim
  split
  · split
    · rename_i handle hi
      have hs := exchanged_setEntries (set_append_perm hi (.live s.nextId handle))
      refine .takes key (.idle handle) handle ?_ rfl (.inl ⟨rfl, rfl⟩) rfl
      exact ⟨hs.other, hs.entries, rfl, rfl⟩
    · exact .quiet (fun _ => rfl) rfl rfl le_rfl rfl rfl (.inl rfl) (.inl rfl)
  · split_ifs with hr
    · have hs : Exchanged s (s.setEntries key ((s.pools key).entries ++ [.reserving s.nextId])) key []
          [.reserving s.nextId] := exchanged_setEntries (by rw [append_nil])
      exact .reserves key hr ⟨hs.other, hs.entries, rfl, rfl⟩ rfl rfl rfl
    · exact .quiet (entries_updatePool_same s key · _) rfl rfl (Nat.le_succ _) rfl rfl (.inl rfl) (.inl rfl)

theorem changes_enter (key : κ) (e : String → Bool) :
    Changes poolMax s (.entering key) (s.enter poolMax key e).1 (s.enter poolMax key e).2 := by
  have hp := sweep_perm e (s.pools key).entries.length 0 (s.pools key).entries []
  have hn := @sweep_eq_of_nil e (s.pools key).entries.length 0 (s.pools key).entries []
  unfold SessionPool.enter
  split
  · rename_i entries hs
    rw [hs] at hn
    obtain rfl : entries = (s.pools key).entries := (hn rfl).2
    exact changes_claim key
  · rename_i entries sw hsw hs
    rw [hs, map_nil, append_nil] at hp
    refine .sweeps key sw (Exchanged.notify (exchanged_setEntries ?_)) ?_ rfl rfl
    · rw [append_nil]
      exact hp
    · rw [nextId_notifyOneWaiter]
      rfl

theorem changes_promote (key : κ) (reservation : ℕ) (ha : String) :
    Changes poolMax s (.booted key reservation ha) (s.promote key reservation ha).1
      (s.promote key reservation ha).2 := by
  simp only [promote]
  split
  · rename_i idx hf
    obtain ⟨entry, hi, he⟩ := exists_of_findIdx? hf
    cases entry with
    | reserving id =>
      obtain rfl : id = reservation := of_decide_eq_true he
      have hs := exchanged_setEntries (set_append_perm hi (.live s.nextId ha))
      refine .takes key (.reserving id) ha ?_ rfl (.inr ⟨id, rfl, rfl⟩) rfl
      exact ⟨hs.other, hs.entries, rfl, rfl⟩
    | _ => cases he
  · exact .quiet (fun _ => rfl) rfl rfl le_rfl rfl rfl (.inl rfl) (.inr rfl)

theorem changes_dropReservation (key : κ) (r : ℕ) (ha : Option String) :
    Changes poolMax s (.dropping key r ha) (s.dropReservation key r ha).1 (s.dropReservation key r ha).2 := by
  refine .unreserves key r ha
    ((s.pools key).entries.filter fun e => e.isReserving r) ?_
    (Exchanged.notify (exchanged_setEntries ?_)) ?_ rfl rfl
  · intro e he
    have hid := (mem_filter.mp he).2
    cases e with
    | reserving id => rw [of_decide_eq_true hid]
    | _ => cases hid
  · rw [append_nil]
    exact perm_append_comm.trans (filter_append_perm _ _)
  · exact nextId_notifyOneWaiter _ key

theorem changes_release (sa : PooledSandbox κ) (d : Release) :
    Changes poolMax s (.releasing sa d) (s.release sa d).1 (s.release sa d).2 := by
  simp only [release]
  split
  · rename_i idx hf
    obtain ⟨entry, hi, he⟩ := exists_of_findIdx? hf
    cases entry with
    | live se handle =>
      obtain rfl : se = sa.session := of_decide_eq_true he
      rw [hi]
      cases d with
      | returnIdle =>
        exact .gives sa .returnIdle handle [.idle handle]
          (Exchanged.notify (exchanged_setEntries (set_append_perm hi _)))
          (nextId_notifyOneWaiter _ _) rfl (.inl ⟨rfl, rfl⟩)
      | destroy =>
        refine .gives sa .destroy handle [] (Exchanged.notify (exchanged_setEntries ?_))
          (nextId_notifyOneWaiter _ _) rfl (.inr ⟨rfl, rfl⟩)
        rw [append_nil]
        exact (perm_append_singleton _ _).trans (cons_swapRemove_perm hi)
    | _ => cases he
  · rename_i hn
    refine .vanishes sa rfl (fun handle hm => ?_) rfl
    have := findIdx?_eq_none_iff.mp hn _ hm
    simp [PoolEntry.isLive] at this

theorem changes_poolProceed (e : String → Bool) (t : PoolTask κ) :
    Changes poolMax s t (poolProceed poolMax e s t).1 (poolProceed poolMax e s t).2 := by
  unfold poolProceed
  split
  · exact changes_enter _ e
  · exact .quiet (entries_updatePool_same s _ · _) rfl rfl le_rfl rfl rfl (.inl rfl) (.inl rfl)
  · exact changes_promote _ _ _
  · exact changes_dropReservation _ _ _
  · exact changes_release _ _
  · exact .quiet (fun _ => rfl) rfl rfl le_rfl rfl rfl (.inl rfl) (.inl rfl)
  · exact .quiet (fun _ => rfl) rfl rfl le_rfl rfl rfl (.inl rfl) (.inl rfl)
  · exact .handsOver _ _ _ rfl rfl rfl
  · exact .quiet (fun _ => rfl) rfl rfl le_rfl rfl rfl (.inr rfl) (.inr rfl)

omit [DecidableEq κ] in
/-- A task that survives its end is succeeded by one that has what it had. -/
theorem changes_poolDrop {inRuntime : Bool} {t : PoolTask κ} (h : t.survivesDrop inRuntime = true) :
    Changes poolMax s t s (poolDrop inRuntime t) := by
  have hsame : (poolDrop inRuntime t).pooled = t.pooled ∧ (poolDrop inRuntime t).carried = t.carried ∧
      (poolDrop inRuntime t).boots = none ∧
      ((poolDrop inRuntime t).reserves = none ∨ (poolDrop inRuntime t).reserves = t.reserves) := by
    cases t with
    | booting key reservation =>
      cases inRuntime with
      | true => exact ⟨rfl, rfl, rfl, .inr rfl⟩
      | false => exact ⟨rfl, rfl, rfl, .inl rfl⟩
    | booted key reservation handle =>
      obtain rfl : inRuntime = true := h
      exact ⟨rfl, rfl, rfl, .inr rfl⟩
    | holding sandbox =>
      obtain rfl : inRuntime = true := h
      exact ⟨rfl, rfl, rfl, .inl rfl⟩
    | releasing sandbox disposition => cases h
    | dropping key reservation handle =>
      cases handle with
      | none => exact ⟨rfl, rfl, rfl, .inl rfl⟩
      | some handle => cases h
    | tearing handles next =>
      obtain rfl : handles = [] := of_decide_eq_true h
      exact ⟨rfl, rfl, rfl, .inl rfl⟩
    | _ => exact ⟨rfl, rfl, rfl, .inl rfl⟩
  exact .quiet (fun _ => rfl) rfl rfl le_rfl hsame.1 hsame.2.1 (.inl hsame.2.2.1) hsame.2.2.2

theorem changes_poolAdvance (h : ∀ i, m = .drop i → t.survivesDrop i = true) :
    Changes poolMax s t (poolAdvance poolMax m s t).1 (poolAdvance poolMax m s t).2 := by
  unfold poolAdvance
  split
  · exact .quiet (fun _ => rfl) rfl rfl le_rfl rfl rfl (.inl rfl) (.inl rfl)
  · exact changes_poolProceed _ _
  · exact .creates _ _ _ rfl rfl rfl
  · exact .quiet (fun _ => rfl) rfl rfl le_rfl rfl rfl (.inl rfl) (.inr rfl)
  · split_ifs
    all_goals exact .quiet (fun _ => rfl) rfl rfl le_rfl rfl rfl (.inl rfl) (.inl rfl)
  · exact .quiet (fun _ => rfl) rfl rfl le_rfl rfl rfl (.inl rfl) (.inl rfl)
  · exact .quiet (fun _ => rfl) rfl rfl le_rfl rfl rfl (.inl rfl) (.inl rfl)
  · exact changes_poolDrop (h _ rfl)
  · exact .quiet (fun _ => rfl) rfl rfl le_rfl rfl rfl (.inr rfl) (.inr rfl)

end AgentiumOs.Sandbox
