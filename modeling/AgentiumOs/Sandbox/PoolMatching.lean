import AgentiumOs.Sandbox.PoolSteps

/-! The correspondence of live entries and the sandboxes given out: a task that was given
a sandbox has the live entry of its session, and every live entry has one such task. -/

namespace AgentiumOs.Sandbox

open List Lib Lib.Interleave

variable {κ ι : Type}

/-- The ids of the sessions that are live among some entries. -/
def sessions (entries : List PoolEntry) : List ℕ :=
  entries.filterMap PoolEntry.session?

variable {entries into : List PoolEntry} {handle : String} {key : κ} {session : ℕ} {out : List PoolEntry}

theorem mem_sessions : session ∈ sessions entries ↔ ∃ handle, .live session handle ∈ entries := by
  rw [sessions, mem_filterMap]
  constructor
  · rintro ⟨e, he, hs⟩
    cases e with
    | live session' handle =>
      obtain rfl : session' = session := Option.some.inj hs
      exact ⟨handle, he⟩
    | _ => cases hs
  · rintro ⟨handle, he⟩
    exact ⟨_, he, rfl⟩

theorem sessions_perm (h : List.Perm a b) : List.Perm (sessions a) (sessions b) :=
  h.filterMap _

theorem sessions_append (a b : List PoolEntry) : sessions (a ++ b) = sessions a ++ sessions b :=
  filterMap_append

theorem exists_rest_of_live (h : (sessions entries).Nodup) (hm : .live session handle ∈ entries) :
    ∃ rest, List.Perm entries (.live session handle :: rest) ∧ session ∉ sessions rest := by
  have hp := perm_cons_erase hm
  refine ⟨_, hp, ?_⟩
  have hn := (sessions_perm hp).nodup_iff.mp h
  exact (nodup_cons.mp hn).1

theorem count_live (h : (sessions entries).Nodup) (hm : .live session handle ∈ entries) :
    entries.count (.live session handle) = 1 := by
  obtain ⟨rest, hp, hr⟩ := exists_rest_of_live h hm
  rw [hp.count_eq, count_cons_self, count_eq_zero_of_not_mem]
  exact fun hm' => hr (mem_sessions.mpr ⟨handle, hm'⟩)

/-- Every sandbox given out has its live entry and every live entry its one task. -/
structure Matched (p : Pool (SessionPool κ) (PoolTask κ) ι) : Prop where
  held : ∀ i sandbox, (p.thread i).pooled = some sandbox →
    .live sandbox.session sandbox.handle ∈ (p.shared.pools sandbox.key).entries
  owner : ∀ key session handle, .live session handle ∈ (p.shared.pools key).entries →
    ∃ i, (p.thread i).pooled = some ⟨key, session, handle⟩
  single : Solo PoolTask.pooled PooledSandbox.session p
  bound : ∀ key session handle, .live session handle ∈ (p.shared.pools key).entries → session < p.shared.nextId
  nodup : ∀ key, (sessions (p.shared.pools key).entries).Nodup

variable [DecidableEq ι] {poolMax n : ℕ} {s s' : SessionPool κ}
  {p : Pool (SessionPool κ) (PoolTask κ) ι}
  {ad : SessionPool κ → PoolTask κ → SessionPool κ × PoolTask κ} {i : ι}

theorem Exchanged.live_iff (h : Exchanged s s' key out into) (ho : sessions out = []) (hi : sessions into = [])
    (k : κ) (session : ℕ) (handle : String) :
    .live session handle ∈ (s'.pools k).entries ↔ .live session handle ∈ (s.pools k).entries := by
  have hn : ∀ {l : List PoolEntry}, sessions l = [] → .live session handle ∉ l := by
    intro l hl hm
    have := mem_sessions.mpr ⟨handle, hm⟩
    rw [hl] at this
    cases this
  by_cases hk : k = key
  · subst hk
    have hm := h.entries.mem_iff (a := .live session handle)
    simpa [hn ho, hn hi] using hm
  · rw [h.other k hk]

theorem Exchanged.sessions_perm (h : Exchanged s s' key out into) :
    List.Perm (sessions (s'.pools key).entries ++ sessions out)
      (sessions (s.pools key).entries ++ sessions into) := by
  have := Sandbox.sessions_perm h.entries
  rwa [sessions_append, sessions_append] at this

theorem Exchanged.nodup_sessions (h : Exchanged s s' key out into) (hi : sessions into = [])
    (hn : ∀ k, (sessions (s.pools k).entries).Nodup) (k : κ) : (sessions (s'.pools k).entries).Nodup := by
  by_cases hk : k = key
  · subst hk
    have hp := h.sessions_perm
    rw [hi, append_nil] at hp
    exact (nodup_append.mp (hp.nodup_iff.mpr (hn k))).1
  · rw [h.other k hk]
    exact hn k

theorem Matched.keeps (h : Matched p) (hl : ∀ k session handle,
      .live session handle ∈ ((ad p.shared (p.thread i)).1.pools k).entries ↔
        .live session handle ∈ (p.shared.pools k).entries)
    (hn : ∀ k, (sessions ((ad p.shared (p.thread i)).1.pools k).entries).Nodup)
    (hid : p.shared.nextId ≤ (ad p.shared (p.thread i)).1.nextId)
    (hp : (ad p.shared (p.thread i)).2.pooled = (p.thread i).pooled) :
    Matched (turn ad p i).1 := by
  have hs : ∀ j, ((turn ad p i).1.thread j).pooled = (p.thread j).pooled := by
    intro j
    by_cases hj : j = i
    · subst hj
      rw [turn_thread_self, hp]
    · rw [turn_thread_of_ne ad p hj]
  refine ⟨fun j sa hj => ?_, fun key session handle hm => ?_, h.single.keeps (.inr hp),
    fun key session handle hm => ?_, hn⟩
  · rw [hs] at hj
    exact (hl _ _ _).mpr (h.held j sa hj)
  · obtain ⟨j, hj⟩ := h.owner key session handle ((hl _ _ _).mp hm)
    exact ⟨j, (hs j).trans hj⟩
  · exact (h.bound key session handle ((hl _ _ _).mp hm)).trans_le hid

theorem Exchanged.live_takes {out : PoolEntry} (h : Exchanged s s' key [out] [.live n handle])
    (ho : out.session? = none) (k : κ) (session : ℕ) (a : String) :
    .live session a ∈ (s'.pools k).entries ↔
      .live session a ∈ (s.pools k).entries ∨ (k = key ∧ session = n ∧ a = handle) := by
  by_cases hk : k = key
  · subst hk
    have hne : PoolEntry.live session a ≠ out := by
      rintro rfl
      cases ho
    have hm := h.entries.mem_iff (a := .live session a)
    simpa [hne] using hm
  · rw [h.other k hk]
    simp [hk]

theorem Exchanged.nodup_takes {out : PoolEntry} (h : Exchanged s s' key [out] [.live n handle])
    (hf : n ∉ sessions (s.pools key).entries) (hn : ∀ k, (sessions (s.pools k).entries).Nodup) (k : κ) :
    (sessions (s'.pools k).entries).Nodup := by
  by_cases hk : k = key
  · subst hk
    have hne : (sessions (s.pools k).entries ++ [n]).Nodup :=
      nodup_append.mpr ⟨hn k, nodup_singleton n, by
        intro a ha b hb
        rw [mem_singleton.mp hb]
        rintro rfl
        exact hf ha⟩
    exact (nodup_append.mp (h.sessions_perm.nodup_iff.mpr hne)).1
  · rw [h.other k hk]
    exact hn k

/-- A task is given the sandbox of an entry that has just become live. -/
theorem Matched.takes (h : Matched p) {out : PoolEntry}
    (he : Exchanged p.shared (ad p.shared (p.thread i)).1 key [out] [.live p.shared.nextId handle])
    (hid : (ad p.shared (p.thread i)).1.nextId = p.shared.nextId + 1) (hp : (p.thread i).pooled = none)
    (ho : out.session? = none) (ht : (ad p.shared (p.thread i)).2 = .holding ⟨key, p.shared.nextId, handle⟩) :
    Matched (turn ad p i).1 := by
  have hl := he.live_takes ho
  have hn : (ad p.shared (p.thread i)).2.pooled = some ⟨key, p.shared.nextId, handle⟩ := by
    rw [ht]
    rfl
  have hb : ∀ j a, (p.thread j).pooled = some a → a.session < p.shared.nextId :=
    fun j a hj => h.bound _ _ _ (h.held j a hj)
  have hf : p.shared.nextId ∉ sessions (p.shared.pools key).entries := by
    intro hm
    obtain ⟨a, ha⟩ := mem_sessions.mp hm
    exact lt_irrefl _ (h.bound key _ a ha)
  refine ⟨fun j sa hj => ?_, fun k session a hm => ?_,
    h.single.takes hn fun j a hj => (hb j a hj).ne, fun k session a hm => ?_,
    he.nodup_takes hf h.nodup⟩
  · rcases hold_turn_cases hn hj with ⟨-, rfl⟩ | ⟨-, hol⟩
    · exact (hl _ _ _).mpr (.inr ⟨rfl, rfl, rfl⟩)
    · exact (hl _ _ _).mpr (.inl (h.held j sa hol))
  · rcases (hl _ _ _).mp hm with hm | ⟨rfl, rfl, rfl⟩
    · obtain ⟨j, hj⟩ := h.owner k session a hm
      have hji : j ≠ i := by
        rintro rfl
        rw [hp] at hj
        cases hj
      exact ⟨j, by rw [turn_thread_of_ne ad p hji, hj]⟩
    · exact ⟨i, by rw [turn_thread_self, hn]⟩
  · rw [turn_shared, hid]
    rcases (hl _ _ _).mp hm with hm | ⟨-, rfl, -⟩
    · exact (h.bound k session a hm).trans (Nat.lt_succ_self _)
    · exact Nat.lt_succ_self _

theorem Exchanged.live_gives (h : Exchanged s s' key [.live session handle] into) (hi : sessions into = [])
    (hn : ∀ k, (sessions (s.pools k).entries).Nodup) (k : κ) (session' : ℕ) (a : String) :
    .live session' a ∈ (s'.pools k).entries ↔
      .live session' a ∈ (s.pools k).entries ∧ ¬ (k = key ∧ session' = session) := by
  by_cases hk : k = key
  · subst hk
    have hp := h.sessions_perm
    rw [hi, append_nil] at hp
    have hg : session ∉ sessions (s'.pools k).entries := by
      intro hm
      have hnx := hp.nodup_iff.mpr (hn k)
      exact (nodup_append.mp hnx).2.2 _ hm _ (mem_singleton_self _) rfl
    have hno : .live session' a ∉ into := by
      intro hm
      have := mem_sessions.mpr ⟨a, hm⟩
      rw [hi] at this
      cases this
    have hm := h.entries.mem_iff (a := .live session' a)
    simp only [mem_append, mem_singleton, hno, or_false] at hm
    rw [← hm]
    constructor
    · refine fun hin => ⟨.inl hin, ?_⟩
      rintro ⟨-, rfl⟩
      exact hg (mem_sessions.mpr ⟨a, hin⟩)
    · rintro ⟨hin | heq, hne⟩
      · exact hin
      · cases heq
        exact absurd ⟨rfl, rfl⟩ hne
  · rw [h.other k hk]
    simp [hk]

theorem Matched.gives (h : Matched p) (hp : (p.thread i).pooled = some sa)
    (he : Exchanged p.shared (ad p.shared (p.thread i)).1 sa.key [.live sa.session handle] into)
    (hid : (ad p.shared (p.thread i)).1.nextId = p.shared.nextId) (hi : sessions into = [])
    (hp' : (ad p.shared (p.thread i)).2.pooled = none) : Matched (turn ad p i).1 := by
  have hl := he.live_gives hi h.nodup
  refine ⟨fun j b hj => ?_, fun k session a hm => ?_, h.single.keeps (.inl hp'),
    fun k session a hm => ?_, he.nodup_sessions hi h.nodup⟩
  · have ho := hold_of_hold_turn (.inl hp') hj
    refine (hl _ _ _).mpr ⟨h.held j b ho, fun hs => ?_⟩
    exact ne_of_hold_turn hp' hj (h.single j i b sa ho hp hs.2)
  · obtain ⟨ho, hne⟩ := (hl _ _ _).mp hm
    obtain ⟨j, hj⟩ := h.owner k session a ho
    have hji : j ≠ i := by
      rintro rfl
      obtain rfl := Option.some.inj (hp.symm.trans hj)
      exact hne ⟨rfl, rfl⟩
    exact ⟨j, by rw [turn_thread_of_ne ad p hji, hj]⟩
  · rw [turn_shared, hid]
    exact h.bound k session a ((hl _ _ _).mp hm).1

theorem sessions_eq_nil (h : ∀ e ∈ entries, e.session? = none) : sessions entries = [] :=
  filterMap_eq_nil_iff.mpr h

theorem Matched.after_turn (h : Matched p)
    (hc : Changes poolMax p.shared (p.thread i) (ad p.shared (p.thread i)).1
      (ad p.shared (p.thread i)).2) : Matched (turn ad p i).1 := by
  cases hc with
  | quiet hen hcreated htorn hid hp =>
    exact h.keeps (by simp [hen]) (by simpa [hen] using h.nodup) hid hp
  | takes key out handle hen hid ho htask =>
    rcases ho with ⟨hent, rfl⟩ | ⟨id, hb, rfl⟩
    · exact h.takes hen hid (by rw [hent]; rfl) rfl htask
    · exact h.takes hen hid (by rw [hb]; rfl) rfl htask
  | gives sandbox d handle into hen hid htask hi =>
    have hp : (p.thread i).pooled = some sandbox := by
      rw [htask]
      rfl
    rcases hi with ⟨rfl, htask'⟩ | ⟨rfl, htask'⟩
    all_goals exact h.gives hp hen hid rfl (by rw [htask']; rfl)
  | vanishes sandbox hp hg => exact absurd (h.held i sandbox hp) (hg _)
  | sweeps key sw hen hid htask htask' =>
    have ho : sessions (sw.map .idle) = [] := by
      refine sessions_eq_nil fun e he => ?_
      obtain ⟨a, -, rfl⟩ := mem_map.mp he
      rfl
    exact h.keeps (hen.live_iff ho rfl) (hen.nodup_sessions rfl h.nodup) hid.ge
      (by rw [htask', htask]; rfl)
  | reserves key hroom hen hid htask htask' =>
    exact h.keeps (hen.live_iff rfl rfl) (hen.nodup_sessions rfl h.nodup)
      (by rw [hid]; exact Nat.le_succ _) (by rw [htask', htask]; rfl)
  | unreserves key id handle out ho hen hid htask htask' =>
    have hnone : sessions out = [] := sessions_eq_nil fun e he => by rw [ho e he]; rfl
    exact h.keeps (hen.live_iff hnone rfl) (hen.nodup_sessions rfl h.nodup) hid.ge
      (by rw [htask', htask]; rfl)
  | creates key id handle hs htask htask' | handsOver handle handles next hs htask htask' =>
    exact h.keeps (by simp [hs]) (by simpa [hs] using h.nodup) (by rw [hs])
      (by rw [htask', htask]; rfl)

end AgentiumOs.Sandbox
