import AgentiumOs.Sandbox.Invoker

/-! Which sandbox a session id leads to. The adapters choose the ids, each on its own,
and the invoker keeps one map for all of them: a session stays reachable under its id
exactly as long as no later session is issued the same one. -/

namespace AgentiumOs.Sandbox

open Lib Lib.Interleave

/-! ### Sessions have channels of their own -/

variable {ι : Type} [DecidableEq ι]

/-- The channels of the sessions being opened are checked out, are each with one call
and belong to no session that is open. -/
structure Apart (p : Pool Invoker Point ι) : Prop where
  checked : ∀ i c, (p.thread i).opens = some c → c < p.shared.checkouts
  distinct : Solo Point.opens id p
  unopened : ∀ i c sessionId, (p.thread i).opens = some c → (sessionId, c) ∉ p.shared.openSessions
  opened : ∀ sessionId c, (sessionId, c) ∈ p.shared.openSessions → c < p.shared.checkouts

omit [DecidableEq ι] in
theorem apart_startPool : Apart (startPool : Pool Invoker Point ι) := by
  refine ⟨?_, .of_none fun _ => rfl, ?_, ?_⟩ <;> simp [startPool, Point.opens, Invoker.new]

variable {p : Pool Invoker Point ι} {move : Invoker → Point → Invoker × Point} {i : ι}

theorem Apart.shrink (h : Apart p) (hp : (move p.shared (p.thread i)).2.opens = none ∨
      (move p.shared (p.thread i)).2.opens = (p.thread i).opens)
    (ho : (move p.shared (p.thread i)).1.openSessions ⊆ p.shared.openSessions)
    (hc : (move p.shared (p.thread i)).1.checkouts = p.shared.checkouts) :
    Apart (turn move p i).1 where
  checked j c hj := by
    rw [turn_shared, hc]
    exact h.checked j c (hold_of_hold_turn hp hj)
  distinct := h.distinct.keeps hp
  unopened j c sessionId hj hm :=
    h.unopened j c sessionId (hold_of_hold_turn hp hj) (ho hm)
  opened sessionId c hm := by
    rw [turn_shared, hc]
    exact h.opened sessionId c (ho hm)

theorem Apart.checksOut (h : Apart p) (hp : (move p.shared (p.thread i)).2 = .opening p.shared.checkouts)
    (hs : (move p.shared (p.thread i)).1 = { p.shared with checkouts := p.shared.checkouts + 1 }) :
    Apart (turn move p i).1 := by
  have hn : (move p.shared (p.thread i)).2.opens = some p.shared.checkouts := by
    rw [hp]
    rfl
  refine ⟨fun j c hj => ?_, h.distinct.takes hn fun j c hj => (h.checked j c hj).ne,
    fun j c sessionId hj hm => ?_, fun sessionId c hm => ?_⟩
  · rw [turn_shared, hs]
    rcases hold_turn_cases hn hj with ⟨-, rfl⟩ | ⟨-, ho⟩
    · exact Nat.lt_succ_self _
    · exact (h.checked j c ho).trans (Nat.lt_succ_self _)
  · rw [turn_shared, hs] at hm
    rcases hold_turn_cases hn hj with ⟨-, rfl⟩ | ⟨-, ho⟩
    · exact absurd (h.opened sessionId _ hm) (lt_irrefl _)
    · exact h.unopened j c sessionId ho hm
  · rw [turn_shared, hs] at hm ⊢
    exact (h.opened sessionId c hm).trans (Nat.lt_succ_self _)

variable {channel : ℕ} {sessionId : String}

/-- The channel of a session that was entered is with no call any more. -/
theorem Apart.inserts (h : Apart p) (hi : p.thread i = .issued channel sessionId)
    (hs : (move p.shared (p.thread i)).1 = p.shared.insertSession sessionId channel)
    (hid : (move p.shared (p.thread i)).2 = .idle) : Apart (turn move p i).1 := by
  have ho : (p.thread i).opens = some channel := by
    rw [hi]
    rfl
  have hp : (move p.shared (p.thread i)).2.opens = none := by
    rw [hid]
    rfl
  refine ⟨fun j c hj => ?_, h.distinct.keeps (.inl hp), fun j c id hj hm => ?_, fun id c hm => ?_⟩
  · rw [turn_shared, hs]
    exact h.checked j c (hold_of_hold_turn (.inl hp) hj)
  · have hol := hold_of_hold_turn (.inl hp) hj
    rw [turn_shared, hs] at hm
    rcases List.mem_cons.mp hm with heq | hm
    · obtain ⟨-, rfl⟩ := Prod.mk.inj heq
      exact ne_of_hold_turn hp hj (h.distinct j i c c hol ho rfl)
    · exact h.unopened j c id hol hm
  · rw [turn_shared, hs] at hm ⊢
    rcases List.mem_cons.mp hm with heq | hm
    · obtain ⟨-, rfl⟩ := Prod.mk.inj heq
      exact h.checked i c ho
    · exact h.opened id c hm

variable {m : Move} {s' : Invoker}

theorem Apart.after_turn (h : Apart p)
    (ha : Acts m p.shared (p.thread i) (move p.shared (p.thread i)).1 (move p.shared (p.thread i)).2) :
    Apart (turn move p i).1 := by
  cases ha with
  | quiet hs hc ho
  | receives channel id r rest haw hr hs hc ho =>
    exact h.shrink ho (hs.openSessions ▸ List.Subset.refl _) hs.checkouts
  | checksOut hst hp => exact h.checksOut hp hst
  | sends channel hm hse hst ho =>
    exact h.shrink ho (hst ▸ List.Subset.refl _) (hst ▸ rfl)
  | inserts channel sessionId hi hst hp => exact h.inserts hi hst hp
  | removes channel sessionId hl hs hc ho =>
    exact h.shrink (.inl ho) (hs.openSessions ▸ List.filter_subset_self _) hs.checkouts

omit [DecidableEq ι] in
theorem Apart.after_answer (h : Apart p) (channel id : ℕ) (result : Option SessionResult) :
    Apart ({ p with shared := answer p.shared channel id result } : Pool Invoker Point ι) := by
  unfold answer
  split_ifs
  · exact ⟨h.checked, h.distinct, h.unopened, h.opened⟩
  · exact h

/-- Every session that was opened and neither finished nor aborted is found under its
id, in the sandbox that issued it. -/
def Routed (s : Invoker) : Prop :=
  ∀ sessionId channel, (sessionId, channel) ∈ s.openSessions → s.sessions.lookup sessionId = some channel

/-- A session about to be entered has an id that no open session has. -/
def IssuesFresh (p : Pool Invoker Point ι) : InvokerOp ι → Prop
  | .call thread .proceed =>
      match p.thread thread with
      | .issued _ sessionId => ∀ channel, (sessionId, channel) ∉ p.shared.openSessions
      | _ => True
  | _ => True

variable {s : Invoker}

theorem Routed.removeSession (h : Routed s) (hl : s.sessions.lookup sessionId = some channel) :
    Routed (s.removeSession sessionId channel) := by
  intro id c hm
  obtain ⟨ho, hne⟩ := List.mem_filter.mp hm
  have hid : id ≠ sessionId := by
    rintro rfl
    have : c = channel := Option.some.inj ((h id c ho).symm.trans hl)
    simp [this] at hne
  rw [Invoker.removeSession, Finmap.lookup_erase_ne hid]
  exact h id c ho

theorem routed_insertSession_iff (h : Routed s) (hc : ∀ id, (id, channel) ∉ s.openSessions) :
    Routed (s.insertSession sessionId channel) ↔ ∀ c, (sessionId, c) ∉ s.openSessions := by
  constructor
  · intro hr c hm
    have hf := hr sessionId c (List.mem_cons_of_mem _ hm)
    rw [Invoker.insertSession, Finmap.lookup_insert] at hf
    cases hf
    exact hc sessionId hm
  · intro hfr id c hm
    rcases List.mem_cons.mp hm with heq | ho
    · obtain ⟨rfl, rfl⟩ := Prod.mk.inj heq
      exact Finmap.lookup_insert _
    · have hid : id ≠ sessionId := by
        rintro rfl
        exact hfr c ho
      rw [Invoker.insertSession, Finmap.lookup_insert_of_ne _ hid]
      exact h id c ho

theorem SameSessions.routed (hs : SameSessions s s') (h : Routed s) : Routed s' := by
  rw [Routed, hs.sessions, hs.openSessions]
  exact h

theorem Acts.routed (ha : Acts m s t s' t') (h : Routed s) (hp : ∀ channel sessionId, t ≠ .issued channel sessionId) :
    Routed s' := by
  cases ha with
  | quiet hs | receives channel id r rest haw hr hs => exact hs.routed h
  | checksOut hst | sends channel hm hse hst =>
    subst hst
    exact h
  | inserts channel sessionId hi => exact absurd hi (hp channel sessionId)
  | removes channel sessionId hl hs =>
    exact hs.routed (h.removeSession hl)

variable (reuseAfterSession : Bool)

theorem Apart.step (h : Apart p) (op : InvokerOp ι) : Apart (invokerStep reuseAfterSession p op).1 := by
  cases op with
  | call thread move => exact h.after_turn (acts_advance reuseAfterSession _ _ move)
  | answer channel id result => exact h.after_answer channel id result

theorem Routed.answer (h : Routed s) (channel id : ℕ) (r : Option SessionResult) :
    Routed (answer s channel id r) := by
  unfold Sandbox.answer
  split_ifs
  · exact h
  · exact h

theorem routed_step_iff (ha : Apart p) (h : Routed p.shared) (op : InvokerOp ι) :
    Routed (invokerStep reuseAfterSession p op).1.shared ↔ IssuesFresh p op := by
  cases op with
  | answer channel id result => exact iff_of_true (h.answer channel id result) trivial
  | call t move =>
    by_cases hi : ∃ channel sessionId, p.thread t = .issued channel sessionId
    · obtain ⟨channel, sessionId, hi⟩ := hi
      rw [invokerStep, turn_shared, hi]
      cases move with
      | proceed =>
        simp only [IssuesFresh, hi]
        refine routed_insertSession_iff h fun id => ha.unopened t channel id ?_
        rw [hi]
        rfl
      | _ => exact iff_of_true h trivial
    · push Not at hi
      refine iff_of_true ((acts_advance reuseAfterSession _ _ move).routed h hi) ?_
      cases move with
      | proceed =>
        simp [IssuesFresh]
      | _ => trivial

/-- In a run of concurrent opens, finishes and aborts every open session stays routed to
the sandbox that issued its id exactly when no adapter issues the id of a session that is
still open. -/
theorem open_sessions_routed_iff (ops : List (InvokerOp ι)) : (∀ pre, pre <+: ops →
      Routed (Run.exec (invokerStep reuseAfterSession) startPool pre).shared) ↔
    Run.Along (invokerStep reuseAfterSession) IssuesFresh startPool ops := by
  refine Run.forall_isPrefix_iff_along (invokerStep reuseAfterSession) IssuesFresh Apart
    (fun p => Routed p.shared) ?_ ?_ startPool apart_startPool ?_ ops
  · exact fun p op hp => hp.step reuseAfterSession op
  · exact fun p op hp hr => routed_step_iff reuseAfterSession hp hr op
  · intro sessionId channel h
    exact absurd h (List.not_mem_nil)

/-- Two adapters that number their sessions from one. -/
def twoOpens : List (InvokerOp ℕ) :=
  [.call 0 (.start .sessionOpen), .call 1 (.start .sessionOpen), .call 0 .proceed, .call 1 .proceed,
    .answer 0 1 (some ⟨some "1", none, none⟩), .answer 1 2 (some ⟨some "1", none, none⟩),
    .call 0 .receive, .call 1 .receive, .call 0 .proceed, .call 1 .proceed]

/-- The second session takes the place of the first, which is still open and can be
neither read nor finished. -/
theorem repeated_id_hides_session :
    ("1", 0) ∈ (Run.exec (invokerStep false) startPool twoOpens).shared.openSessions ∧
    (Run.exec (invokerStep false) startPool twoOpens).shared.sessions.lookup "1" = some 1 ∧
    ¬ Routed (Run.exec (invokerStep false) startPool twoOpens).shared := by
  have ho : ("1", 0) ∈ (Run.exec (invokerStep false) startPool twoOpens).shared.openSessions := by
    decide +kernel
  have hl : (Run.exec (invokerStep false) startPool twoOpens).shared.sessions.lookup "1" = some 1 := by
    decide +kernel
  refine ⟨ho, hl, fun hr => ?_⟩
  have hf := hr "1" 0 ho
  exact absurd hf (by decide)

end AgentiumOs.Sandbox
