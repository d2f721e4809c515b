import AgentiumOs.Lib.Run
import AgentiumOs.Updates.Session

/-! Exactly-once delivery of task updates. As long as frames are committed and
broadcast in cursor order, what a session has delivered is the window of the store
between the cursor it was opened from and the last one it delivered, and every
frame it has passed over lies in that window or before it. -/

namespace AgentiumOs.Updates

open Lib Lib.Ordered TaskUpdateFrame TaskUpdateSession

/-! ### The condition on steps -/

/-- The read under way, if there is one, has still to query frames of this kind. -/
def SessionState.openTo (frame : TaskUpdateFrame) : SessionState → Bool
  | .reading _ (.artifacts _) => !frame.isMessage
  | .reading _ (.statuses _ _) => frame.isStatus
  | _ => true

/-- Commits and broadcasts come in cursor order; a commit does not slip behind a
query of a read under way; the channel is retired by the last frame; reads do not
fail. -/
def SafeStep (s : UpdateSystem) : UpdateStep → Prop
  | .commit cursor =>
      (∀ frame ∈ s.allocated, cursor ≤ frame.cursor) ∧
        ∀ session ∈ s.session, session.attached ∧
          ∀ frame ∈ s.allocated, frame.cursor = cursor → session.state.openTo frame
  | .broadcast cursor =>
      (∀ frame ∈ s.unsent, cursor ≤ frame.cursor) ∧
        ∀ frame ∈ s.unsent, frame.cursor = cursor → frame.isTerminal → s.unsent = [frame]
  | .poll fault => fault = false
  | _ => True

instance (s : UpdateSystem) (step : UpdateStep) : Decidable (SafeStep s step) := by
  cases step <;> unfold SafeStep <;> infer_instance

/-- The queries a read has made give what the store has after `last` now. -/
def ReplayRead.Ok (committed : List TaskUpdateFrame) (last : Option TaskReplayCursor) : ReplayRead → Prop
  | .messages => True
  | .artifacts ms => ms.Perm (committed.filter fun f => f.isMessage && after cursor last f)
  | .statuses ms arts =>
      ms.Perm (committed.filter fun f => f.isMessage && after cursor last f) ∧
        arts.Perm (committed.filter fun f => f.isArtifact && after cursor last f)

/-- No frame that has left the queue is lost in the state the session is in. -/
def SessionState.Caught (committed handled : List TaskUpdateFrame) (last : Option TaskReplayCursor) :
    SessionState → Prop
  | .reading _ read => read.Ok committed last
  | .replaying stream =>
      (∃ later, committed.filter (after cursor last) = stream ++ later) ∧
        ∀ f ∈ handled, after cursor last f → f ∈ stream
  | .live => ∀ f ∈ handled, ¬ after cursor last f
  | .closed => ∀ f ∈ handled, ¬ after cursor last f

structure SessionOk (committed unsent : List TaskUpdateFrame) (session : TaskUpdateSession) : Prop where
  last : session.lastCursor = session.since ∨ ∃ f ∈ committed, session.lastCursor = some f.cursor
  start : ∀ f, after cursor session.lastCursor f → after cursor session.since f
  delivered : session.delivered = window cursor session.since session.lastCursor committed
  caught : ∃ handled, committed = handled ++ session.queue ++ unsent ∧
    session.state.Caught committed handled session.lastCursor
  detached : session.attached = false → unsent = []
  closed : session.state = .closed → session.queue = [] ∧ session.attached = false

structure SystemOk (s : UpdateSystem) : Prop where
  committed : Increasing cursor s.committed
  allocated : Increasing cursor s.allocated
  later : ∀ f ∈ s.committed, ∀ g ∈ s.allocated, f.cursor < g.cursor
  committed_lt : ∀ f ∈ s.committed, f.cursor < .fromCounter s.nextCounter
  allocated_lt : ∀ f ∈ s.allocated, f.cursor < .fromCounter s.nextCounter
  sent : ∃ sent, s.committed = sent ++ s.unsent
  session : ∀ session, s.session = some session → SessionOk s.committed s.unsent session

theorem systemOk_fresh (co : ℕ) : SystemOk (.fresh co) where
  committed := List.Pairwise.nil
  allocated := List.Pairwise.nil
  later := by simp [UpdateSystem.fresh]
  committed_lt := by simp [UpdateSystem.fresh]
  allocated_lt := by simp [UpdateSystem.fresh]
  sent := ⟨[], rfl⟩
  session := by simp [UpdateSystem.fresh]

variable {frame : TaskUpdateFrame} {rest committed unsent : List TaskUpdateFrame}
  {session session' : TaskUpdateSession} {s : UpdateSystem} {fr : List TaskUpdateFrame}
  {last : Option TaskReplayCursor} {c : TaskReplayCursor}

theorem takeFrame_some (h : takeFrame fr c = some (frame, rest)) :
    frame ∈ fr ∧ frame.cursor = c ∧ rest = fr.filter fun o => o.cursor ≠ c := by
  obtain ⟨found, hf, heq⟩ := Option.map_eq_some_iff.mp h
  obtain ⟨rfl, rfl⟩ := Prod.mk.inj heq
  exact ⟨List.mem_of_find?_eq_some hf, by simpa using List.find?_some hf, rfl⟩

theorem takeFrame_first (h : takeFrame fr c = some (frame, rest))
    (hi : Increasing cursor fr) (hfi : ∀ f ∈ fr, c ≤ f.cursor) : fr = frame :: rest := by
  obtain ⟨hm, rfl, rfl⟩ := takeFrame_some h
  cases fr with
  | nil => cases hm
  | cons head tail =>
    obtain ⟨hh, -⟩ := List.pairwise_cons.mp hi
    have heq : head = frame := by
      obtain heq | ht := List.mem_cons.mp hm
      · exact heq.symm
      · exact absurd (hfi head List.mem_cons_self) (hh frame ht).not_ge
    subst heq
    have hk : tail.filter (fun o => decide (o.cursor ≠ head.cursor)) = tail :=
      List.filter_eq_self.mpr fun f hf => by simpa using (hh f hf).ne'
    rw [List.filter_cons_of_neg (by simp), hk]

theorem queryReplay_perm (committed : List TaskUpdateFrame) (last : Option TaskReplayCursor)
    (k : TaskUpdateFrame → Bool) :
    (queryReplay committed last k).Perm (committed.filter fun f => k f && after cursor last f) :=
  List.mergeSort_perm ..

theorem kind_cases (f : TaskUpdateFrame) : f.isMessage = true ∧ f.isArtifact = false ∧ f.isStatus = false ∨
      f.isMessage = false ∧ f.isArtifact = true ∧ f.isStatus = false ∨
      f.isMessage = false ∧ f.isArtifact = false ∧ f.isStatus = true := by
  unfold isMessage isArtifact isStatus
  cases f.fact <;> simp

theorem kinds_perm (l : List TaskUpdateFrame) (p : TaskUpdateFrame → Bool) :
    ((l.filter fun f => f.isMessage && p f) ++ (l.filter fun f => f.isArtifact && p f) ++
      l.filter fun f => f.isStatus && p f).Perm (l.filter p) := by
  induction l with
  | nil => exact .refl _
  | cons f rest ih =>
    cases hp : p f with
    | false => simpa [hp] using ih
    | true =>
      obtain ⟨hm, ha, hs⟩ | ⟨hm, ha, hs⟩ | ⟨hm, ha, hs⟩ := kind_cases f
      · simp only [List.filter_cons, hm, ha, hs, hp]
        exact ih.cons f
      · simp only [List.filter_cons, hm, ha, hs, hp, Bool.true_and, Bool.false_and, Bool.false_eq_true,
          if_true, if_false, List.append_assoc, List.cons_append]
        refine List.perm_middle.trans (.cons f ?_)
        simpa only [List.append_assoc] using ih
      · simp only [List.filter_cons, hm, ha, hs, hp]
        exact List.perm_middle.trans (ih.cons f)

theorem merged_eq (hi : Increasing cursor committed) (h : (ReplayRead.statuses ms arts).Ok committed last) :
    (ms ++ arts ++ queryReplay committed last isStatus).mergeSort
        (fun a b => decide (a.cursor ≤ b.cursor)) = committed.filter (after cursor last) := by
  refine (hi.filter _).mergeSort_eq ?_
  exact ((h.1.append h.2).append (queryReplay_perm committed last isStatus)).trans
    (kinds_perm committed (after cursor last))

theorem pollRead_ok {o : Bool} {r : ReplayRead} (hi : Increasing cursor committed)
    (h : SessionOk committed unsent session) (hst : session.state = .reading o r) :
    SessionOk committed unsent (session.pollRead committed o r) := by
  obtain ⟨han, hs, hc⟩ := h.caught
  rw [hst] at hc
  cases r with
  | messages =>
    exact { h with
      caught := ⟨han, hs, queryReplay_perm committed _ isMessage⟩
      closed := by rintro ⟨⟩ }
  | artifacts ms =>
    exact { h with
      caught := ⟨han, hs, hc, queryReplay_perm committed _ isArtifact⟩
      closed := by rintro ⟨⟩ }
  | statuses ms arts =>
    have hm := merged_eq hi hc
    refine { h with caught := ⟨han, hs, ?_⟩, closed := by rintro ⟨⟩ }
    simp only [pollRead, hm]
    refine ⟨⟨[], (List.append_nil _).symm⟩, fun f hf ha => ?_⟩
    exact List.mem_filter.mpr ⟨by rw [hs]; simp [hf], ha⟩

theorem deliver_window (hi : Increasing cursor committed) (h : SessionOk committed unsent session)
    (hfi : committed.filter (after cursor session.lastCursor) = frame :: later) :
    (∃ f ∈ committed, some frame.cursor = some f.cursor) ∧
      (∀ f, after cursor (some frame.cursor) f → after cursor session.since f) ∧
      session.delivered ++ [frame] = window cursor session.since (some frame.cursor) committed ∧
      committed.filter (after cursor (some frame.cursor)) = later := by
  have hm : frame ∈ committed.filter (after cursor session.lastCursor) := by
    rw [hfi]
    exact List.mem_cons_self
  obtain ⟨hc, ha⟩ := List.mem_filter.mp hm
  obtain ⟨hl, hw⟩ := hi.advance hfi h.start
  refine ⟨⟨frame, hc, rfl⟩, fun f hf => ?_, by rw [hw, h.delivered], hl⟩
  exact h.start f (after_of_lt ha (by simpa [after] using hf))

theorem pollReplaying_ok (hi : Increasing cursor committed) (h : SessionOk committed unsent session)
    (hs : session.state = .replaying (frame :: stream)) :
    SessionOk committed unsent ({ session with state := .replaying stream }.deliver frame) := by
  obtain ⟨han, hsp, hc⟩ := h.caught
  rw [hs] at hc
  obtain ⟨⟨l, hl⟩, hh⟩ := hc
  obtain ⟨hla, hst, hw, hr⟩ := deliver_window hi h hl
  refine
    { last := .inr hla, start := hst, delivered := hw, detached := h.detached
      caught := ⟨han, hsp, ⟨l, hr⟩, fun f hf ha => ?_⟩, closed := by rintro ⟨⟩ }
  -- a frame after the one delivered was after the last cursor too, and is another frame
  have hfr : after cursor session.lastCursor frame := by
    have hm : frame ∈ committed.filter (after cursor session.lastCursor) := by simp [hl]
    exact (List.mem_filter.mp hm).2
  have hlt : frame.cursor < f.cursor := by simpa [after, deliver] using ha
  have hm := hh f hf (after_of_lt hfr hlt)
  obtain rfl | hm := List.mem_cons.mp hm
  · exact absurd hlt (lt_irrefl _)
  · exact hm

/-- The next frame of the channel is delivered when it is after the last cursor, else skipped; either
way it is dealt with. -/
theorem pollQueue_ok {queue : List TaskUpdateFrame} (hi : Increasing cursor committed)
    (h : SessionOk committed unsent session) (hst : session.state = .live)
    (hq : session.queue = frame :: queue) :
    SessionOk committed unsent
      (if after cursor session.lastCursor frame then { session with queue }.deliver frame
        else { session with queue }) := by
  obtain ⟨han, hs, hc⟩ := h.caught
  rw [hst] at hc
  have hs' : committed = han ++ frame :: (queue ++ unsent) := by
    rw [hs, hq]
    simp
  have ho : session.state ≠ .closed := by simp [hst]
  by_cases ha : after cursor session.lastCursor frame
  · rw [if_pos ha]
    have hf := Increasing.filter_after_eq (hs' ▸ hi) hc ha
    rw [← hs'] at hf
    obtain ⟨hl, hsta, hw, -⟩ := deliver_window hi h hf
    refine
      { last := .inr hl, start := hsta, delivered := hw, detached := h.detached
        caught := ⟨han ++ [frame], by simp [hs', deliver], ?_⟩
        closed := fun hcl => absurd hcl ho }
    simp only [hst]
    exact not_after_advance hc ha
  · rw [if_neg ha]
    refine { h with caught := ⟨han ++ [frame], by simp [hs'], ?_⟩
                    closed := fun hcl => absurd hcl ho }
    simp only [hst]
    exact not_after_concat hc ha

theorem pollLive_ok (capacity : ℕ) (hi : Increasing cursor committed)
    (h : SessionOk committed unsent session) (hst : session.state = .live) :
    SessionOk committed unsent (session.pollLive capacity) := by
  obtain ⟨han, hs, hc⟩ := h.caught
  rw [hst] at hc
  unfold pollLive
  by_cases hl : session.queue.length > capacity
  · rw [if_pos hl]
    refine { h with caught := ⟨han ++ session.queue.take (session.queue.length - capacity), ?_, trivial⟩
                    closed := by rintro ⟨⟩ }
    rw [List.append_assoc han, List.take_append_drop]
    exact hs
  · rw [if_neg hl]
    cases hq : session.queue with
    | nil =>
      split_ifs with ha
      · exact h
      · rw [hq] at hs
        refine { h with caught := ⟨han, hs, hc⟩, closed := fun _ => ⟨rfl, ?_⟩ }
        simpa using ha
    | cons frame queue => exact pollQueue_ok hi h hst hq

theorem poll_ok (capacity : ℕ) (hi : Increasing cursor committed)
    (h : SessionOk committed unsent session) (hp : session.poll capacity committed false = some session') :
    SessionOk committed unsent session' := by
  unfold TaskUpdateSession.poll at hp
  cases hs : session.state with
  | reading opening read =>
    simp only [hs, Bool.false_eq_true, if_false, Option.some.injEq] at hp
    exact hp ▸ pollRead_ok hi h hs
  | replaying st =>
    cases st with
    | nil =>
      simp only [hs, Option.some.injEq] at hp
      obtain ⟨han, hsp, hc⟩ := h.caught
      rw [hs] at hc
      subst hp
      refine { h with caught := ⟨han, hsp, fun f hf ha => ?_⟩, closed := by rintro ⟨⟩ }
      cases hc.2 f hf ha
    | cons frame st =>
      simp only [hs, Option.some.injEq] at hp
      exact hp ▸ pollReplaying_ok hi h hs
  | live =>
    simp only [hs, Option.some.injEq] at hp
    exact hp ▸ pollLive_ok capacity hi h hs
  | closed =>
    simp only [hs, Option.some.injEq] at hp
    exact hp ▸ h

/-! ### Commits and broadcasts -/

theorem receive_ok (h : SessionOk committed (frame :: rest) session) (ht : frame.isTerminal → rest = []) :
    SessionOk committed rest (session.receive frame) := by
  have ha : session.attached = true := by
    by_contra hd
    cases h.detached (by simpa using hd)
  obtain ⟨han, hs, hc⟩ := h.caught
  unfold receive
  rw [if_pos ha]
  refine { h with
    caught := ⟨han, by simp [hs], hc⟩
    detached := fun hr => ht (by simpa using hr)
    closed := fun hcl => ?_ }
  rw [(h.closed hcl).2] at ha
  cases ha

/-- A commit that no query of the read under way should have seen. -/
theorem Caught.commit {han : List TaskUpdateFrame} {st : SessionState}
    (h : st.Caught committed han last) (ho : st.openTo frame) :
    st.Caught (committed ++ [frame]) han last := by
  have hf : ∀ kind : TaskUpdateFrame → Bool, kind frame = false →
      (committed ++ [frame]).filter (fun f => kind f && after cursor last f) =
        committed.filter fun f => kind f && after cursor last f := by
    intro kind hk
    rw [List.filter_append, List.filter_cons_of_neg (by simp [hk]), List.filter_nil, List.append_nil]
  match st with
  | .live | .closed | .reading _ .messages => exact h
  | .replaying stream =>
    obtain ⟨⟨l, hl⟩, hh⟩ := h
    refine ⟨⟨l ++ [frame].filter (after cursor last), ?_⟩, hh⟩
    rw [List.filter_append, hl, List.append_assoc]
  | .reading _ (.artifacts ms) =>
    have hme : ms.Perm _ := h
    rw [← hf isMessage (by simpa [SessionState.openTo] using ho)] at hme
    exact hme
  | .reading _ (.statuses ms arts) =>
    obtain ⟨hme, har⟩ := h
    have hst : frame.isStatus = true := ho
    obtain ⟨hm, ha⟩ : frame.isMessage = false ∧ frame.isArtifact = false := by
      obtain ⟨-, -, hs⟩ | ⟨-, -, hs⟩ | ⟨hm, ha, -⟩ := kind_cases frame
      · rw [hs] at hst
        cases hst
      · rw [hs] at hst
        cases hst
      · exact ⟨hm, ha⟩
    rw [← hf isMessage hm] at hme
    rw [← hf isArtifact ha] at har
    exact ⟨hme, har⟩

theorem commit_ok (h : SessionOk committed unsent session) (ha : session.attached = true)
    (ho : session.state.openTo frame) (hn : ∀ f ∈ committed, f.cursor < frame.cursor) :
    SessionOk (committed ++ [frame]) (unsent ++ [frame]) session := by
  obtain ⟨han, hsp, hc⟩ := h.caught
  have haf : after cursor session.since frame → after cursor session.lastCursor frame := by
    intro hs
    obtain hl | ⟨f, hf, hl⟩ := h.last
    · rwa [hl]
    · rw [hl]
      simpa [after] using hn f hf
  refine
    { last := h.last.imp_right (Exists.imp fun _ hf => hf.imp_left (List.mem_append_left _))
      start := h.start, closed := h.closed
      caught := ⟨han, by simp [hsp], Caught.commit hc ho⟩
      delivered := ?_
      detached := fun hd => absurd (ha.symm.trans hd) (by simp) }
  have hou : window cursor session.since session.lastCursor [frame] = [] := by
    refine List.filter_eq_nil_iff.mpr fun f hf => ?_
    rw [List.mem_singleton.mp hf]
    by_cases hs : after cursor session.since frame
    · simp [haf hs]
    · simp [hs]
  rw [h.delivered]
  rw [window] at hou ⊢
  rw [window, List.filter_append, hou, List.append_nil]

theorem SystemOk.allocate (h : SystemOk s) (fact : TaskFact) : SystemOk { s with
      nextCounter := s.nextCounter + 1
      allocated := s.allocated ++ [⟨fact, .fromCounter s.nextCounter⟩] } := by
  have hm : TaskReplayCursor.fromCounter s.nextCounter < .fromCounter (s.nextCounter + 1) :=
    Prod.Lex.toLex_lt_toLex.mpr (.inl (Nat.lt_succ_self _))
  refine { h with
    allocated := h.allocated.concat h.allocated_lt
    later := fun f hf g hg => ?_
    committed_lt := fun f hf => (h.committed_lt f hf).trans hm
    allocated_lt := fun f hf => ?_ }
  · obtain hg | hg := List.mem_append.mp hg
    · exact h.later f hf g hg
    · rw [List.mem_singleton.mp hg]
      exact h.committed_lt f hf
  · obtain hf | hf := List.mem_append.mp hf
    · exact (h.allocated_lt f hf).trans hm
    · rw [List.mem_singleton.mp hf]
      exact hm

theorem SystemOk.commit (h : SystemOk s) {allocated : List TaskUpdateFrame} (hs : s.allocated = frame :: allocated)
    (hse : ∀ session, s.session = some session → session.attached = true ∧ session.state.openTo frame) :
    SystemOk { s with allocated, committed := s.committed ++ [frame], unsent := s.unsent ++ [frame] } := by
  have hm : frame ∈ s.allocated := hs ▸ List.mem_cons_self
  have hsu : ∀ g ∈ allocated, g ∈ s.allocated := fun g hg => hs ▸ List.mem_cons_of_mem frame hg
  have hn : ∀ f ∈ s.committed, f.cursor < frame.cursor := fun f hf => h.later f hf frame hm
  have hr := List.pairwise_cons.mp (hs ▸ h.allocated)
  obtain ⟨sent, hsn⟩ := h.sent
  refine
    { committed := h.committed.concat hn, allocated := hr.2
      later := fun f hf g hg => ?_
      committed_lt := fun f hf => ?_
      allocated_lt := fun f hf => h.allocated_lt f (hsu f hf)
      sent := ⟨sent, by simp [hsn]⟩
      session := fun session ho => ?_ }
  · obtain hf | hf := List.mem_append.mp hf
    · exact h.later f hf g (hsu g hg)
    · rw [List.mem_singleton.mp hf]
      exact hr.1 g hg
  · obtain hf | hf := List.mem_append.mp hf
    · exact h.committed_lt f hf
    · rw [List.mem_singleton.mp hf]
      exact h.allocated_lt frame hm
  · obtain ⟨ha, hop⟩ := hse session ho
    exact commit_ok (h.session session ho) ha hop hn

theorem SystemOk.broadcast (h : SystemOk s) (hs : s.unsent = frame :: unsent)
    (ht : frame.isTerminal → unsent = []) :
    SystemOk { s with unsent, session := s.session.map fun session => session.receive frame } := by
  obtain ⟨sent, hse⟩ := h.sent
  refine { h with sent := ⟨sent ++ [frame], by simp [hse, hs]⟩, session := fun session ho => ?_ }
  obtain ⟨b, hb, rfl⟩ := Option.map_eq_some_iff.mp ho
  exact receive_ok (hs ▸ h.session b hb) ht

/-- Everything sent before the subscription counts as handled: the read will find it. -/
theorem SystemOk.subscribe (h : SystemOk s) (si : Option TaskReplayCursor) :
    SystemOk { s with session := some (.subscribe si) } := by
  refine { h with session := fun session ho => ?_ }
  cases ho
  obtain ⟨sent, hs⟩ := h.sent
  refine
    { last := .inl rfl, start := fun _ hf => hf, delivered := ?_, detached := by rintro ⟨⟩
      caught := ⟨sent, by simp [hs, TaskUpdateSession.subscribe], trivial⟩
      closed := by rintro ⟨⟩ }
  refine (List.filter_eq_nil_iff.mpr fun f _ => ?_).symm
  simp [TaskUpdateSession.subscribe]

theorem updateStep_ok (capacity : ℕ) (step : UpdateStep) (hs : SafeStep s step) (h : SystemOk s) :
    SystemOk (updateStep capacity s step).1 := by
  cases step with
  | allocate fact => exact h.allocate fact
  | abandon c =>
    exact { h with
      allocated := h.allocated.filter _
      later := fun f hf g hg => h.later f hf g (List.mem_of_mem_filter hg)
      allocated_lt := fun f hf => h.allocated_lt f (List.mem_of_mem_filter hf) }
  | commit c =>
    obtain ⟨hfi, hse⟩ := hs
    simp only [updateStep]
    cases ht : takeFrame s.allocated c with
    | none => exact h
    | some t =>
      obtain ⟨frame, allocated⟩ := t
      obtain ⟨hm, hc, -⟩ := takeFrame_some ht
      refine h.commit (takeFrame_first ht h.allocated hfi) fun session ho => ?_
      obtain ⟨ha, hop⟩ := hse session ho
      exact ⟨ha, hop frame hm hc⟩
  | broadcast c =>
    obtain ⟨hfi, hte⟩ := hs
    simp only [updateStep]
    cases ht : takeFrame s.unsent c with
    | none => exact h
    | some t =>
      obtain ⟨frame, unsent⟩ := t
      obtain ⟨hm, hc, -⟩ := takeFrame_some ht
      obtain ⟨sent, hsn⟩ := h.sent
      have hi : Increasing cursor (sent ++ s.unsent) := hsn ▸ h.committed
      have hsp := takeFrame_first ht (List.pairwise_append.mp hi).2.1 hfi
      refine h.broadcast hsp fun hl => ?_
      have hsi := hte frame hm hc hl
      rw [hsp] at hsi
      exact (List.cons.inj hsi).2
  | openSession si =>
    simp only [updateStep]
    cases s.session with
    | some session => exact h
    | none => exact h.subscribe si
  | poll fault =>
    cases hs
    refine { h with session := fun session ho => ?_ }
    obtain ⟨b, hb, hp⟩ := Option.bind_eq_some_iff.mp ho
    exact poll_ok capacity h.committed (h.session b hb) hp

/-- Polled often enough while nothing is sent, the session is drained. -/
inductive Drains (capacity : ℕ) (committed : List TaskUpdateFrame) : TaskUpdateSession → Prop
  | done {session : TaskUpdateSession} : session.Drained → Drains capacity committed session
  | poll {session next : TaskUpdateSession} : session.poll capacity committed false = some next →
      Drains capacity committed next → Drains capacity committed session

section Draining

variable {capacity : ℕ} {co q : List TaskUpdateFrame}

theorem drains_replaying (hl : ∀ session : TaskUpdateSession, session.queue = q → session.state = .live →
      Drains capacity co session)
    (stream : List TaskUpdateFrame) (session : TaskUpdateSession) (hq : session.queue = q)
    (hs : session.state = .replaying stream) : Drains capacity co session := by
  induction stream generalizing session with
  | nil =>
    refine .poll ?_ (hl { session with state := .live } hq rfl)
    simp [TaskUpdateSession.poll, hs]
  | cons frame stream ih =>
    refine .poll ?_ (ih ({ session with state := .replaying stream }.deliver frame) hq rfl)
    simp [TaskUpdateSession.poll, hs]

theorem drains_reading (hl : ∀ session : TaskUpdateSession, session.queue = q → session.state = .live →
      Drains capacity co session)
    (o : Bool) (r : ReplayRead) (session : TaskUpdateSession) (hq : session.queue = q)
    (hs : session.state = .reading o r) : Drains capacity co session := by
  have hst : ∀ session : TaskUpdateSession, session.queue = q → ∀ ms ar,
      session.state = .reading o (.statuses ms ar) → Drains capacity co session := by
    intro session hq ms ar hs
    refine .poll (by simp only [TaskUpdateSession.poll, hs]; rfl) ?_
    exact drains_replaying hl _ _ hq rfl
  have ha : ∀ session : TaskUpdateSession, session.queue = q → ∀ ms,
      session.state = .reading o (.artifacts ms) → Drains capacity co session := by
    intro session hq ms hs
    refine .poll (by simp only [TaskUpdateSession.poll, hs]; rfl) ?_
    exact hst _ hq _ _ rfl
  cases r with
  | messages =>
    refine .poll (by simp only [TaskUpdateSession.poll, hs]; rfl) ?_
    exact ha _ hq _ rfl
  | artifacts ms => exact ha session hq ms hs
  | statuses ms ar => exact hst session hq ms ar hs

variable (session : TaskUpdateSession)

theorem drains_live_of_le (hq : session.queue = q) (hl : q.length ≤ capacity) (hs : session.state = .live) :
    Drains capacity co session := by
  induction q generalizing session with
  | nil => exact .done (.inr ⟨hs, hq⟩)
  | cons frame rest ih =>
    have hla : ¬ session.queue.length > capacity := by
      rw [hq]
      exact hl.not_gt
    have hr : rest.length ≤ capacity := (Nat.le_succ _).trans hl
    refine .poll (by simp only [TaskUpdateSession.poll, hs]; rfl) ?_
    unfold pollLive
    rw [if_neg hla, hq]
    simp only
    split_ifs
    all_goals exact ih _ rfl hr hs

/-- After a lag the queue fits the channel, so there is no second one. -/
theorem drains_live (hs : session.state = .live) : Drains capacity co session := by
  by_cases hla : session.queue.length > capacity
  · refine .poll (by simp only [TaskUpdateSession.poll, hs]; rfl) ?_
    unfold pollLive
    rw [if_pos hla]
    refine drains_reading (fun l hq hl => ?_) false .messages _ rfl rfl
    refine drains_live_of_le l hq ?_ hl
    rw [List.length_drop]
    omega
  · exact drains_live_of_le session rfl (not_lt.mp hla) hs

theorem drains : Drains capacity co session := by
  cases hs : session.state with
  | reading opening read =>
    exact drains_reading (fun live _ hl => drains_live live hl) opening read session rfl hs
  | replaying st =>
    exact drains_replaying (fun live _ hl => drains_live live hl) st session rfl hs
  | live => exact drains_live session hs
  | closed => exact .done (.inl hs)

end Draining

/-- When every frame is committed and broadcast and the session is drained, it has
passed over nothing that lies after its last cursor. -/
theorem SystemOk.delivered_eq (h : SystemOk s) (hse : s.session = some session) (hsn : s.unsent = [])
    (hd : session.Drained) : session.delivered = s.committed.filter (after cursor session.since) := by
  have hok := h.session session hse
  obtain ⟨ha, hs, hc⟩ := hok.caught
  have hq : session.queue = [] ∧ ∀ f ∈ ha, ¬ after cursor session.lastCursor f := by
    obtain hcl | ⟨hl, hq⟩ := hd
    · rw [hcl] at hc
      exact ⟨(hok.closed hcl).1, hc⟩
    · rw [hl] at hc
      exact ⟨hq, hc⟩
  rw [hq.1, hsn, List.append_nil, List.append_nil] at hs
  rw [hok.delivered]
  exact window_eq_filter (hs ▸ hq.2)

/-- In every interleaving whose steps are all safe, once every frame committed has
been broadcast, polling drains the session, and when it is drained it has delivered
exactly the frames committed after its cursor, with strictly increasing cursors. -/
theorem session_delivers_exactly_once (capacity counter : ℕ) (steps : List UpdateStep)
    (hsafe : Run.Along (updateStep capacity) SafeStep (.fresh counter) steps) (session : TaskUpdateSession)
    (hsession : (Run.exec (updateStep capacity) (.fresh counter) steps).session = some session)
    (hsent : (Run.exec (updateStep capacity) (.fresh counter) steps).unsent = []) :
    Drains capacity (Run.exec (updateStep capacity) (.fresh counter) steps).committed session ∧
      (session.Drained → Increasing cursor session.delivered ∧ ∀ frame, frame ∈ session.delivered ↔
          frame ∈ (Run.exec (updateStep capacity) (.fresh counter) steps).committed ∧
            after cursor session.since frame) := by
  have hok : SystemOk (Run.exec (updateStep capacity) (.fresh counter) steps) :=
    Run.along_invariant (updateStep capacity) SafeStep SystemOk
      (fun _ step hs hok => updateStep_ok capacity step hs hok) (.fresh counter) (systemOk_fresh counter)
      steps hsafe
  refine ⟨drains session, fun hd => ?_⟩
  rw [hok.delivered_eq hsession hsent hd]
  exact ⟨hok.committed.filter _, fun frame => List.mem_filter⟩

/-- A session opened from the start, up to the point where it follows the channel. -/
def follow : List UpdateStep :=
  [.openSession none, .poll false, .poll false, .poll false, .poll false]

def firstFrame : TaskUpdateFrame := ⟨.messageReceived "first", .fromCounter 0⟩

def secondFrame : TaskUpdateFrame := ⟨.messageReceived "second", .fromCounter 1⟩

def mintBoth : List UpdateStep := [.allocate firstFrame.fact, .allocate secondFrame.fact]

def publish (frame : TaskUpdateFrame) : List UpdateStep :=
  [.commit frame.cursor, .broadcast frame.cursor, .poll false]

/-- The session after it has delivered `delivered`. -/
def followed (delivered : List TaskUpdateFrame) (last : TaskReplayCursor) : TaskUpdateSession :=
  { since := none, lastCursor := some last, queue := [], attached := true, state := .live, delivered }

theorem in_order_delivered : Increasing cursor (followed [firstFrame, secondFrame] secondFrame.cursor).delivered ∧
      ∀ frame, frame ∈ (followed [firstFrame, secondFrame] secondFrame.cursor).delivered ↔
        frame ∈ (Run.exec (updateStep 256) (.fresh 0)
          (follow ++ mintBoth ++ publish firstFrame ++ publish secondFrame)).committed ∧
          after cursor none frame := by
  have hd := session_delivers_exactly_once 256 0
    (follow ++ mintBoth ++ publish firstFrame ++ publish secondFrame) (by decide +kernel)
    (followed [firstFrame, secondFrame] secondFrame.cursor) (by decide +kernel) (by decide +kernel)
  exact hd.2 (by decide)

/-- The second frame overtakes the first: the session skips the first for good. -/
theorem overtaken_frame_lost :
    (Run.exec (updateStep 256) (.fresh 0) (follow ++ mintBoth ++ publish secondFrame ++ publish firstFrame)) =
      { nextCounter := 2, allocated := [], committed := [secondFrame, firstFrame], unsent := []
        session := some (followed [secondFrame] secondFrame.cursor) } ∧
      (followed [secondFrame] secondFrame.cursor).Drained ∧
      ¬ ∀ frame, frame ∈ (followed [secondFrame] secondFrame.cursor).delivered ↔
        frame ∈ [secondFrame, firstFrame] ∧ after cursor none frame := by
  refine ⟨by decide +kernel, by decide, fun h => ?_⟩
  exact absurd ((h firstFrame).mpr (by decide)) (by decide)

end AgentiumOs.Updates
