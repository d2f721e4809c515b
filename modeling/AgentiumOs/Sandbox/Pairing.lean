import AgentiumOs.Sandbox.Invoker

/-! Which response a request gets. The invoker reads whatever comes next on the channel
and never compares ids, so a response is only known to be the right one while the
request it waits for is alone on its channel. A request that ended without a response
leaves the channel with one too many. -/

namespace AgentiumOs.Sandbox

open Lib Lib.Interleave

/-- The requests of a channel whose responses the invoker has not read. -/
def TsrpcChannel.outstanding (c : TsrpcChannel) : List ℕ :=
  c.requests ++ c.responses.map JsonRpcResponse.id

/-! ### Requests that are alone on their channels -/

variable {ι : Type} [DecidableEq ι]

/-- A request is sent only on a channel that owes no response. -/
def SendsAlone (p : Pool Invoker Point ι) : InvokerOp ι → Prop
  | .call thread .proceed =>
      match (p.thread thread).sendsOn p.shared with
      | some channel => (p.shared.channels channel).outstanding = []
      | none => True
  | _ => True

instance SendsAlone.decidable (p : Pool Invoker Point ι) (op : InvokerOp ι) : Decidable (SendsAlone p op) := by
  unfold SendsAlone
  split
  · split <;> infer_instance
  · infer_instance

/-- A call that waits is the only one on its channel, its request is all the channel
owes, and every response was returned for the request whose id it has. -/
structure Paired (p : Pool Invoker Point ι) : Prop where
  alone : ∀ i c id, (p.thread i).awaits = some (c, id) → (p.shared.channels c).outstanding = [id]
  single : Solo Point.awaits Prod.fst p
  returned : ∀ x ∈ p.shared.returned, x.2.id = x.1

omit [DecidableEq ι] in
theorem paired_startPool : Paired (startPool : Pool Invoker Point ι) := by
  refine ⟨?_, .of_none fun _ => rfl, ?_⟩ <;> simp [startPool, Point.awaits, Invoker.new]

theorem response_id_of_outstanding {c : TsrpcChannel} {id : ℕ} {r : JsonRpcResponse}
    {rest : List JsonRpcResponse} (h : c.outstanding = [id]) (hr : c.responses = r :: rest) :
    r.id = id := by
  rw [TsrpcChannel.outstanding, hr] at h
  rcases List.append_eq_singleton_iff.mp h with ⟨-, h⟩ | ⟨-, h⟩
  · exact (List.cons.inj h).1
  · cases h

theorem outstanding_answer {s : Invoker} {c id : ℕ} (h : (s.channels c).outstanding = [id])
    (ch an : ℕ) (r : Option SessionResult) :
    ((answer s ch an r).channels c).outstanding = [id] := by
  unfold answer
  split_ifs with hm
  · by_cases hc : c = ch
    · subst hc
      rcases List.append_eq_singleton_iff.mp h with ⟨hr, -⟩ | ⟨hr, hre⟩
      · rw [hr] at hm
        cases hm
      · rw [hr, List.mem_singleton] at hm
        subst hm
        simp [Invoker.updateChannel, TsrpcChannel.outstanding, hr, hre]
    · exact (congrArg _ (Function.update_of_ne hc _ _)).trans h
  · exact h

section Turn

variable {p : Pool Invoker Point ι} {ad : Invoker → Point → Invoker × Point} {i : ι}

theorem Paired.quiet (h : Paired p) (hs : SameChannels p.shared (ad p.shared (p.thread i)).1)
    (hp : (ad p.shared (p.thread i)).2.awaits = none ∨
      (ad p.shared (p.thread i)).2.awaits = (p.thread i).awaits) :
    Paired (turn ad p i).1 where
  alone j c id hj := by
    rw [turn_shared, hs.channels]
    exact h.alone j c id (hold_of_hold_turn hp hj)
  single := h.single.keeps hp
  returned x hx := by
    rw [turn_shared, hs.returned] at hx
    exact h.returned x hx

/-- No call waits on a channel that owes nothing, so the request sent there is alone. -/
theorem Paired.sends (h : Paired p) (ha : (p.shared.channels channel).outstanding = [])
    (hs : (ad p.shared (p.thread i)).1 = p.shared.sendRequest channel)
    (hp : (ad p.shared (p.thread i)).2.awaits = some (channel, p.shared.nextRpcId)) :
    Paired (turn ad p i).1 := by
  have ho : ∀ j a, (p.thread j).awaits = some a → a.1 ≠ channel := by
    rintro j a hj rfl
    rw [h.alone j a.1 a.2 hj] at ha
    cases ha
  refine ⟨fun j c id hj => ?_, h.single.takes hp ho, fun x hx => ?_⟩
  · rw [turn_shared, hs]
    rcases hold_turn_cases hp hj with ⟨-, heq⟩ | ⟨-, hol⟩
    · obtain ⟨rfl, rfl⟩ := Prod.mk.inj heq
      obtain ⟨hr, hre⟩ := List.append_eq_nil_iff.mp ha
      simp [Invoker.sendRequest, Invoker.updateChannel, TsrpcChannel.outstanding, hr, hre]
    · exact (congrArg _ (Function.update_of_ne (ho j (c, id) hol) _ _)).trans (h.alone j c id hol)
  · rw [turn_shared, hs] at hx
    exact h.returned x hx

theorem Paired.receives (h : Paired p) {channel id : ℕ} {r : JsonRpcResponse}
    {re : List JsonRpcResponse} (ha : (p.thread i).awaits = some (channel, id))
    (hr : (p.shared.channels channel).responses = r :: re)
    (hs : SameChannels (p.shared.readResponse channel id r re) (ad p.shared (p.thread i)).1)
    (hp : (ad p.shared (p.thread i)).2.awaits = none) : Paired (turn ad p i).1 := by
  refine ⟨fun j c id' hj => ?_, h.single.keeps (.inl hp), fun x hx => ?_⟩
  · have ho := hold_of_hold_turn (.inl hp) hj
    -- the channel that was read from belongs to the call that has left it
    have hne : c ≠ channel := by
      rintro rfl
      exact ne_of_hold_turn hp hj (h.single j i _ _ ho ha rfl)
    rw [turn_shared, hs.channels]
    exact (congrArg _ (Function.update_of_ne hne _ _)).trans (h.alone j c id' ho)
  · rw [turn_shared, hs.returned] at hx
    rcases List.mem_cons.mp hx with rfl | hx
    · exact response_id_of_outstanding (h.alone i channel id ha) hr
    · exact h.returned x hx

end Turn

variable (reuseAfterSession : Bool)

theorem Paired.step {p : Pool Invoker Point ι} (h : Paired p) (op : InvokerOp ι)
    (hal : SendsAlone p op) : Paired (invokerStep reuseAfterSession p op).1 := by
  cases op with
  | answer ch id result =>
    refine ⟨fun i c id' hi => outstanding_answer (h.alone i c id' hi) _ _ _, h.single, ?_⟩
    intro x hx
    refine h.returned x ?_
    simp only [invokerStep, answer] at hx
    split_ifs at hx <;> exact hx
  | call t move =>
    cases acts_advance reuseAfterSession p.shared (p.thread t) move with
    | quiet hse hc ho ha => exact h.quiet hc ha
    | checksOut hs hp => exact h.quiet (hs ▸ ⟨rfl, rfl⟩) (.inl (hp ▸ rfl))
    | sends ch hm hsn hs ho ha =>
      subst hm
      simp only [SendsAlone, hsn] at hal
      exact h.sends hal hs ha
    | receives ch id r rest ha hr hse hc ho ha' =>
      exact h.receives ha hr hc ha'
    | inserts ch sessionId his hs hp =>
      exact h.quiet (hs ▸ ⟨rfl, rfl⟩) (.inl (hp ▸ rfl))
    | removes ch sessionId hl hse hc ho ha =>
      exact h.quiet hc (.inl ha)

/-- In every interleaving in which requests are only sent on channels that owe no
response, every response is returned for the request whose id it carries. -/
theorem returned_response_has_request_id (ops : List (InvokerOp ι))
    (halone : Run.Along (invokerStep reuseAfterSession) SendsAlone startPool ops) (id : ℕ)
    (response : JsonRpcResponse)
    (hreturned : (id, response) ∈ (Run.exec (invokerStep reuseAfterSession) startPool ops).shared.returned) :
    response.id = id := by
  have hpa := Run.along_invariant (invokerStep reuseAfterSession) SendsAlone Paired
    (fun p op hop hp => hp.step reuseAfterSession op hop) startPool paired_startPool ops halone
  exact hpa.returned (id, response) hreturned

def openedSession : List (InvokerOp ℕ) :=
  [.call 0 (.start .sessionOpen), .call 0 .proceed, .answer 0 1 (some ⟨some "s", none, none⟩),
    .call 0 .receive, .call 0 .proceed]

/-- A read on it, up to the point where its request is sent. -/
def readSent (thread : ℕ) : List (InvokerOp ℕ) :=
  [.call thread (.start (.sessionRead "s")), .call thread .proceed, .call thread .proceed, .call thread .proceed]

def readAnswered : List (InvokerOp ℕ) :=
  openedSession ++ readSent 1 ++ [.answer 0 2 (some ⟨none, some "first", none⟩), .call 1 .receive]

/-- A read that gives up, and a second one after it, as the timeout advises. -/
def readRetried : List (InvokerOp ℕ) :=
  openedSession ++ readSent 1 ++ [.call 1 .timeout] ++ readSent 2 ++
    [.answer 0 2 (some ⟨none, some "first", none⟩), .call 2 .receive]

theorem answered_read_gets_its_response : ∃ response : JsonRpcResponse,
      (2, response) ∈ (Run.exec (invokerStep false) startPool readAnswered).shared.returned ∧
      response.id = 2 := by
  refine ⟨⟨2, some ⟨none, some "first", none⟩⟩, by decide +kernel, ?_⟩
  exact returned_response_has_request_id false readAnswered (by decide +kernel) 2 _ (by decide +kernel)

/-- The second read, request 3, is given the late response to request 2. -/
theorem late_response_returned_to_next_read : (3, ⟨2, some ⟨none, some "first", none⟩⟩) ∈
      (Run.exec (invokerStep false) startPool readRetried).shared.returned := by
  decide +kernel

end AgentiumOs.Sandbox
