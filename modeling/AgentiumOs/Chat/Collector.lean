import AgentiumOs.Lib.Run
import AgentiumOs.Chat.Normalizer

/-! The collector of a chat stream. It takes the outputs of an agent in turn, stores each and sends
it to the client with a running index; before the agent's chunks it sends that the task was
submitted, once its id is known. That the history has settled is announced on three exits. -/

namespace AgentiumOs.Chat

open Lib Json

inductive StreamCompletion where
  | semanticFinal
  | inputRequired
  | channelClosed
  | timeout
  deriving DecidableEq

def StreamCompletion.isWireFinal : StreamCompletion → Bool
  | .inputRequired => false
  | _ => true

inductive StreamOutput where
  | chunk (value : Value)
  | relayChunk (value : Value)
  | terminal (value : Value) (completion : StreamCompletion)

/-- An output of the agent, and whether the pipeline stores the status submitted, if it is to be sent
first, and the chunk itself. -/
structure Handover where
  output : StreamOutput
  submittedStored : Bool
  stored : Bool

structure NormalizedOutput where
  normalized : Except String Value
  completion : Option StreamCompletion
  isRelay : Bool
  submittedStored : Bool
  stored : Bool

def Handover.normalize (W : WireTypes) (h : Handover) : StateM JsChunkNormalizer NormalizedOutput := do
  let (rawChunk, completion, isRelay) := match h.output with
    | .chunk value => (value, none, false)
    | .relayChunk value => (value, none, true)
    | .terminal value completion => (value, some completion, false)
  pure ⟨← JsChunkNormalizer.normalizeValue W rawChunk, completion, isRelay, h.submittedStored, h.stored⟩

inductive StreamResponse where
  | submitted (contextId taskId : String)
  | agent (normalized : Value) (toolStreamChunk : Bool)
  | error (message : String)
  | default
  deriving DecidableEq

structure ChatStreamChunk where
  response : StreamResponse
  index : ℕ
  completion : Option StreamCompletion
  deriving DecidableEq

inductive Effect where
  | stored
  | sent (chunk : ChatStreamChunk)
  | historySettled
  deriving DecidableEq

structure ChatStreamCollectorConfig where
  contextId : String
  taskIdOpt : Option String
  injectSubmitted : Bool

/-- The variables of the loop, the number of times the channel to the client was used, and what
the collector has done, the latest first. -/
structure Collector where
  index : ℕ
  submittedSent : Bool
  historySettled : Bool
  running : Bool
  uses : ℕ
  log : List Effect

def taskIdFromChunk (value : Value) : Option String :=
  ((value.get "task").bind (·.get "id")).bind Value.asStr <|>
    ((value.get "statusUpdate").bind (·.get "taskId")).bind Value.asStr <|>
    ((value.get "message").bind (·.get "taskId")).bind Value.asStr

namespace Collector

def start : Collector := ⟨0, false, false, true, 0, []⟩

def store (ok : Bool) (c : Collector) : Collector := if ok then { c with log := .stored :: c.log } else c

def settle (c : Collector) : Collector := { c with historySettled := true, log := .historySettled :: c.log }

variable (config : ChatStreamCollectorConfig) (dropped : Option ℕ)

/-- The client drops its end of the channel after `dropped` uses, if at all. -/
def receiving (c : Collector) : Bool := dropped.all (c.uses < ·)

def send (chunk : ChatStreamChunk) (c : Collector) : Collector × Bool :=
  if c.receiving dropped then ({ c with uses := c.uses + 1, log := .sent chunk :: c.log }, true)
  else ({ c with uses := c.uses + 1 }, false)

variable (output : NormalizedOutput) (normalized : Value)

def sendSubmitted (c : Collector) : Collector :=
  if config.injectSubmitted && !c.submittedSent then
    match config.taskIdOpt <|> taskIdFromChunk normalized with
    | none => c
    | some taskId =>
        if output.submittedStored then
          match (c.store true).send dropped ⟨.submitted config.contextId taskId, 0, none⟩ with
          | (c, true) => { c with submittedSent := true, index := 1 }
          | (c, false) => c
        else c
  else c

/-- An output that could be normalized is stored and sent. -/
def forward (c : Collector) : Collector :=
  let c := c.store output.stored
  match c.send dropped ⟨.agent normalized output.isRelay, c.index, output.completion⟩ with
  | (c, false) => { c with running := false }
  | (c, true) =>
      let c := { c with index := c.index + 1 }
      let c := if output.completion.isSome then c.settle else c
      { c with running := !output.completion.any StreamCompletion.isWireFinal }

def collectStep (c : Collector) (output : NormalizedOutput) : Collector × Unit :=
  if !c.running then (c, ())
  else
    match output.normalized with
    | .ok normalized => ((c.sendSubmitted config dropped output normalized).forward dropped output normalized, ())
    | .error e =>
        let c := c.store output.stored
        let c := (c.send dropped ⟨.error e, c.index, some .semanticFinal⟩).1
        ({ c.settle with running := false }, ())

/-- After the loop, a client that is still there is told that the channel is closed. -/
def close (c : Collector) : Collector :=
  if c.receiving dropped then
    match send dropped ⟨.default, c.index, some .channelClosed⟩ { c with uses := c.uses + 1 } with
    | (c, true) => if c.historySettled then c else c.settle
    | (c, false) => c
  else c

end Collector

open Collector

section Inputs

variable (W : WireTypes) (uuid : String) (config : ChatStreamCollectorConfig)

/-- The outputs as the collector meets them; nothing but the normalizer reads its own state. -/
def normalizedOutputs (handed : List Handover) : List NormalizedOutput :=
  ((handed.mapM (Handover.normalize W)).run (.new config.contextId config.taskIdOpt uuid)).1

def runChatStreamCollector (dropped : Option ℕ) (handed : List Handover) : Collector :=
  (Run.exec (collectStep config dropped) start (normalizedOutputs W uuid config handed)).close dropped

end Inputs

def Effect.chunk? : Effect → Option ChatStreamChunk
  | .sent chunk => some chunk
  | _ => none

variable (chunk : ChatStreamChunk) (log : List Effect)

/-- The chunks that the client was sent, in order. -/
def sentChunks : List ChatStreamChunk := (log.filterMap Effect.chunk?).reverse

/-- Back from the latest effect, a settlement of the history comes before anything stored. -/
def SettledLast : List Effect → Prop
  | [] => True
  | .historySettled :: _ => True
  | .sent _ :: log => SettledLast log
  | .stored :: _ => False

instance SettledLast.decidable : (log : List Effect) → Decidable (SettledLast log)
  | [] => .isTrue trivial
  | .historySettled :: _ => .isTrue trivial
  | .sent _ :: log => SettledLast.decidable log
  | .stored :: _ => .isFalse id

/-! ### What a step does -/

section Conditions

variable (config : ChatStreamCollectorConfig)

/-- The status submitted can be stored and sent before the output. -/
def NormalizedOutput.announces (x : NormalizedOutput) : Bool :=
  match x.normalized with
  | .ok normalized =>
      config.injectSubmitted && x.submittedStored && (config.taskIdOpt <|> taskIdFromChunk normalized).isSome
  | .error _ => false

/-- The loop goes on after the output, if the client receives it. -/
def NormalizedOutput.Continues (x : NormalizedOutput) : Prop :=
  x.normalized.isOk = true ∧ x.completion.any StreamCompletion.isWireFinal = false

variable (dropped : Option ℕ) (outputs : List NormalizedOutput)

/-- How often the channel is used for outputs after which the loop goes on. -/
def usesOf : ℕ := outputs.length + (outputs.any (·.announces config)).toNat

/-- The client is there for so many uses of the channel. -/
def Stays (uses : ℕ) : Prop := ∀ limit ∈ dropped, uses ≤ limit

/-- The collector comes to the output that follows. -/
def Reaches : Prop :=
  (∀ x ∈ outputs, x.Continues) ∧ Stays dropped (usesOf config outputs)

/-- Something was stored for an output, and neither it nor a later one came with a completion. -/
def Unsettled : Prop :=
  ∃ before x after, outputs = before ++ x :: after ∧
    (x.stored = true ∨ x.announces config = true ∧ before.any (·.announces config) = false) ∧
    ∀ y ∈ x :: after, y.completion = none

end Conditions

def StreamResponse.isSubmitted : StreamResponse → Bool
  | .submitted _ _ => true
  | _ => false

/-- The chunks are numbered in order, and the status submitted is the first of them or missing. -/
structure Ordered (chunks : List ChatStreamChunk) : Prop where
  indices : chunks.map ChatStreamChunk.index = List.range chunks.length
  first : ∀ chunk ∈ chunks.tail, chunk.response.isSubmitted = false

theorem ordered_concat {ch : List ChatStreamChunk} {chunk : ChatStreamChunk} : Ordered (ch ++ [chunk]) ↔
    Ordered ch ∧ chunk.index = ch.length ∧ (chunk.response.isSubmitted = true → ch = []) := by
  have hi : (ch ++ [chunk]).map ChatStreamChunk.index = List.range (ch ++ [chunk]).length ↔
      ch.map ChatStreamChunk.index = List.range ch.length ∧ chunk.index = ch.length := by
    simp [List.range_succ]
  constructor
  · rintro ⟨hin, hf⟩
    obtain ⟨ho, hn⟩ := hi.mp hin
    cases ch with
    | nil => exact ⟨⟨rfl, by simp⟩, hn, fun _ => rfl⟩
    | cons head ch =>
      rw [List.cons_append, List.tail_cons, List.forall_mem_append, List.forall_mem_singleton] at hf
      exact ⟨⟨ho, hf.1⟩, hn, fun hs => by simp [hf.2] at hs⟩
  · rintro ⟨⟨ho, hf⟩, hn, hs⟩
    refine ⟨hi.mpr ⟨ho, hn⟩, ?_⟩
    cases ch with
    | nil => simp
    | cons head ch =>
      rw [List.cons_append, List.tail_cons, List.forall_mem_append, List.forall_mem_singleton]
      exact ⟨hf, by simpa using mt hs (List.cons_ne_nil _ _)⟩

theorem ordered_nil : Ordered [] := ⟨rfl, by simp⟩

variable {config : ChatStreamCollectorConfig} {dropped : Option ℕ} {c c' : Collector} {x : NormalizedOutput}

@[simp] theorem receiving_iff (c : Collector) : c.receiving dropped = true ↔ Stays dropped (c.uses + 1) := by
  cases dropped <;> simp [receiving, Stays]

theorem Stays.mono {m n : ℕ} (h : Stays dropped n) (hle : m ≤ n) : Stays dropped m :=
  fun l hl => hle.trans (h l hl)

@[simp] theorem sentChunks_sent : sentChunks (.sent chunk :: log) = sentChunks log ++ [chunk] := by
  simp [sentChunks, Effect.chunk?]

@[simp] theorem sentChunks_stored : sentChunks (.stored :: log) = sentChunks log := rfl

@[simp] theorem sentChunks_settled : sentChunks (.historySettled :: log) = sentChunks log := rfl

section Steps

variable (config : ChatStreamCollectorConfig) (dropped : Option ℕ) (c : Collector) (x : NormalizedOutput)
  (c' : Collector)

/-- Whether the status submitted is stored, and if the client is there sent, before the output. -/
def Attempts : Bool := x.announces config && !c.submittedSent

/-- The output was sent to a client that received it. -/
structure Received : Prop where
  running : c'.running = !x.completion.any StreamCompletion.isWireFinal
  uses : c'.uses = c.uses + (Attempts config c x).toNat + 1
  submittedSent : c'.submittedSent = (c.submittedSent || x.announces config)
  historySettled : c'.historySettled = (c.historySettled || x.completion.isSome)
  settled : SettledLast c'.log ↔
    x.completion.isSome = true ∨ x.stored = false ∧ Attempts config c x = false ∧ SettledLast c.log
  ordered : Ordered (sentChunks c'.log) ↔ Ordered (sentChunks c.log) ∧
    if Attempts config c x = true then sentChunks c.log = [] else c.index = (sentChunks c.log).length
  indexed : Ordered (sentChunks c'.log) → c'.index = (sentChunks c'.log).length
  nonempty : sentChunks c'.log ≠ []

structure Missed : Prop where
  running : c'.running = false
  closed : (c'.close dropped).log = c'.log
  settled : SettledLast c'.log ↔ x.stored = false ∧ Attempts config c x = false ∧ SettledLast c.log
  ordered : Ordered (sentChunks c'.log) ↔ Ordered (sentChunks c.log) ∧
    (Attempts config c x = true → Stays dropped (c.uses + 1) → sentChunks c.log = [])

structure Failed : Prop where
  running : c'.running = false
  settled : SettledLast (c'.close dropped).log
  ordered : Ordered (sentChunks (c'.close dropped).log) ↔ Ordered (sentChunks c.log) ∧
    (Stays dropped (c.uses + 1) → c.index = (sentChunks c.log).length) ∧ ¬ Stays dropped (c.uses + 3)

/-- The status submitted is not sent after a chunk, nor the end of the channel after an error. -/
def InOrder : Prop :=
  c.running = true → (Attempts config c x = true → Stays dropped (c.uses + 1) → sentChunks c.log = []) ∧
    (x.normalized.isOk = false → ¬ Stays dropped (c.uses + 3))

/-- If the client is gone when the output is sent, nothing is stored since the last settlement. -/
def SettledBefore : Prop :=
  c.running = true → x.normalized.isOk = true → ¬ Stays dropped (c.uses + (Attempts config c x).toNat + 1) →
    x.stored = false ∧ Attempts config c x = false ∧ SettledLast c.log

end Steps

theorem sendSubmitted_eq (config : ChatStreamCollectorConfig) (dropped : Option ℕ) (c : Collector)
    (hn : x.normalized = .ok normalized) : ∃ chunk : ChatStreamChunk,
    chunk.response.isSubmitted = true ∧ chunk.index = 0 ∧ c.sendSubmitted config dropped x normalized =
      if Attempts config c x then
        if c.receiving dropped then
          { c with index := 1, submittedSent := true, uses := c.uses + 1, log := .sent chunk :: .stored :: c.log }
        else { c with uses := c.uses + 1, log := .stored :: c.log }
      else c := by
  refine ⟨⟨.submitted config.contextId ((config.taskIdOpt <|> taskIdFromChunk normalized).getD ""), 0, none⟩, rfl,
    rfl, ?_⟩
  rcases c with ⟨index, _ | _, h, r, uses, log⟩
  · cases ht : config.taskIdOpt <|> taskIdFromChunk normalized with
    | none => simp [sendSubmitted, Attempts, NormalizedOutput.announces, hn, ht]
    | some taskId =>
      cases hi : config.injectSubmitted <;> cases hs : x.submittedStored <;> cases hd : dropped.all (uses < ·) <;>
        simp [sendSubmitted, Attempts, NormalizedOutput.announces, hn, ht, hi, hs, hd, send, store, receiving]
  · simp [sendSubmitted, Attempts]

theorem forward_received (hs : Stays dropped (c.uses + 1)) : c.forward dropped x normalized =
    { index := c.index + 1
      submittedSent := c.submittedSent
      historySettled := c.historySettled || x.completion.isSome
      running := !x.completion.any StreamCompletion.isWireFinal
      uses := c.uses + 1
      log := (if x.completion.isSome then [.historySettled] else []) ++
        .sent ⟨.agent normalized x.isRelay, c.index, x.completion⟩ :: (c.store x.stored).log } := by
  have hr := (receiving_iff c).mpr hs
  rcases c with ⟨index, submittedSent, historySettled, running, uses, log⟩
  unfold receiving at hr
  cases hc : x.completion <;> cases hst : x.stored <;> simp [forward, send, receiving, store, settle, hr, hc, hst]

theorem forward_missed (hs : ¬ Stays dropped (c.uses + 1)) : c.forward dropped x normalized =
    { c with running := false, uses := c.uses + 1, log := (c.store x.stored).log } := by
  have hr := mt (receiving_iff c).mp hs
  rcases c with ⟨index, s, h, running, uses, log⟩
  unfold receiving at hr
  cases hst : x.stored <;> simp [forward, send, receiving, store, hr, hst]

/-- After the loop the client, if it is still there, is told that the channel is closed. -/
theorem close_of_stays (hs : Stays dropped (c.uses + 2)) : sentChunks (c.close dropped).log =
      sentChunks c.log ++ [⟨.default, c.index, some .channelClosed⟩] ∧
    (SettledLast (c.close dropped).log ↔ c.historySettled = false ∨ SettledLast c.log) := by
  have hr := (receiving_iff c).mpr (hs.mono (by omega))
  have hr' := (receiving_iff { c with uses := c.uses + 1 }).mpr hs
  simp only [close, hr, send, hr', if_true]
  cases c.historySettled <;> simp [settle, SettledLast]

theorem close_of_leaves (hs : ¬ Stays dropped (c.uses + 2)) : (c.close dropped).log = c.log := by
  have hr' := mt (receiving_iff { c with uses := c.uses + 1 }).mp hs
  unfold close send
  split_ifs <;> rfl

theorem settledLast_store (ok : Bool) (c : Collector) :
    SettledLast (c.store ok).log ↔ ok = false ∧ SettledLast c.log := by
  cases ok <;> simp [store, SettledLast]

theorem sentChunks_store (ok : Bool) (c : Collector) : sentChunks (c.store ok).log = sentChunks c.log := by
  cases ok <;> rfl

theorem collectStep_received (hr : c.running = true) (hn : x.normalized = .ok normalized)
    (hs : Stays dropped (c.uses + (Attempts config c x).toNat + 1)) :
    Received config c x (collectStep config dropped c x).1 := by
  obtain ⟨chunk, hsub, hz, heq⟩ := sendSubmitted_eq config dropped c hn
  have hrec : c.receiving dropped = true := (receiving_iff c).mpr (hs.mono (by omega))
  simp only [collectStep, hr, hn, heq, hrec]
  cases ha : Attempts config c x with
  | false =>
    simp only [ha] at hs
    simp only [Bool.false_eq_true, if_false, Bool.not_true]
    rw [forward_received hs]
    have hse : (c.submittedSent || x.announces config) = c.submittedSent := by
      cases hsn : c.submittedSent <;> simp_all [Attempts]
    refine ⟨rfl, by simp [ha], hse.symm, rfl, ?_, ?_, ?_, ?_⟩
    all_goals cases x.completion <;>
      simp [SettledLast, settledLast_store, sentChunks_store, ordered_concat, ha, StreamResponse.isSubmitted]
  | true =>
    simp only [ha] at hs
    simp only [if_true, Bool.not_true, Bool.false_eq_true, if_false]
    rw [forward_received (by exact hs)]
    obtain ⟨hx, hse⟩ : x.announces config = true ∧ c.submittedSent = false := by simpa [Attempts] using ha
    refine ⟨rfl, by simp [ha], by simp [hx, hse], rfl, ?_, ?_, ?_, ?_⟩
    all_goals cases x.completion <;> simp [-List.append_assoc, SettledLast, settledLast_store, sentChunks_store,
      ordered_concat, ha, StreamResponse.isSubmitted, hz] <;> grind [ordered_nil]

theorem collectStep_missed (hr : c.running = true) (hn : x.normalized = .ok normalized)
    (hs : ¬ Stays dropped (c.uses + (Attempts config c x).toNat + 1)) :
    Missed config dropped c x (collectStep config dropped c x).1 := by
  obtain ⟨chunk, hsub, hz, heq⟩ := sendSubmitted_eq config dropped c hn
  simp only [collectStep, hr, hn, heq]
  cases ha : Attempts config c x with
  | false =>
    simp only [ha] at hs
    simp only [Bool.false_eq_true, if_false, Bool.not_true]
    rw [forward_missed hs]
    refine ⟨rfl, close_of_leaves fun h => hs (h.mono (by simp)), ?_, ?_⟩
    all_goals simp [settledLast_store, sentChunks_store, ha]
  | true =>
    simp only [ha] at hs
    simp only [if_true, Bool.not_true, Bool.false_eq_true, if_false]
    by_cases hst : Stays dropped (c.uses + 1)
    · rw [if_pos ((receiving_iff c).mpr hst), forward_missed (by exact hs)]
      refine ⟨rfl, close_of_leaves fun h => hs (h.mono (by simp)), ?_, ?_⟩
      all_goals simp [SettledLast, settledLast_store, sentChunks_store, ha, ordered_concat, hsub, hz, hst]
      grind
    · rw [if_neg (mt (receiving_iff c).mp hst), forward_missed (by exact hs)]
      refine ⟨rfl, close_of_leaves fun h => hs (h.mono (by simp)), ?_, ?_⟩
      all_goals simp [SettledLast, settledLast_store, sentChunks_store, ha, hst]

theorem collectStep_failed (config : ChatStreamCollectorConfig) (dropped : Option ℕ) (hr : c.running = true)
    (hn : x.normalized = .error e) :
    Failed dropped c (collectStep config dropped c x).1 := by
  have heq : (collectStep config dropped c x).1 =
      { c with
        historySettled := true
        running := false
        uses := c.uses + 1
        log := .historySettled :: ((if c.receiving dropped then
          [.sent ⟨.error e, c.index, some .semanticFinal⟩] else []) ++ (c.store x.stored).log) } := by
    rcases c with ⟨index, s, historySettled, running, uses, log⟩
    obtain rfl : running = true := hr
    cases hd : dropped.all (uses < ·) <;> cases hs : x.stored <;>
      simp [collectStep, hn, send, receiving, store, settle, hd, hs]
  rw [heq]
  by_cases hs : Stays dropped (c.uses + 3)
  · have hr := (receiving_iff c).mpr (hs.mono (by omega))
    simp only [hr, if_true]
    refine ⟨rfl, (close_of_stays (by exact hs)).2.mpr (.inr trivial), ?_⟩
    rw [(close_of_stays (by exact hs)).1]
    simp [-List.append_assoc, sentChunks_store, ordered_concat, hs]
    grind
  · refine ⟨rfl, ?_, ?_⟩
    · rw [close_of_leaves (by exact hs)]
      trivial
    · rw [close_of_leaves (by exact hs)]
      by_cases hr : Stays dropped (c.uses + 1)
      · simp [hr, hs, sentChunks_store, ordered_concat, StreamResponse.isSubmitted]
      · simp [hr, hs, sentChunks_store]

/-! ### Where the collector is -/

theorem usesOf_concat (outputs : List NormalizedOutput) (x : NormalizedOutput) : usesOf config (outputs ++ [x]) =
    usesOf config outputs + (x.announces config && !outputs.any (·.announces config)).toNat + 1 := by
  cases ha : x.announces config <;> cases ho : outputs.any (·.announces config) <;>
    simp [usesOf, ha, ho]

theorem reaches_concat {outputs : List NormalizedOutput} : Reaches config dropped (outputs ++ [x]) ↔
    Reaches config dropped outputs ∧ x.Continues ∧ Stays dropped (usesOf config (outputs ++ [x])) := by
  simp only [Reaches, List.forall_mem_append, List.forall_mem_singleton]
  constructor
  · rintro ⟨⟨ho, hx⟩, hs⟩
    exact ⟨⟨ho, hs.mono (by rw [usesOf_concat]; omega)⟩, hx, hs⟩
  · rintro ⟨⟨ho, -⟩, hx, hs⟩
    exact ⟨⟨ho, hx⟩, hs⟩

theorem unsettled_concat {outputs : List NormalizedOutput} : Unsettled config (outputs ++ [x]) ↔ x.completion = none ∧
    (Unsettled config outputs ∨ x.stored = true ∨
      x.announces config = true ∧ outputs.any (·.announces config) = false) := by
  constructor
  · rintro ⟨b, y, after, heq, hy, hn⟩
    rcases List.eq_nil_or_concat after with rfl | ⟨after, z, rfl⟩
    · obtain ⟨rfl, hl⟩ := List.append_inj' heq rfl
      cases hl
      exact ⟨hn _ (by simp), .inr hy⟩
    · rw [List.concat_eq_append, ← List.cons_append, ← List.append_assoc] at heq
      obtain ⟨rfl, hl⟩ := List.append_inj' heq rfl
      cases hl
      rw [List.concat_eq_append, ← List.cons_append, List.forall_mem_append] at hn
      exact ⟨hn.2 _ (by simp), .inl ⟨b, y, after, rfl, hy, hn.1⟩⟩
  · rintro ⟨hx, ⟨b, y, after, rfl, hy, hn⟩ | hnew⟩
    · refine ⟨b, y, after ++ [x], by simp, hy, ?_⟩
      rw [← List.cons_append, List.forall_mem_append]
      exact ⟨hn, by simpa using hx⟩
    · exact ⟨outputs, x, [], rfl, hnew, by simpa using hx⟩

theorem exec_reaches (config : ChatStreamCollectorConfig) (dropped : Option ℕ) (outputs : List NormalizedOutput) :
    let c := Run.exec (collectStep config dropped) start outputs
    (c.running = true ↔ Reaches config dropped outputs) ∧ (c.running = true →
      c.uses = usesOf config outputs ∧ c.submittedSent = outputs.any (·.announces config) ∧
      c.historySettled = outputs.any (·.completion.isSome) ∧ (sentChunks c.log = [] ↔ outputs = []) ∧
      (SettledLast c.log ↔ ¬ Unsettled config outputs)) := by
  induction outputs using List.reverseRecOn with
  | nil => simp [start, Reaches, Stays, usesOf, SettledLast, Unsettled, sentChunks]
  | append_singleton outputs x ih =>
    rw [Run.exec_concat]
    generalize Run.exec (collectStep config dropped) start outputs = c at ih
    obtain ⟨hrun, hst⟩ := ih
    rw [reaches_concat, ← hrun]
    cases hr : c.running with
    | false => simp [collectStep, hr]
    | true =>
      obtain ⟨hu, hsn, hse, -, hl⟩ := hst hr
      have ha : Attempts config c x = (x.announces config && !outputs.any (·.announces config)) := by
        rw [Attempts, hsn]
      cases hn : x.normalized with
      | error e =>
        have hf := collectStep_failed config dropped hr hn
        simp [hf.running, NormalizedOutput.Continues, hn, Except.isOk, Except.toBool]
      | ok normalized =>
        by_cases hs : Stays dropped (c.uses + (Attempts config c x).toNat + 1)
        · have h := collectStep_received hr hn hs
          rw [usesOf_concat, ← hu, ← ha]
          refine ⟨?_, fun _ => ⟨by rw [h.uses], ?_, ?_, ?_, ?_⟩⟩
          · simp [h.running, NormalizedOutput.Continues, hn, Except.isOk, Except.toBool, hs]
          · rw [h.submittedSent, hsn]; simp
          · rw [h.historySettled, hse]; simp
          · simp [h.nonempty]
          · rw [h.settled, unsettled_concat, hl, ha]
            cases x.completion <;> cases x.stored <;> cases x.announces config <;>
              cases outputs.any (·.announces config) <;> simp
        · have h := collectStep_missed hr hn hs
          rw [usesOf_concat, ← hu, ← ha]
          simp [h.running, hs]

/-! ### The indices -/

theorem ordered_close (hi : Ordered (sentChunks c.log) → c.index = (sentChunks c.log).length) :
    Ordered (sentChunks (c.close dropped).log) ↔ Ordered (sentChunks c.log) := by
  by_cases hs : Stays dropped (c.uses + 2)
  · rw [(close_of_stays hs).1, ordered_concat]
    exact ⟨And.left, fun h => ⟨h, hi h, by simp [StreamResponse.isSubmitted]⟩⟩
  · rw [close_of_leaves hs]

/-- The index is that of the next chunk, as long as the loop runs and the chunks are in order. -/
def Indexed (c : Collector) : Prop :=
  c.running = true → Ordered (sentChunks c.log) → c.index = (sentChunks c.log).length

theorem collectStep_inOrder (h : Indexed c) (x : NormalizedOutput) : Indexed (collectStep config dropped c x).1 ∧
    (Ordered (sentChunks ((collectStep config dropped c x).1.close dropped).log) ↔
      Ordered (sentChunks (c.close dropped).log) ∧ InOrder config dropped c x) := by
  cases hr : c.running with
  | false => simpa [collectStep, hr, InOrder] using h
  | true =>
    rw [ordered_close (h hr)]
    cases hn : x.normalized with
    | error e =>
      have hf := collectStep_failed config dropped hr hn
      refine ⟨fun hc => by simp [hf.running] at hc, ?_⟩
      rw [hf.ordered]
      simp only [InOrder, hr, hn, Attempts, NormalizedOutput.announces, Except.isOk, Except.toBool]
      have := h hr
      simp
      tauto
    | ok normalized =>
      by_cases hs : Stays dropped (c.uses + (Attempts config c x).toNat + 1)
      · have hc := collectStep_received hr hn hs
        have hst : Stays dropped (c.uses + 1) := hs.mono (by omega)
        refine ⟨fun _ => hc.indexed, ?_⟩
        rw [ordered_close hc.indexed, hc.ordered]
        refine and_congr_right fun ho => ?_
        simp [InOrder, hr, hn, hst, h hr ho, Except.isOk, Except.toBool]
      · have hc := collectStep_missed hr hn hs
        refine ⟨fun hcr => by simp [hc.running] at hcr, ?_⟩
        rw [hc.closed, hc.ordered]
        simp [InOrder, hr, hn, Except.isOk, Except.toBool]

/-- The chunks are numbered in order, with the status submitted first or missing, exactly when no
output after the first is the one that lets the status submitted be sent, and none that cannot be
normalized is followed by the end of the channel, as far as the client is there for it. -/
theorem indices_consecutive_iff (W : WireTypes) (uuid : String) (config : ChatStreamCollectorConfig)
    (dropped : Option ℕ) (handed : List Handover) :
    Ordered (sentChunks (runChatStreamCollector W uuid config dropped handed).log) ↔
      ∀ pre x post, normalizedOutputs W uuid config handed = pre ++ x :: post → Reaches config dropped pre →
        (x.announces config = true → pre = [] ∨ pre.any (·.announces config) = true ∨
          ¬ Stays dropped (usesOf config pre + 1)) ∧
        (x.normalized.isOk = false → ¬ Stays dropped (usesOf config pre + 3)) := by
  have hrun := Run.exec_iff_along_of_invariant (collectStep config dropped) Indexed
    (fun c => Ordered (sentChunks (c.close dropped).log)) (fun _ x h => collectStep_inOrder h x)
    (show Indexed start from fun _ _ => rfl) (normalizedOutputs W uuid config handed)
  have hst : Ordered (sentChunks (start.close dropped).log) :=
    (ordered_close fun _ => rfl).mpr ordered_nil
  rw [runChatStreamCollector, hrun, and_iff_right hst, Run.along_iff_forall_split]
  refine forall₄_congr fun pre x post _ => ?_
  obtain ⟨hr, hs⟩ := exec_reaches config dropped pre
  rw [InOrder, hr]
  refine forall_congr' fun h => ?_
  obtain ⟨hu, hse, -, he, -⟩ := hs (hr.mpr h)
  rw [hu, he, Attempts, hse]
  refine and_congr_left fun _ => ?_
  cases x.announces config <;> cases pre.any (·.announces config) <;> simp [imp_iff_not_or, or_comm]

/-- No value is read as a message or a task: chunks that are wrapped are not. -/
def wrappedOnly : WireTypes := ⟨fun _ => none, fun _ => none⟩

def textChunk : Value := .object [("message", .string "working on it")]

/-- A text for a message gets no task, so the id becomes known with the second chunk: the status
submitted comes late and takes the index of the first chunk again. -/
theorem late_submitted_repeats_index :
    (sentChunks (runChatStreamCollector wrappedOnly "u" ⟨"c", none, true⟩ none
        [⟨.chunk textChunk, true, true⟩,
          ⟨.chunk (.object [("task", .object [("id", .string "t")])]), true, true⟩]).log).map
        (fun chunk => (chunk.response, chunk.index)) =
      [(.agent textChunk false, 0), (.submitted "c" "t", 0),
        (.agent (.object [("task", .object [("id", .string "t"), ("contextId", .string "c")])]) false, 1),
        (.default, 2)] := by
  decide +kernel

/-! ### The settlement of the history -/

theorem settledLast_close (c : Collector) : SettledLast (c.close dropped).log ↔
    SettledLast c.log ∨ Stays dropped (c.uses + 2) ∧ c.historySettled = false := by
  by_cases hs : Stays dropped (c.uses + 2)
  · rw [(close_of_stays hs).2, and_iff_right hs, or_comm]
  · simp [close_of_leaves hs, hs]

theorem collectStep_settled (c : Collector) (x : NormalizedOutput) :
    ((collectStep config dropped c x).1.running = true ∨
        SettledLast ((collectStep config dropped c x).1.close dropped).log) ↔
      (c.running = true ∨ SettledLast (c.close dropped).log) ∧ SettledBefore config dropped c x := by
  cases hr : c.running with
  | false => simp [collectStep, hr, SettledBefore]
  | true =>
    cases hn : x.normalized with
    | error e =>
      have hf := collectStep_failed config dropped hr hn
      simp [hf.settled, SettledBefore, hn, Except.isOk, Except.toBool]
    | ok normalized =>
      by_cases hs : Stays dropped (c.uses + (Attempts config c x).toNat + 1)
      · have hc := collectStep_received hr hn hs
        have hfi : x.completion.any StreamCompletion.isWireFinal = true → x.completion.isSome = true := by
          cases x.completion <;> simp
        rw [hc.running, settledLast_close, hc.settled]
        simp only [SettledBefore, hs]
        cases hw : x.completion.any StreamCompletion.isWireFinal <;> simp_all
      · have hc := collectStep_missed hr hn hs
        simp [hc.running, hc.closed, hc.settled, SettledBefore, hr, hn, hs, Except.isOk, Except.toBool]

/-- The history is announced to have settled after the last chunk stored, exactly when a client that
leaves before an output is sent leaves nothing stored unannounced, and an agent whose channel just
ends has announced all or asked for no input with the client there to the end. -/
theorem history_settled_iff (W : WireTypes) (uuid : String) (config : ChatStreamCollectorConfig)
    (dropped : Option ℕ) (handed : List Handover) :
    SettledLast (runChatStreamCollector W uuid config dropped handed).log ↔
      (∀ pre x post, normalizedOutputs W uuid config handed = pre ++ x :: post → Reaches config dropped pre →
        x.normalized.isOk = true → ¬ Stays dropped (usesOf config (pre ++ [x])) →
          ¬ Unsettled config (pre ++ [{ x with completion := none }])) ∧
      (Reaches config dropped (normalizedOutputs W uuid config handed) →
        Unsettled config (normalizedOutputs W uuid config handed) →
          (∀ x ∈ normalizedOutputs W uuid config handed, x.completion = none) ∧
            Stays dropped (usesOf config (normalizedOutputs W uuid config handed) + 2)) := by
  rw [runChatStreamCollector]
  generalize normalizedOutputs W uuid config handed = outputs
  have hrun := Run.exec_iff_along (collectStep config dropped)
    (fun c => c.running = true ∨ SettledLast (c.close dropped).log) collectStep_settled start outputs
  rw [and_iff_right (.inl rfl), Run.along_iff_forall_split] at hrun
  obtain ⟨hr, hs⟩ := exec_reaches config dropped outputs
  have hsp : ∀ R P : Prop, P ↔ (R ∨ P) ∧ (R → P) := by tauto
  rw [hsp ((Run.exec (collectStep config dropped) start outputs).running = true) (SettledLast _), hrun]
  refine and_congr (forall₄_congr fun pre x post _ => ?_) ?_
  · obtain ⟨hr, hs⟩ := exec_reaches config dropped pre
    rw [SettledBefore, hr]
    refine forall_congr' fun h => forall_congr' fun _ => ?_
    obtain ⟨hu, hsn, -, -, hl⟩ := hs (hr.mpr h)
    rw [unsettled_concat, usesOf_concat, hu, hl, Attempts, hsn]
    refine forall_congr' fun _ => ?_
    have hann : NormalizedOutput.announces config { x with completion := none } = x.announces config := rfl
    rw [hann]
    cases x.stored <;> cases x.announces config <;> cases pre.any (·.announces config) <;> simp
  · rw [hr]
    refine forall_congr' fun h => ?_
    obtain ⟨hu, -, hse, -, hl⟩ := hs (hr.mpr h)
    rw [settledLast_close, hu, hse, hl, ← imp_iff_not_or, and_comm]
    simp

/-- The client is gone when a chunk is sent, or the agent's channel ends after a chunk that follows a
request for input: the last chunk stored is not followed by a settlement. -/
theorem stored_without_settlement :
    ¬ SettledLast (runChatStreamCollector wrappedOnly "u" ⟨"c", none, false⟩ (some 0)
        [⟨.chunk textChunk, true, true⟩]).log ∧
      ¬ SettledLast (runChatStreamCollector wrappedOnly "u" ⟨"c", none, false⟩ none
        [⟨.terminal textChunk .inputRequired, true, true⟩, ⟨.chunk textChunk, true, true⟩]).log := by
  decide +kernel

end AgentiumOs.Chat
