import AgentiumOs.Lib.Interleave

/-! The invoker of sandboxed session tools. A session is opened over a channel of its
own to the adapter in a sandbox; sends, reads and the finish of the session use that
channel one at a time. Calls run concurrently, and an adapter may answer a request
long after the call that sent it gave up. Channels carry whole frames. -/

namespace AgentiumOs.Sandbox

open Lib Lib.Interleave

inductive SessionResetOutcome where
  | ok
  | unsupported
  deriving DecidableEq

/-- The fields a result object may have; each method reads its own. -/
structure SessionResult where
  sessionId : Option String
  step : Option String
  outcome : Option SessionResetOutcome
  deriving DecidableEq

/-- The response to a request, with a result unless it reports an error. -/
structure JsonRpcResponse where
  id : ℕ
  result : Option SessionResult
  deriving DecidableEq

/-- A channel to an adapter: the requests it has not answered, by their ids, and the
responses the invoker has not read. -/
structure TsrpcChannel where
  requests : List ℕ
  responses : List JsonRpcResponse

/-- The flags of a live session; the session is known by its channel. -/
structure LiveSession where
  channelLocked : Bool
  readInflight : Bool
  cancelled : Bool
  pooled : Bool

/-- The state the calls share. The channels are numbered as their sandboxes are checked
out. What was returned to callers and which sessions are open is kept for the
statements about runs. -/
structure Invoker where
  sessions : Finmap fun _ : String => ℕ
  live : ℕ → LiveSession
  channels : ℕ → TsrpcChannel
  checkouts : ℕ
  nextRpcId : ℕ
  released : List (ℕ × Bool)
  returned : List (ℕ × JsonRpcResponse)
  openSessions : List (String × ℕ)

def Invoker.new : Invoker where
  sessions := ∅
  live _ := ⟨false, false, false, true⟩
  channels _ := ⟨[], []⟩
  checkouts := 0
  nextRpcId := 1
  released := []
  returned := []
  openSessions := []

inductive Call where
  | sessionOpen
  | sessionSend (sessionId : String)
  | sessionRead (sessionId : String)
  | sessionFinish (sessionId : String)
  | sessionAbort (sessionId : String)

/-- The requests of a call on a session that is open. -/
inductive Method where
  | send
  | read
  | finish
  | reset
  deriving DecidableEq

inductive Point where
  | idle
  /-- A sandbox is checked out and its channel open. -/
  | opening (channel : ℕ)
  | awaitingOpen (channel id : ℕ)
  /-- The adapter issued a session id. -/
  | issued (channel : ℕ) (sessionId : String)
  /-- A read is about to set the flag of its session. -/
  | claiming (channel : ℕ)
  /-- The call waits for the channel lock. -/
  | acquiring (method : Method) (channel : ℕ)
  | holding (method : Method) (channel : ℕ)
  | awaiting (method : Method) (channel id : ℕ)
  /-- The finish request is over. -/
  | settling (channel : ℕ) (ok : Bool)
  | releasing (channel : ℕ) (idle : Bool)
  | aborting (channel : ℕ)

/-- What a call does next. A timeout stands for every way in which a request ends
without a response. -/
inductive Move where
  | start (call : Call)
  | proceed
  | receive
  | timeout

namespace Invoker

variable (s : Invoker)

def updateLive (channel : ℕ) (f : LiveSession → LiveSession) : Invoker :=
  { s with live := Function.update s.live channel (f (s.live channel)) }

def updateChannel (channel : ℕ) (f : TsrpcChannel → TsrpcChannel) : Invoker :=
  { s with channels := Function.update s.channels channel (f (s.channels channel)) }

/-- A request under the next id, which wraps around. -/
def sendRequest (channel : ℕ) : Invoker :=
  { s.updateChannel channel fun c => { c with requests := c.requests ++ [s.nextRpcId] } with
    nextRpcId := (s.nextRpcId + 1) % 2 ^ 64 }

/-- The call lets go of the channel; a read also clears its flag. -/
def leave (method : Method) (channel : ℕ) : Invoker :=
  s.updateLive channel fun l =>
    { l with
      channelLocked := false
      readInflight := if method = .read then false else l.readInflight }

def insertSession (sessionId : String) (channel : ℕ) : Invoker :=
  { s with
    sessions := s.sessions.insert sessionId channel
    openSessions := (sessionId, channel) :: s.openSessions }

/-- The session that an id leads to is taken out of the map. -/
def removeSession (sessionId : String) (channel : ℕ) : Invoker :=
  { s with
    sessions := s.sessions.erase sessionId
    openSessions := s.openSessions.filter (· ≠ (sessionId, channel)) }

/-- The invoker never looks at the id of the response it reads. -/
def readResponse (channel id : ℕ) (response : JsonRpcResponse) (rest : List JsonRpcResponse) : Invoker :=
  { s.updateChannel channel fun c => { c with responses := rest } with
    returned := (id, response) :: s.returned }

end Invoker

def start (s : Invoker) : Call → Invoker × Point
  | .sessionOpen => ({ s with checkouts := s.checkouts + 1 }, .opening s.checkouts)
  | .sessionSend sessionId =>
      match s.sessions.lookup sessionId with
      | none => (s, .idle)
      | some channel => (s, .acquiring .send channel)
  | .sessionRead sessionId =>
      match s.sessions.lookup sessionId with
      | none => (s, .idle)
      | some channel => (s, .claiming channel)
  | .sessionFinish sessionId =>
      match s.sessions.lookup sessionId with
      | none => (s, .idle)
      | some channel => (s.removeSession sessionId channel, .acquiring .finish channel)
  | .sessionAbort sessionId =>
      match s.sessions.lookup sessionId with
      | none => (s, .idle)
      | some channel =>
          ((s.removeSession sessionId channel).updateLive channel fun l => { l with cancelled := true },
            .aborting channel)

/-- Where a request without a response leaves its call. -/
def afterTimeout (channel : ℕ) : Method → Point
  | .send => .idle
  | .read => .idle
  | .finish => .settling channel false
  | .reset => .releasing channel false

/-- A reset result without an outcome counts as a successful reset. -/
def resetOk (result : SessionResult) : Bool :=
  result.outcome.getD .ok = .ok

def afterResponse (channel : ℕ) (result : Option SessionResult) : Method → Point
  | .send => .idle
  | .read => .idle
  | .finish => .settling channel result.isSome
  | .reset => .releasing channel (result.any resetOk)

def afterOpen (channel : ℕ) (result : Option SessionResult) : Point :=
  match result.bind SessionResult.sessionId with
  | some sessionId => .issued channel sessionId
  | none => .releasing channel false

def proceed (reuseAfterSession : Bool) (s : Invoker) : Point → Invoker × Point
  | .opening channel => (s.sendRequest channel, .awaitingOpen channel s.nextRpcId)
  | .issued channel sessionId => (s.insertSession sessionId channel, .idle)
  | .claiming channel =>
      if (s.live channel).readInflight then (s, .idle)
      else if (s.live channel).cancelled then (s, .idle)
      else (s.updateLive channel fun l => { l with readInflight := true }, .acquiring .read channel)
  | .acquiring method channel =>
      if (s.live channel).channelLocked then (s, .acquiring method channel)
      else (s.updateLive channel fun l => { l with channelLocked := true }, .holding method channel)
  | .holding method channel =>
      if method = .read ∧ (s.live channel).cancelled then (s.leave method channel, .idle)
      else (s.sendRequest channel, .awaiting method channel s.nextRpcId)
  | .awaiting method channel id =>
      if method = .read ∧ (s.live channel).cancelled then (s.leave method channel, .idle)
      else (s, .awaiting method channel id)
  | .settling channel ok =>
      if (s.live channel).pooled then
        (s.updateLive channel fun l => { l with pooled := false },
          if ok && reuseAfterSession then .acquiring .reset channel else .releasing channel false)
      else (s, .idle)
  | .aborting channel =>
      if (s.live channel).pooled then
        (s.updateLive channel fun l => { l with pooled := false }, .releasing channel false)
      else (s, .idle)
  | .releasing channel idle => ({ s with released := (channel, idle) :: s.released }, .idle)
  | point => (s, point)

def receive (s : Invoker) : Point → Invoker × Point
  | .awaitingOpen channel id =>
      match (s.channels channel).responses with
      | [] => (s, .awaitingOpen channel id)
      | response :: rest =>
          (s.readResponse channel id response rest, afterOpen channel response.result)
  | .awaiting method channel id =>
      if method = .read ∧ (s.live channel).cancelled then (s, .awaiting method channel id)
      else
        match (s.channels channel).responses with
        | [] => (s, .awaiting method channel id)
        | response :: rest =>
            ((s.readResponse channel id response rest).leave method channel,
              afterResponse channel response.result method)
  | point => (s, point)

def timeout (s : Invoker) : Point → Invoker × Point
  | .opening channel => (s, .releasing channel false)
  | .awaitingOpen channel _ => (s, .releasing channel false)
  | .holding method channel => (s.leave method channel, afterTimeout channel method)
  | .awaiting method channel _ => (s.leave method channel, afterTimeout channel method)
  | point => (s, point)

def advance (reuseAfterSession : Bool) : Move → Invoker → Point → Invoker × Point
  | .start call, s, .idle => start s call
  | .start _, s, point => (s, point)
  | .proceed, s, point => proceed reuseAfterSession s point
  | .receive, s, point => receive s point
  | .timeout, s, point => timeout s point

/-- The adapter answers one of the requests it was sent, under the id of the request. -/
def answer (s : Invoker) (channel id : ℕ) (result : Option SessionResult) : Invoker :=
  if id ∈ (s.channels channel).requests then
    s.updateChannel channel fun c => ⟨c.requests.erase id, c.responses ++ [⟨id, result⟩]⟩
  else s

inductive InvokerOp (ι : Type) where
  | call (thread : ι) (move : Move)
  | answer (channel id : ℕ) (result : Option SessionResult)

variable {ι : Type} [DecidableEq ι] (reuseAfterSession : Bool)

def invokerStep (p : Pool Invoker Point ι) : InvokerOp ι → Pool Invoker Point ι × Unit
  | .call thread move => turn (advance reuseAfterSession move) p thread
  | .answer channel id result => ({ p with shared := answer p.shared channel id result }, ())

def startPool : Pool Invoker Point ι := ⟨.new, fun _ => .idle⟩

/-- The channel of a session that is still being opened. -/
def Point.opens : Point → Option ℕ
  | .opening channel => some channel
  | .awaitingOpen channel _ => some channel
  | .issued channel _ => some channel
  | _ => none

def Point.awaits : Point → Option (ℕ × ℕ)
  | .awaitingOpen channel id => some (channel, id)
  | .awaiting _ channel id => some (channel, id)
  | _ => none

/-- The channel on which a call is about to send a request. -/
def Point.sendsOn (s : Invoker) : Point → Option ℕ
  | .opening channel => some channel
  | .holding method channel =>
      if method = .read ∧ (s.live channel).cancelled then none else some channel
  | _ => none

structure SameSessions (s s' : Invoker) : Prop where
  sessions : s'.sessions = s.sessions
  openSessions : s'.openSessions = s.openSessions
  checkouts : s'.checkouts = s.checkouts

structure SameChannels (s s' : Invoker) : Prop where
  channels : s'.channels = s.channels
  returned : s'.returned = s.returned

/-- A move leaves the sessions and the channels alone, or it does one thing: it checks out
a sandbox, sends a request, reads a response, enters a session or takes one out. -/
inductive Acts (move : Move) (s : Invoker) (t : Point) (s' : Invoker) (t' : Point) : Prop
  | quiet (hsessions : SameSessions s s') (hchannels : SameChannels s s')
      (hopens : t'.opens = none ∨ t'.opens = t.opens) (hawaits : t'.awaits = none ∨ t'.awaits = t.awaits)
  | checksOut (hstate : s' = { s with checkouts := s.checkouts + 1 }) (hpoint : t' = .opening s.checkouts)
  | sends (channel : ℕ) (hmove : move = .proceed) (hsends : t.sendsOn s = some channel)
      (hstate : s' = s.sendRequest channel) (hopens : t'.opens = none ∨ t'.opens = t.opens)
      (hawaits : t'.awaits = some (channel, s.nextRpcId))
  | receives (channel id : ℕ) (response : JsonRpcResponse) (rest : List JsonRpcResponse)
      (hawaits : t.awaits = some (channel, id))
      (hresponses : (s.channels channel).responses = response :: rest)
      (hsessions : SameSessions s s') (hchannels : SameChannels (s.readResponse channel id response rest) s')
      (hopens : t'.opens = none ∨ t'.opens = t.opens) (hawaits' : t'.awaits = none)
  | inserts (channel : ℕ) (sessionId : String) (hissued : t = .issued channel sessionId)
      (hstate : s' = s.insertSession sessionId channel) (hpoint : t' = .idle)
  | removes (channel : ℕ) (sessionId : String) (hlookup : s.sessions.lookup sessionId = some channel)
      (hsessions : SameSessions (s.removeSession sessionId channel) s') (hchannels : SameChannels s s')
      (hopens : t'.opens = none) (hawaits : t'.awaits = none)

variable (s : Invoker) (t : Point)

theorem Acts.refl (m : Move) : Acts m s t s t :=
  .quiet ⟨rfl, rfl, rfl⟩ ⟨rfl, rfl⟩ (.inr rfl) (.inr rfl)

variable {s t} in
/-- A move that only touches flags and leaves a point that opens and awaits nothing. -/
theorem Acts.ends {m : Move} {s' : Invoker} {t' : Point} (hs : SameSessions s s')
    (hc : SameChannels s s') (ho : t'.opens = none) (ha : t'.awaits = none) :
    Acts m s t s' t' :=
  .quiet hs hc (.inl ho) (.inl ha)

theorem acts_start (c : Call) : Acts (.start c) s t (start s c).1 (start s c).2 := by
  cases c with
  | sessionOpen => exact .checksOut rfl rfl
  | sessionSend sessionId | sessionRead sessionId =>
    simp only [start]
    split <;> exact .ends ⟨rfl, rfl, rfl⟩ ⟨rfl, rfl⟩ rfl rfl
  | sessionFinish sessionId | sessionAbort sessionId =>
    simp only [start]
    split
    · exact .ends ⟨rfl, rfl, rfl⟩ ⟨rfl, rfl⟩ rfl rfl
    · exact .removes _ sessionId ‹_› ⟨rfl, rfl, rfl⟩ ⟨rfl, rfl⟩ rfl rfl

theorem acts_proceed (reuseAfterSession : Bool) :
    Acts .proceed s t (proceed reuseAfterSession s t).1 (proceed reuseAfterSession s t).2 := by
  cases t with
  | idle | awaitingOpen c id => exact .refl _ _ _
  | opening c => exact .sends c rfl rfl rfl (.inr rfl) rfl
  | issued c sessionId => exact .inserts c sessionId rfl rfl rfl
  | holding m c =>
    by_cases hcancelled : m = .read ∧ (s.live c).cancelled = true
    · simp only [proceed, hcancelled]
      exact .ends ⟨rfl, rfl, rfl⟩ ⟨rfl, rfl⟩ rfl rfl
    · simp only [proceed, hcancelled]
      exact .sends c rfl (if_neg hcancelled) rfl (.inl rfl) rfl
  | awaiting m c id =>
    simp only [proceed]
    split_ifs
    · exact .ends ⟨rfl, rfl, rfl⟩ ⟨rfl, rfl⟩ rfl rfl
    · exact .refl _ _ _
  | releasing c idle => exact .ends ⟨rfl, rfl, rfl⟩ ⟨rfl, rfl⟩ rfl rfl
  | _ =>
    simp only [proceed]
    split_ifs <;> exact .ends ⟨rfl, rfl, rfl⟩ ⟨rfl, rfl⟩ rfl rfl

theorem acts_receive : Acts .receive s t (receive s t).1 (receive s t).2 := by
  cases t with
  | awaitingOpen c id =>
    simp only [receive]
    split
    · exact .refl _ _ _
    · rename_i r re hr
      have ha : ((afterOpen c r.result).opens = none ∨
          (afterOpen c r.result).opens = some c) ∧
          (afterOpen c r.result).awaits = none := by
        unfold afterOpen
        split
        · exact ⟨.inr rfl, rfl⟩
        · exact ⟨.inl rfl, rfl⟩
      exact .receives c id r re rfl hr ⟨rfl, rfl, rfl⟩ ⟨rfl, rfl⟩ ha.1 ha.2
  | awaiting m c id =>
    simp only [receive]
    split_ifs
    · exact .refl _ _ _
    · split
      · exact .refl _ _ _
      · rename_i r re hr
        have ha : (afterResponse c r.result m).opens = none ∧
            (afterResponse c r.result m).awaits = none := by
          cases m <;> exact ⟨rfl, rfl⟩
        exact .receives c id r re rfl hr ⟨rfl, rfl, rfl⟩ ⟨rfl, rfl⟩ (.inl ha.1) ha.2
  | _ => exact .refl _ _ _

theorem acts_timeout : Acts .timeout s t (timeout s t).1 (timeout s t).2 := by
  cases t with
  | opening c | awaitingOpen c id => exact .ends ⟨rfl, rfl, rfl⟩ ⟨rfl, rfl⟩ rfl rfl
  | holding m c | awaiting m c id =>
    exact .ends ⟨rfl, rfl, rfl⟩ ⟨rfl, rfl⟩ (by cases m <;> rfl) (by cases m <;> rfl)
  | _ => exact .refl _ _ _

theorem acts_advance (m : Move) :
    Acts m s t (advance reuseAfterSession m s t).1 (advance reuseAfterSession m s t).2 := by
  cases m with
  | start call =>
    cases t with
    | idle => exact acts_start s .idle call
    | _ => exact .refl _ _ _
  | proceed => exact acts_proceed s t reuseAfterSession
  | receive => exact acts_receive s t
  | timeout => exact acts_timeout s t

end AgentiumOs.Sandbox
