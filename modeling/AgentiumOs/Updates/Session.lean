import AgentiumOs.Lib.Ordered
import AgentiumOs.Updates.Frames

/-! Writers of task updates, the broadcast channel, and a session that replays the
store and then follows the channel. A writer mints an anchor, commits its frame
and broadcasts it; the steps of different writers, the three queries of a replay
read and the polls of the session interleave freely. -/

namespace AgentiumOs.Updates

open Lib.Ordered

/-- How far a replay read has come: it queries messages, then artifacts, then statuses. -/
inductive ReplayRead where
  | messages
  | artifacts (messages : List TaskUpdateFrame)
  | statuses (messages artifacts : List TaskUpdateFrame)
  deriving DecidableEq

/-- A read is part of opening the session or follows a lag. -/
inductive SessionState where
  | reading (opening : Bool) (read : ReplayRead)
  | replaying (stream : List TaskUpdateFrame)
  | live
  | closed
  deriving DecidableEq

/-- `queue` holds what was sent on the channel since the receiver last looked;
`attached` says that its channel is still the registered one. -/
structure TaskUpdateSession where
  since : Option TaskReplayCursor
  lastCursor : Option TaskReplayCursor
  queue : List TaskUpdateFrame
  attached : Bool
  state : SessionState
  delivered : List TaskUpdateFrame
  deriving DecidableEq

/-- Subscribe first; the replay read starts afterwards. -/
def TaskUpdateSession.subscribe (since : Option TaskReplayCursor) : TaskUpdateSession :=
  { since, lastCursor := since, queue := [], attached := true, state := .reading true .messages, delivered := [] }

/-- One query of a replay read, ordered by event order. -/
def queryReplay (committed : List TaskUpdateFrame) (since : Option TaskReplayCursor)
    (kind : TaskUpdateFrame → Bool) : List TaskUpdateFrame :=
  (committed.filter fun frame => kind frame && after TaskUpdateFrame.cursor since frame).mergeSort
    fun a b => decide (a.cursor.eventOrder ≤ b.cursor.eventOrder)

namespace TaskUpdateSession

def deliver (session : TaskUpdateSession) (frame : TaskUpdateFrame) : TaskUpdateSession :=
  { session with lastCursor := some frame.cursor, delivered := session.delivered ++ [frame] }

/-- The next query of a read; after the third the frames are merged and sorted. -/
def pollRead (committed : List TaskUpdateFrame) (opening : Bool) (session : TaskUpdateSession) :
    ReplayRead → TaskUpdateSession
  | .messages =>
      let messages := queryReplay committed session.lastCursor TaskUpdateFrame.isMessage
      { session with state := .reading opening (.artifacts messages) }
  | .artifacts messages =>
      let artifacts := queryReplay committed session.lastCursor TaskUpdateFrame.isArtifact
      { session with state := .reading opening (.statuses messages artifacts) }
  | .statuses messages artifacts =>
      let statuses := queryReplay committed session.lastCursor TaskUpdateFrame.isStatus
      let frames := messages ++ artifacts ++ statuses
      { session with state := .replaying (frames.mergeSort fun a b => decide (a.cursor ≤ b.cursor)) }

/-- `recv` on the channel. A receiver that is more than `capacity` behind is told
so, moved to the oldest frame kept, and the session reads the store again. -/
def pollLive (capacity : ℕ) (session : TaskUpdateSession) : TaskUpdateSession :=
  if session.queue.length > capacity then
    { session with
      queue := session.queue.drop (session.queue.length - capacity), state := .reading false .messages }
  else match session.queue with
    | frame :: queue =>
        if after TaskUpdateFrame.cursor session.lastCursor frame then
          { session with queue }.deliver frame
        else { session with queue }
    | [] => if session.attached then session else { session with state := .closed }

/-- One turn of the loop of `next`. A read that fails leaves no session while it
is being opened, and a live one after a lag. -/
def poll (capacity : ℕ) (committed : List TaskUpdateFrame) (fault : Bool) (session : TaskUpdateSession) :
    Option TaskUpdateSession :=
  match session.state with
  | .reading opening read =>
      if fault then if opening then none else some { session with state := .live }
      else some (pollRead committed opening session read)
  | .replaying (frame :: stream) => some ({ session with state := .replaying stream }.deliver frame)
  | .replaying [] => some { session with state := .live }
  | .live => some (pollLive capacity session)
  | .closed => some session

/-- A frame sent on the registered channel; a terminal one retires it. -/
def receive (session : TaskUpdateSession) (frame : TaskUpdateFrame) : TaskUpdateSession :=
  if session.attached then
    { session with queue := session.queue ++ [frame], attached := !frame.isTerminal }
  else session

def Drained (session : TaskUpdateSession) : Prop :=
  session.state = .closed ∨ session.state = .live ∧ session.queue = []

instance (session : TaskUpdateSession) : Decidable session.Drained := by
  unfold Drained
  infer_instance

end TaskUpdateSession

/-- The writers of one task, by where their frames are, and a session on it. -/
structure UpdateSystem where
  nextCounter : ℕ
  allocated : List TaskUpdateFrame
  committed : List TaskUpdateFrame
  unsent : List TaskUpdateFrame
  session : Option TaskUpdateSession
  deriving DecidableEq

/-- Nothing is written yet; the counter starts at the time the process was started. -/
def UpdateSystem.fresh (counter : ℕ) : UpdateSystem :=
  { nextCounter := counter, allocated := [], committed := [], unsent := [], session := none }

inductive UpdateStep where
  | allocate (fact : TaskFact)
  | abandon (cursor : TaskReplayCursor)
  | commit (cursor : TaskReplayCursor)
  | broadcast (cursor : TaskReplayCursor)
  | openSession (since : Option TaskReplayCursor)
  | poll (fault : Bool)

def takeFrame (frames : List TaskUpdateFrame) (cursor : TaskReplayCursor) :
    Option (TaskUpdateFrame × List TaskUpdateFrame) :=
  (frames.find? fun frame => frame.cursor = cursor).map fun frame =>
    (frame, frames.filter fun other => other.cursor ≠ cursor)

def updateStep (capacity : ℕ) (s : UpdateSystem) (step : UpdateStep) : UpdateSystem × Unit :=
  match step with
  | .allocate fact =>
      ({ s with
          nextCounter := s.nextCounter + 1
          allocated := s.allocated ++ [⟨fact, .fromCounter s.nextCounter⟩] }, ())
  | .abandon cursor =>
      ({ s with allocated := s.allocated.filter fun frame => frame.cursor ≠ cursor }, ())
  | .commit cursor =>
      match takeFrame s.allocated cursor with
      | none => (s, ())
      | some (frame, allocated) =>
          ({ s with allocated, committed := s.committed ++ [frame], unsent := s.unsent ++ [frame] }, ())
  | .broadcast cursor =>
      match takeFrame s.unsent cursor with
      | none => (s, ())
      | some (frame, unsent) =>
          ({ s with unsent, session := s.session.map fun session => session.receive frame }, ())
  | .openSession since =>
      match s.session with
      | none => ({ s with session := some (.subscribe since) }, ())
      | some _ => (s, ())
  | .poll fault =>
      ({ s with session := s.session.bind fun session => session.poll capacity s.committed fault }, ())

end AgentiumOs.Updates
