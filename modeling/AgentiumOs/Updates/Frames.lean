import AgentiumOs.Tasks.Graph

/-! Task update frames and their replay cursors. Cursors are ordered by event
order and then by anchor; the anchors of a process come from one counter. -/

namespace AgentiumOs.Updates

open Tasks

structure TaskReplayCursor where
  eventOrder : ℕ
  anchor : String
  deriving DecidableEq

namespace TaskReplayCursor

instance : LinearOrder TaskReplayCursor :=
  LinearOrder.lift' (fun c => toLex (c.eventOrder, c.anchor)) fun a b h => by
    cases a
    cases b
    simpa using h

/-- The cursor of the anchor minted from a counter. -/
def fromCounter (n : ℕ) : TaskReplayCursor := ⟨n, "prov-" ++ n.repr⟩

end TaskReplayCursor

inductive TaskFact where
  | statusTransition (state : TaskStateNode)
  | artifactGenerated (artifact : ArtifactNode)
  | messageReceived (messageId : String)
  | messageSent (messageId : String)
  deriving DecidableEq

structure TaskUpdateFrame where
  fact : TaskFact
  cursor : TaskReplayCursor
  deriving DecidableEq

namespace TaskUpdateFrame

def isMessage (frame : TaskUpdateFrame) : Bool :=
  match frame.fact with
  | .messageReceived _ | .messageSent _ => true
  | _ => false

def isArtifact (frame : TaskUpdateFrame) : Bool :=
  match frame.fact with
  | .artifactGenerated _ => true
  | _ => false

def isStatus (frame : TaskUpdateFrame) : Bool :=
  match frame.fact with
  | .statusTransition _ => true
  | _ => false

/-- The frame after which the writer retires the channel. -/
def isTerminal (frame : TaskUpdateFrame) : Bool :=
  match frame.fact with
  | .statusTransition state => isTerminalState state.newStatus.tag
  | _ => false

end TaskUpdateFrame

end AgentiumOs.Updates
