import AgentiumOs.Lib.Json

/-! The normalizer of the chunks of an agent. A bare message or task is wrapped, and what a client
needs and the agent left out is filled in from the scope of the invocation. -/

namespace AgentiumOs.Chat

open Lib.Json

/-- A value read as a message or a task and written again, if it can be read as one. -/
structure WireTypes where
  message : Value → Option (Except String Value)
  task : Value → Option (Except String Value)

structure JsChunkNormalizer where
  contextId : String
  taskId : String
  messageCounter : ℕ

namespace JsChunkNormalizer

def new (contextId : String) (taskIdOpt : Option String) (uuid : String) : JsChunkNormalizer :=
  ⟨contextId, taskIdOpt.getD ("js-task-" ++ uuid), 0⟩

abbrev Normalizing := StateM JsChunkNormalizer

abbrev Members := List (String × Value)

def nextMessageId : Normalizing String := do
  modify fun n => { n with messageCounter := n.messageCounter + 1 }
  let n ← get
  pure ("js-msg-" ++ n.contextId ++ "-" ++ toString n.messageCounter)

def containsKey (map : Members) (key : String) : Bool := map.any (·.1 == key)

def orInsertWith (key : String) (make : Normalizing String) (map : Members) : Normalizing Members := do
  if containsKey map key then pure map else pure (map ++ [(key, .string (← make))])

/-- The member under the key, if there is one, is changed in its place. -/
def getMut (key : String) (change : Value → Normalizing Value) (map : Members) : Normalizing Members :=
  map.mapM fun (k, value) => do if k = key then pure (k, ← change value) else pure (k, value)

def onObject (change : Members → Normalizing Members) : Value → Normalizing Value
  | .object map => do pure (.object (← change map))
  | value => pure value

def ensureContextAndTaskFields (map : Members) : Normalizing Members := do
  let map ← orInsertWith "contextId" (contextId <$> get) map
  orInsertWith "taskId" (taskId <$> get) map

def ensureMessageFields : Value → Normalizing Value := onObject fun map => do
  let map ← orInsertWith "messageId" nextMessageId map
  let map ← orInsertWith "role" (pure "ROLE_AGENT") map
  ensureContextAndTaskFields map

def ensureStatusFields : Value → Normalizing Value := onObject (getMut "message" ensureMessageFields)

def ensureHistory : Value → Normalizing Value
  | .array messages => do pure (.array (← messages.mapM ensureMessageFields))
  | value => pure value

def ensureTaskFields : Value → Normalizing Value := onObject fun map => do
  let map ← orInsertWith "id" (taskId <$> get) map
  let map ← orInsertWith "contextId" (contextId <$> get) map
  let map ← getMut "history" ensureHistory map
  getMut "status" ensureStatusFields map

def ensureStatusUpdateFields : Value → Normalizing Value := onObject fun map => do
  getMut "status" ensureStatusFields (← ensureContextAndTaskFields map)

def ensureArtifactUpdateFields : Value → Normalizing Value := onObject ensureContextAndTaskFields

/-- An update comes with its task. -/
def ensureTask (map : Members) : Normalizing Members := do
  if (containsKey map "statusUpdate" || containsKey map "artifactUpdate") && !containsKey map "task" then
    let n ← get
    let task ← ensureTaskFields (.object [("id", .string n.taskId), ("contextId", .string n.contextId)])
    pure (map ++ [("task", task)])
  else pure map

def ensureFields : Value → Normalizing Value := onObject fun map => do
  let map ← ensureTask map
  let map ← getMut "message" ensureMessageFields map
  let map ← getMut "task" ensureTaskFields map
  let map ← getMut "statusUpdate" ensureStatusUpdateFields map
  getMut "artifactUpdate" ensureArtifactUpdateFields map

def isWrapped : Value → Bool
  | .object map => ["message", "task", "statusUpdate", "artifactUpdate"].any (containsKey map)
  | _ => false

def normalizeValue (W : WireTypes) (value : Value) : Normalizing (Except String Value) := do
  if isWrapped value then pure (.ok (← ensureFields value))
  else
    match W.message value, W.task value with
    | some (.ok message), _ => pure (.ok (← ensureFields (.object [("message", message)])))
    | none, some (.ok task) => pure (.ok (← ensureFields (.object [("task", task)])))
    | some (.error err), _ | none, some (.error err) => pure (.error err)
    | none, none =>
        if (value.get "parts").isSome then pure (.ok (.object [("message", ← ensureMessageFields value)]))
        else pure (.ok (← ensureFields value))

end JsChunkNormalizer

end AgentiumOs.Chat
