import AgentiumOs.Lib.Text

/-! The status of an A2A task: the typed kinds the graph records, the wire status
they are parsed from, and the table of allowed transitions between their tags. -/

namespace AgentiumOs.Tasks

open Lib

/-- The tag of a task state, one for each `TASK_STATE_*` wire text. -/
inductive TaskStateTag where
  | submitted
  | working
  | inputRequired
  | authRequired
  | completed
  | failed
  | canceled
  | rejected
  deriving DecidableEq

def isTerminalState : TaskStateTag → Bool
  | .completed | .failed | .canceled | .rejected => true
  | .submitted | .working | .inputRequired | .authRequired => false

/-- The transition table; a state may also be recorded again. -/
def isAllowedTransition (old new : TaskStateTag) : Bool :=
  if old = new then true
  else if isTerminalState old then false
  else
    match old, new with
    | .submitted, .working | .submitted, .completed | .submitted, .failed | .submitted, .canceled
    | .submitted, .rejected | .submitted, .inputRequired | .submitted, .authRequired
    | .working, .inputRequired | .working, .authRequired | .working, .completed | .working, .failed
    | .working, .canceled | .working, .rejected
    | .inputRequired, .working | .inputRequired, .canceled | .inputRequired, .rejected
    | .inputRequired, .completed | .inputRequired, .failed
    | .authRequired, .working | .authRequired, .canceled | .authRequired, .rejected
    | .authRequired, .completed | .authRequired, .failed => true
    | _, _ => false

theorem isAllowedTransition_canceled (h : isTerminalState tag = false) :
    isAllowedTransition tag .canceled = true := by
  cases tag <;> simp_all [isTerminalState, isAllowedTransition]

structure NonEmptyString where
  text : String
  nonblank : (Text.trim text).isEmpty = false
  deriving DecidableEq

def NonEmptyString.new (raw : String) : Option NonEmptyString :=
  if h : (Text.trim raw).isEmpty = false then some ⟨raw, h⟩ else none

/-- A task status with the payload it must carry. -/
inductive TaskStatusKind where
  | submitted
  | working
  | inputRequired (prompt : String)
  | authRequired
  | completed
  | failed (reason : NonEmptyString)
  | canceled
  | rejected
  deriving DecidableEq

def TaskStatusKind.tag : TaskStatusKind → TaskStateTag
  | submitted => .submitted
  | working => .working
  | inputRequired _ => .inputRequired
  | authRequired => .authRequired
  | completed => .completed
  | failed _ => .failed
  | canceled => .canceled
  | rejected => .rejected

inductive TaskState where
  | string (value : String)
  | integer (value : ℤ)
  deriving DecidableEq

/-- The text of each part of a status message; the other fields are not read here. -/
structure StatusMessage where
  parts : List (Option String)

/-- A wire status. `extra` holds the additional JSON members; a member that is
not a string has no text. -/
structure TaskStatus where
  state : Option TaskState
  message : Option StatusMessage
  extra : Finmap fun _ : String => Option String

inductive TaskError where
  | missingState
  | inputRequiredText
  | failedReason
  | failedReasonEmpty
  | unsupportedState (raw : String)
  | store (reason : String)
  deriving DecidableEq

def statusToString (status : TaskStatus) : Option String :=
  status.state.map fun
    | .string value => value
    | .integer value => toString value

/-- The non-blank part texts, trimmed, one per line. -/
def transcriptTextFromWireStatusMessage (message : StatusMessage) : Option String :=
  let lines := message.parts.filterMap fun part =>
    part.bind fun text => if (Text.trim text).isEmpty then none else some (Text.trim text)
  if lines.isEmpty then none else some ("\n".intercalate lines)

/-- The first of the two reason members that holds a non-blank string. -/
def reasonFromExtra (extra : Finmap fun _ : String => Option String) : Option String :=
  ["error_reason", "errorReason"].findSome? fun key =>
    (extra.lookup key).join.bind fun text =>
      if (Text.trim text).isEmpty then none else some (Text.trim text)

/-- The reason of a failed status: from `extra` first, else from the message. -/
def parseFailedReason (status : TaskStatus) : Except TaskError NonEmptyString :=
  let fromMessage := (status.message.bind transcriptTextFromWireStatusMessage).bind fun text =>
    if (Text.trim text).isEmpty then none else some (Text.trim text)
  match (reasonFromExtra status.extra).or fromMessage with
  | none => .error .failedReason
  | some raw =>
      match NonEmptyString.new raw with
      | none => .error .failedReasonEmpty
      | some reason => .ok reason

def parseTagOnlyTaskStatusKind : String → Option TaskStatusKind
  | "TASK_STATE_SUBMITTED" | "submitted" => some .submitted
  | "TASK_STATE_WORKING" | "working" => some .working
  | "TASK_STATE_AUTH_REQUIRED" | "auth-required" | "auth_required" => some .authRequired
  | "TASK_STATE_COMPLETED" | "completed" => some .completed
  | "TASK_STATE_CANCELED" | "canceled" | "cancelled" => some .canceled
  | "TASK_STATE_REJECTED" | "rejected" => some .rejected
  | _ => none

def wireStatusToKind (status : TaskStatus) : Except TaskError TaskStatusKind :=
  match statusToString status with
  | none => .error .missingState
  | some "TASK_STATE_INPUT_REQUIRED" =>
      match status.message.bind transcriptTextFromWireStatusMessage with
      | none => .error .inputRequiredText
      | some prompt => .ok (.inputRequired prompt)
  | some "TASK_STATE_FAILED" => (parseFailedReason status).map .failed
  | some raw =>
      match parseTagOnlyTaskStatusKind raw with
      | none => .error (.unsupportedState raw)
      | some kind => .ok kind

end AgentiumOs.Tasks
