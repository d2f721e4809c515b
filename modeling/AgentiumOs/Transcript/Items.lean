import AgentiumOs.Lib.Json
import AgentiumOs.Lib.Text

/-! The items of a conversation transcript, and how a row of the provenance graph
becomes items: a message one, a tool invocation a call and a result, a session step
one. A row that lacks what its kind needs is skipped. -/

namespace AgentiumOs.Transcript

open Lib.Json (Value)
open Lib.Text (trim contains eqIgnoreAsciiCase)

inductive OperationalEventKind where
  | dispatchRejected
  | dispatchTransportError
  | dispatchAccepted
  | sourcePollRecorded
  | llmCallFailed
  | promptRejected
  | taskStatusChanged
  deriving DecidableEq

inductive OperationalEventSeverity where
  | info
  | warning
  | error
  deriving DecidableEq

structure OperationalEventContent where
  kind : OperationalEventKind
  severity : OperationalEventSeverity
  summary : String
  detail : Option String
  agentPackage : Option String
  agentInstanceId : Option String
  deriving DecidableEq

inductive PlanningEventKind where
  | intentResolved
  | intentRevised
  | planCommitted
  | planSuperseded
  | planStepStatusChanged
  deriving DecidableEq

structure PlanningEventContent where
  kind : PlanningEventKind
  summary : String
  newStatus : Option String
  deriving DecidableEq

inductive ToolSessionPhase where
  | execute
  | «open»
  | send
  | read
  | next
  | finish
  | abort
  | unknown (label : String)
  deriving DecidableEq

namespace ToolSessionPhase

def isSessionPhase : ToolSessionPhase → Bool
  | execute | unknown _ => false
  | _ => true

def fromMetadata (metadata : Value) : ToolSessionPhase :=
  match ((metadata.get "phase").bind Value.asStr).getD "unknown" with
  | "execute" => execute
  | "open" => «open»
  | "send" => send
  | "read" | "search_read" | "page_read" => read
  | "next" => next
  | "finish" => finish
  | "abort" => abort
  | other => unknown other

end ToolSessionPhase

inductive ToolOutcome where
  | result (value : Value)
  | error (value : Value)
  | statusOnly
  deriving DecidableEq

inductive SessionStepOp where
  | «open»
  | sendDone (archiveRef header informedBy : String)
  | searchRead (archiveRef grep : String) (offset limit : ℕ)
  | pageRead (archiveRef : String) (offset limit : ℕ)
  deriving DecidableEq

inductive ConversationItemContent where
  | message (text : String) (citations : List String)
  | toolCall (toolName : String) (args : Value) (fsmPhase : ToolSessionPhase)
  | toolResult (toolName : String) (fsmPhase : ToolSessionPhase) (outcome : ToolOutcome)
  | sessionStep (toolName : String) (op : SessionStepOp)
  | operational (event : OperationalEventContent)
  | planning (event : PlanningEventContent)
  | compactionSummary (summary : String) (coveredEventOrderStart coveredEventOrderEnd : ℕ)
  deriving DecidableEq

/-- One line of a transcript. `timestampMs` holds the event order the row was stored with. The
program's item does not name the graph node it comes from; here `nodeId` does, so that lines of
different rows stay apart even when they look alike. -/
structure ConversationContextItem where
  timestampMs : ℕ
  activityAnchor : String
  role : String
  content : ConversationItemContent
  nodeId : Option String
  deriving DecidableEq

/-- The string properties a host row may carry, as stored. -/
structure HostIngressProps where
  kind : Option String
  sourceKind : Option String
  sourceKey : Option String
  schemaVersion : Option String
  recordCount : Option ℕ
  routingKey : Option String
  targetPackage : Option String
  targetInstance : Option String
  reason : Option String
  deriving DecidableEq

def HostIngressProps.absent : HostIngressProps :=
  ⟨none, none, none, none, none, none, none, none, none⟩

/-- A message node: its role, the text of its content, its cited references, and the agent
instance a host dispatch row points at. -/
structure MessageProps where
  role : String
  text : String
  citations : List String
  ingress : HostIngressProps
  dispatchTarget : Option (String × String)
  deriving DecidableEq

/-- A tool invocation node: `argsEdge` is the role and type of its edge to the arguments;
`callPayload` and `resultPayload` are the archived bodies, when they are kept apart from the
metadata. -/
structure ToolCallProps where
  toolName : Option String
  activityOutcome : Option String
  argsEdge : Option (String × String)
  metadata : Value
  callPayload : Option Value
  resultPayload : Option Value
  deriving DecidableEq

structure SessionStepProps where
  toolName : Option String
  opKind : Option String
  archiveRef : Option String
  header : Option String
  grep : Option String
  offset : Option ℕ
  limit : Option ℕ
  informedBy : Option String
  deriving DecidableEq

inductive NodeBody where
  | message (props : MessageProps)
  | toolCall (props : ToolCallProps)
  | sessionStep (props : SessionStepProps)
  | other
  deriving DecidableEq

/-- A node of the graph with the contexts it is scoped to and the tasks it is linked from. -/
structure NodeRow where
  nodeId : String
  eventOrder : Option ℕ
  activityAnchor : Option String
  contexts : List String
  tasks : List String
  body : NodeBody

namespace NodeRow

def storedEventOrder (row : NodeRow) : ℕ := row.eventOrder.getD 0

def item (row : NodeRow) (anchor role : String) (content : ConversationItemContent) : ConversationContextItem :=
  ⟨row.storedEventOrder, anchor, role, content, some row.nodeId⟩

end NodeRow

def nonEmpty (value : Option String) : Option String := value.filter (· ≠ "")

def propStr (value : Option String) : Option String := nonEmpty (value.map trim)

def formatSourcePollSummary (sourceKind sourceKey schemaVersion sourceCursor : String) (recordCount : ℕ) :
    String :=
  "Host event (" ++ schemaVersion ++ ") from " ++ sourceKind ++ ":" ++ sourceKey ++ " — " ++
    toString recordCount ++ " record(s), cursor " ++ sourceCursor

def formatDispatchAcceptedSummary
    (routingKey targetPackage targetInstance schemaVersion sourceKind sourceKey : String) : String :=
  "Host dispatch accepted: " ++ routingKey ++ " → " ++ targetPackage ++ "/" ++ targetInstance ++ " (" ++
    schemaVersion ++ ", " ++ sourceKind ++ " " ++ sourceKey ++ ")"

def formatDispatchRejectedSummary (routingKey targetPackage targetInstance detail : String)
    (transport : Bool) : String :=
  "Host dispatch " ++ (if transport then "transport failed" else "rejected") ++ ": " ++ routingKey ++
    " → " ++ targetPackage ++ "/" ++ targetInstance ++ " — " ++ detail

def hostIngressSummaryFromProps (props : HostIngressProps) : Option String :=
  let routing := (propStr props.routingKey).getD "dispatch"
  let package := (propStr props.targetPackage).getD "unknown"
  let agentInstance := (propStr props.targetInstance).getD "default"
  let schema := (propStr props.schemaVersion).getD "unknown"
  let sourceKey := (propStr props.sourceKey).getD "unknown"
  match propStr props.kind with
  | some "source_poll_recorded" =>
      -- the key of the source stands in for the cursor, which the row does not keep
      some (formatSourcePollSummary ((propStr props.sourceKind).getD "source") sourceKey schema sourceKey
        (props.recordCount.getD 0))
  | some "dispatch_accepted" =>
      some (formatDispatchAcceptedSummary routing package agentInstance schema
        ((propStr props.sourceKind).getD "unknown") sourceKey)
  | some "dispatch_rejected" =>
      some (formatDispatchRejectedSummary routing package agentInstance
        ((propStr props.reason).getD "rejected") false)
  | some "dispatch_transport_error" =>
      some (formatDispatchRejectedSummary routing package agentInstance
        ((propStr props.reason).getD "rejected") true)
  | _ => none

def operationalFromHostMessage (text : String) (props : HostIngressProps) : Option OperationalEventContent := do
  let (kind, severity) ← match ← propStr props.kind with
    | "source_poll_recorded" => some (.sourcePollRecorded, .info)
    | "dispatch_accepted" => some (.dispatchAccepted, .info)
    | "dispatch_rejected" => some (.dispatchRejected, .error)
    | "dispatch_transport_error" => some (.dispatchTransportError, .error)
    | _ => none
  let summary ← if trim text = "" then hostIngressSummaryFromProps props else some text
  return {
    kind := kind
    severity := severity
    summary := summary
    detail := (propStr props.reason).filter fun reason => !contains summary reason
    agentPackage := propStr props.targetPackage
    agentInstanceId := propStr props.targetInstance }

def conversationHistoryRoleForMessage (role : String) : String :=
  let r := trim role
  if r = "" then ""
  else if eqIgnoreAsciiCase r "ROLE_USER" || eqIgnoreAsciiCase r "user" then "user"
  else if eqIgnoreAsciiCase r "ROLE_AGENT" || eqIgnoreAsciiCase r "assistant" ||
      eqIgnoreAsciiCase r "agent" then "assistant"
  else if eqIgnoreAsciiCase r "ROLE_HOST" || eqIgnoreAsciiCase r "host" then "host"
  else role

def MessageProps.isHostIngress (m : MessageProps) : Bool :=
  eqIgnoreAsciiCase m.role "host" || m.ingress.kind.isSome

/-- The event a host row reports: read from its text, else from its properties, else a poll record
with the bare text. A dispatch target in the graph overrides the stored one. -/
def MessageProps.operational (m : MessageProps) : OperationalEventContent :=
  let event := ((operationalFromHostMessage m.text m.ingress).or
    (operationalFromHostMessage "" m.ingress)).getD ⟨.sourcePollRecorded, .info, m.text, none, none, none⟩
  match m.dispatchTarget with
  | some (package, agentInstance) =>
      { event with agentPackage := some package, agentInstanceId := some agentInstance }
  | none => event

def renderMessage (row : NodeRow) (anchor : String) (m : MessageProps) : List ConversationContextItem :=
  if m.isHostIngress then
    if trim m.text = "" ∧ operationalFromHostMessage "" m.ingress = none then []
    else [row.item anchor "host" (.operational m.operational)]
  else if trim m.text = "" then []
  else [row.item anchor (conversationHistoryRoleForMessage m.role) (.message m.text m.citations)]

def isEmptyObject : Value → Bool
  | .object members => members.isEmpty
  | _ => false

def hasMeaningfulResult : Value → Bool
  | .null => false
  | .object members => !members.isEmpty
  | .array items => !items.isEmpty
  | .string value => trim value ≠ ""
  | _ => true

def isSessionBookkeepingResult (phase : ToolSessionPhase) (value : Value) : Bool :=
  phase.isSessionPhase && match value with
    | .object [member] =>
        ((Value.object [member]).get "status").bind Value.asStr ∈
          [some "sent", some "finished", some "aborted", some "opened"]
    | _ => false

namespace ToolCallProps

def argsEdgeOk (c : ToolCallProps) : Bool :=
  match c.argsEdge with
  | some (provRole, provType) =>
      (provRole = "" || provRole = "a2a:args") && (provType = "" || provType = "a2a:ToolArgs")
  | none => true

/-- The arguments and the phase, from the archived call when there is one. -/
def argsAndPhase (c : ToolCallProps) : Value × ToolSessionPhase :=
  let metadataArgs := (c.metadata.get "args").getD (.object [])
  match c.callPayload with
  | some payload =>
      ((payload.get "args").getD metadataArgs,
        .fromMetadata (.object [("phase", .string (((payload.get "phase").bind Value.asStr).getD ""))]))
  | none => (metadataArgs, .fromMetadata c.metadata)

def resultAndError (c : ToolCallProps) : Value × Option Value :=
  match c.resultPayload with
  | some payload => ((payload.get "result").getD payload, payload.get "error")
  | none => ((c.metadata.get "result").getD (.object []), (c.metadata.get "error").filter hasMeaningfulResult)

def outcome (c : ToolCallProps) : ToolOutcome :=
  match c.resultAndError with
  | (_, some error) => .error error
  | (result, none) =>
      if hasMeaningfulResult result && !isSessionBookkeepingResult c.argsAndPhase.2 result then .result result
      else .statusOnly

/-- Session steps tell of their own invocations: of these only a send with arguments is shown. -/
def includeCall (c : ToolCallProps) : Bool :=
  let (args, phase) := c.argsAndPhase
  if phase.isSessionPhase then phase = .send && !isEmptyObject args else true

end ToolCallProps

def renderToolCall (row : NodeRow) (anchor : String) (c : ToolCallProps) : List ConversationContextItem :=
  match nonEmpty c.toolName with
  | none => []
  | some toolName =>
      if c.argsEdgeOk && c.includeCall then
        let (args, phase) := c.argsAndPhase
        [row.item anchor "tool" (.toolCall toolName args phase),
          row.item anchor "tool" (.toolResult toolName phase c.outcome)]
      else []

def defaultSessionReadLineLimit : ℕ := 200

/-- The step a row stands for; none when its kind is unknown or a part of it is missing. -/
def SessionStepProps.op (s : SessionStepProps) : Option SessionStepOp :=
  let offset := s.offset.getD 0
  let limit := s.limit.getD defaultSessionReadLineLimit
  match s.opKind.getD "" with
  | "open" => some .open
  | "send_done" => do
      return .sendDone (← nonEmpty s.archiveRef) (← nonEmpty s.header) (s.informedBy.getD "")
  | "search_read" => do return .searchRead (← nonEmpty s.archiveRef) (← nonEmpty s.grep) offset limit
  | "page_read" => do return .pageRead (← nonEmpty s.archiveRef) offset limit
  | "read" => do
      -- rows from before reads were split; their stored window is not used
      let archiveRef ← nonEmpty s.archiveRef
      match nonEmpty s.grep with
      | some grep => return .searchRead archiveRef grep 0 defaultSessionReadLineLimit
      | none => return .pageRead archiveRef 0 defaultSessionReadLineLimit
  | _ => none

def renderSessionStep (row : NodeRow) (anchor : String) (s : SessionStepProps) : List ConversationContextItem :=
  (s.op.map fun op => row.item anchor "tool" (.sessionStep (s.toolName.getD "") op)).toList

def renderRow (row : NodeRow) : List ConversationContextItem :=
  match nonEmpty row.activityAnchor with
  | none => []
  | some anchor =>
      match row.body with
      | .message props => renderMessage row anchor props
      | .toolCall props => renderToolCall row anchor props
      | .sessionStep props => renderSessionStep row anchor props
      | .other => []

/-- What every rendered line takes from its row, and which kinds of content rows never give. -/
structure RenderedFrom (row : NodeRow) (i : ConversationContextItem) : Prop where
  nodeId : i.nodeId = some row.nodeId
  timestampMs : i.timestampMs = row.storedEventOrder
  not_planning : ∀ event, i.content ≠ .planning event

theorem renderRow_cases (row : NodeRow) : renderRow row = [] ∨ (∃ an r c, (∀ e, c ≠ .planning e) ∧
      renderRow row = [row.item an r c]) ∨
    ∃ an t args ph outcome, renderRow row = [row.item an "tool" (.toolCall t args ph),
        row.item an "tool" (.toolResult t ph outcome)] := by
  unfold renderRow
  cases nonEmpty row.activityAnchor with
  | none => exact .inl rfl
  | some an =>
    cases row.body with
    | message p =>
      dsimp only [renderMessage]
      split_ifs
      · exact .inl rfl
      · exact .inr (.inl ⟨_, _, _, by simp, rfl⟩)
      · exact .inl rfl
      · exact .inr (.inl ⟨_, _, _, by simp, rfl⟩)
    | toolCall p =>
      dsimp only [renderToolCall]
      cases nonEmpty p.toolName with
      | none => exact .inl rfl
      | some t =>
        split_ifs
        · exact .inr (.inr ⟨_, _, _, _, _, rfl⟩)
        · exact .inl rfl
    | sessionStep p =>
      dsimp only [renderSessionStep]
      cases p.op with
      | none => exact .inl rfl
      | some op => exact .inr (.inl ⟨_, _, _, by simp, rfl⟩)
    | other => exact .inl rfl

theorem renderedFrom_item (row : NodeRow) (an r : String) (h : ∀ e, c ≠ .planning e) :
    RenderedFrom row (row.item an r c) :=
  ⟨rfl, rfl, h⟩

theorem renderRow_renderedFrom (h : i ∈ renderRow row) : RenderedFrom row i := by
  rcases renderRow_cases row with hr | ⟨an, r, c, hc, hr⟩ |
    ⟨an, toolName, args, phase, outcome, hr⟩
  · rw [hr] at h
    cases h
  · rw [hr, List.mem_singleton] at h
    rw [h]
    exact renderedFrom_item row an r hc
  · rw [hr, List.mem_pair] at h
    rcases h with h | h
    all_goals
      rw [h]
      exact renderedFrom_item row an "tool" (by simp)

theorem renderRow_nodup (row : NodeRow) : (renderRow row).Nodup := by
  rcases renderRow_cases row with hr | ⟨an, role, c, -, hr⟩ |
    ⟨an, toolName, args, phase, outcome, hr⟩
  · rw [hr]
    exact List.nodup_nil
  · rw [hr]
    exact List.nodup_singleton _
  · rw [hr]
    simp [NodeRow.item]

end AgentiumOs.Transcript
