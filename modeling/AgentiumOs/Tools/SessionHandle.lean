import AgentiumOs.Tools.Registry
import AgentiumOs.Lib.Table
import AgentiumOs.Semiotic.Interceptor

/-! Sessions of tools as the runtime holds them: the registry with its sessions, and the
scope under which each was opened. A send is answered when the tool is done or has failed;
a failure that the tool reports aborts the session, an error leaves it. -/

namespace AgentiumOs.Tools

open AgentiumOs.Core Lib
open Lib.Json (Value)
open Semiotic (InterceptorDecision)

structure ToolSessionScope where
  toolName : String
  scope : RuntimeScope
  openInput : Value

/-- The registry and the scopes of its sessions. An id is never drawn twice. -/
structure SessionHandle where
  registry : ToolRegistry
  scopes : Table (Prod.fst : ToolSessionId × ToolSessionScope → ToolSessionId)
  issued : Finset ToolSessionId
  scopes_open : ∀ id, (scopes.row id).isSome → id ∈ registry.sessions
  drawn : registry.sessions ⊆ issued

/-- `@N`, with the number of the table if it is not the first. -/
structure ShortRef where
  table : ℕ
  index : ℕ
  deriving DecidableEq

def ShortRef.display (r : ShortRef) : String :=
  if r.table = 1 then "@" ++ toString r.index else "@" ++ toString r.table ++ "/" ++ toString r.index

structure SendResult where
  archiveRef : ShortRef
  header : String
  output : Value

inductive SendOutcome where
  | completed (result : SendResult)
  | toolFailed (failure : ToolFailure)

/-- What the surroundings of an open answer: the interceptors, the handler of the tool. -/
structure OpenAnswers where
  decision : Except BamlRtError (InterceptorDecision Value)
  handler : Except BamlRtError Unit

/-- What the surroundings of a send answer: the interceptors, the session when it is given the
input and when it is polled, as far as its steps come in time, the session when it is aborted,
and the archive for the output. -/
structure SendAnswers where
  decision : Except BamlRtError (InterceptorDecision Value)
  send : Except ToolSessionError Unit
  polls : List (Except ToolSessionError ToolStep)
  abort : Except ToolSessionError Unit
  archive : Value → Except BamlRtError (ShortRef × String)

/-- Why a call does not get past the interceptors. -/
def interceptionError : Except BamlRtError (InterceptorDecision Value) → Option BamlRtError
  | .ok .allow | .ok (.substitute _) => none
  | .ok (.requireAuthorization authorization) => some (.gateAuthorizationRequired authorization)
  | .ok (.block message) => some (.toolExecution ("Tool call blocked by interceptor: " ++ message))
  | .error e => some e

namespace SessionHandle

def scope? (h : SessionHandle) (sessionId : ToolSessionId) : Option ToolSessionScope :=
  (h.scopes.row sessionId).map Prod.snd

/-- A session opened by the registry gets its scope. -/
def add (h : SessionHandle) (sessionId : ToolSessionId) (scope : ToolSessionScope) : SessionHandle where
  registry := { h.registry with sessions := insert sessionId h.registry.sessions }
  scopes := h.scopes.upsert (sessionId, scope)
  issued := insert sessionId h.issued
  scopes_open id hid := by
    rw [Table.row_upsert] at hid
    split at hid
    case isTrue heq => exact Finset.mem_insert.mpr (.inl heq)
    case isFalse => exact Finset.mem_insert_of_mem (h.scopes_open id hid)
  drawn := Finset.insert_subset_insert _ h.drawn

/-- A session that the registry has closed loses its scope. -/
def remove (h : SessionHandle) (sessionId : ToolSessionId) : SessionHandle where
  registry := { h.registry with sessions := h.registry.sessions.erase sessionId }
  scopes := h.scopes.delete fun row => row.1 = sessionId
  issued := h.issued
  scopes_open id hid := by
    rw [Table.row_delete] at hid
    obtain ⟨row, hid⟩ := Option.isSome_iff_exists.mp hid
    obtain ⟨hrow, hne⟩ := Option.filter_eq_some_iff.mp hid
    refine Finset.mem_erase.mpr ⟨?_, h.scopes_open id (by rw [hrow]; rfl)⟩
    rintro rfl
    exact absurd (Table.key_of_row hrow) (by simpa using hne)
  drawn := (Finset.erase_subset _ _).trans h.drawn

/-- The handler is asked when no interceptor stops the call and the registry knows the tool. -/
def openToolSession (h : SessionHandle) (scope : RuntimeScope) (toolName : String) (openInput : Value)
    (sessionId : ToolSessionId) (answers : OpenAnswers) : Except BamlRtError ToolSessionId × SessionHandle :=
  match interceptionError answers.decision with
  | some e => (.error e, h)
  | none =>
      match (h.registry.openSessionScoped toolName sessionId answers.handler).1 with
      | .error e => (.error e, h)
      | .ok sessionId => (.ok sessionId, h.add sessionId ⟨toolName, scope, openInput⟩)

def scopeNotFoundError (sessionId : ToolSessionId) : BamlRtError :=
  .sessionLifecycle (.toolSessionNotFound sessionId.text)

/-- The scope stays when the send fails; cleaning up is left to finish and abort. -/
def toolSessionSend (h : SessionHandle) (sessionId : ToolSessionId) (answers : SendAnswers) :
    Except BamlRtError Unit :=
  match h.scope? sessionId with
  | none => .error (scopeNotFoundError sessionId)
  | some _ =>
      match interceptionError answers.decision with
      | some e => .error e
      | none => h.registry.sessionSend sessionId answers.send

def toolSessionRead (h : SessionHandle) (sessionId : ToolSessionId) (answer : Except ToolSessionError ToolStep) :
    Except BamlRtError ToolStep :=
  match h.scope? sessionId with
  | none => .error (scopeNotFoundError sessionId)
  | some _ => h.registry.sessionRead sessionId answer

def toolSessionFinish (h : SessionHandle) (sessionId : ToolSessionId) (answer : Except ToolSessionError Unit) :
    Except BamlRtError Unit × SessionHandle :=
  match h.scope? sessionId with
  | none => (.error (scopeNotFoundError sessionId), h)
  | some _ => ((h.registry.sessionFinish sessionId answer).1, h.remove sessionId)

def toolSessionAbort (h : SessionHandle) (sessionId : ToolSessionId) (answer : Except ToolSessionError Unit) :
    Except BamlRtError Unit × SessionHandle :=
  match h.scope? sessionId with
  | none => (.error (scopeNotFoundError sessionId), h)
  | some _ => ((h.registry.sessionAbort sessionId answer).1, h.remove sessionId)

/-- The session is polled until it is done or has failed. -/
def poll (h : SessionHandle) (sessionId : ToolSessionId) (answers : SendAnswers) :
    List (Except ToolSessionError ToolStep) → Except BamlRtError SendOutcome × SessionHandle
  | [] => (.error (.invalidArgument "tool session send_blocking: no chunk received within 300s; aborting"), h)
  | answer :: polls =>
      match h.toolSessionRead sessionId answer with
      | .error e => (.error e, h)
      | .ok (.streaming _) | .ok (.suspended _) => h.poll sessionId answers polls
      | .ok (.done output) =>
          match answers.archive (output.getD .null) with
          | .error e => (.error e, h)
          | .ok (archiveRef, header) => (.ok (.completed ⟨archiveRef, header, output.getD .null⟩), h)
      | .ok (.error failure) =>
          -- what the abort answers is dropped
          (.ok (.toolFailed failure), (h.toolSessionAbort sessionId answers.abort).2)

def toolSessionSendBlocking (h : SessionHandle) (sessionId : ToolSessionId) (answers : SendAnswers) :
    Except BamlRtError SendOutcome × SessionHandle :=
  match h.toolSessionSend sessionId answers with
  | .error e => (.error e, h)
  | .ok _ => h.poll sessionId answers answers.polls

/-- A session of the tool in the context, and in the task if there is one. -/
def matchesScope (scope : RuntimeScope) (toolName : String) (session : ToolSessionScope) : Bool :=
  session.toolName = toolName && session.scope.contextId = scope.contextId && match scope.taskIdOpt with
    | some taskId => session.scope.taskIdOpt = some taskId
    | none => true

/-- The first session in the order in which the map of scopes is gone through. -/
def findExistingSessionForScopeAndTool (h : SessionHandle) (order : List ToolSessionId) (scope : RuntimeScope)
    (toolName : String) : Option ToolSessionId :=
  order.find? fun id => (h.scope? id).any (matchesScope scope toolName)

def openInputForSession (h : SessionHandle) (sessionId : ToolSessionId) : Option Value :=
  (h.scope? sessionId).map ToolSessionScope.openInput

/-! ### What the operations do to the sessions -/

variable {h : SessionHandle} {id id' : ToolSessionId}

theorem mem_sessions_of_scope (hid : (h.scope? id).isSome) : id ∈ h.registry.sessions :=
  h.scopes_open id (by simpa [scope?] using hid)

variable {scope : ToolSessionScope}

@[simp] theorem mem_sessions_add :
    id' ∈ (h.add id scope).registry.sessions ↔ id' = id ∨ id' ∈ h.registry.sessions := Finset.mem_insert

@[simp] theorem mem_sessions_remove :
    id' ∈ (h.remove id).registry.sessions ↔ id' ≠ id ∧ id' ∈ h.registry.sessions := Finset.mem_erase

@[simp] theorem scope?_add : (h.add id scope).scope? id' = if id' = id then some scope else h.scope? id' := by
  rw [scope?, add, Table.row_upsert]
  split <;> rfl

theorem scope?_remove : (h.remove id).scope? id' = if id' = id then none else h.scope? id' := by
  rw [scope?, scope?, remove, Table.row_delete]
  cases hr : h.scopes.row id' with
  | none => simp
  | some row => by_cases heq : id' = id <;> simp [Option.filter, Table.key_of_row hr, heq]

@[simp] theorem scope?_remove_self : (h.remove id).scope? id = none := by
  rw [scope?_remove, if_pos rfl]

/-- What a send does: a failure that the tool reports removes the session. -/
inductive Sends (h : SessionHandle) (id : ToolSessionId) : Except BamlRtError SendOutcome → SessionHandle → Prop
  | completed (result : SendResult) (hid : (h.scope? id).isSome) : Sends h id (.ok (.completed result)) h
  | toolFailed (failure : ToolFailure) (hid : (h.scope? id).isSome) :
      Sends h id (.ok (.toolFailed failure)) (h.remove id)
  | error (e : BamlRtError) (hid : (h.scope? id).isSome) : Sends h id (.error e) h
  | notFound (hid : h.scope? id = none) : Sends h id (.error (scopeNotFoundError id)) h

theorem poll_sends (hid : (h.scope? id).isSome) (an : SendAnswers)
    (p : List (Except ToolSessionError ToolStep)) :
    Sends h id (h.poll id an p).1 (h.poll id an p).2 := by
  induction p with
  | nil => exact .error _ hid
  | cons answer p ih =>
    rw [poll]
    split
    · exact .error _ hid
    · exact ih
    · exact ih
    · split
      · exact .error _ hid
      · exact .completed _ hid
    · obtain ⟨scope, hs⟩ := Option.isSome_iff_exists.mp hid
      rw [toolSessionAbort, hs]
      exact .toolFailed _ hid

theorem sendBlocking_sends (h : SessionHandle) (id : ToolSessionId) (an : SendAnswers) :
    Sends h id (h.toolSessionSendBlocking id an).1 (h.toolSessionSendBlocking id an).2 := by
  cases hs : h.scope? id with
  | none =>
    rw [toolSessionSendBlocking, toolSessionSend, hs]
    exact .notFound hs
  | some scope =>
    have hid : (h.scope? id).isSome := by rw [hs]; rfl
    rw [toolSessionSendBlocking]
    split
    · exact .error _ hid
    · exact poll_sends hid an _

theorem finish_of_scope (hid : (h.scope? id).isSome) (an : Except ToolSessionError Unit) :
    (h.toolSessionFinish id an).2 = h.remove id := by
  obtain ⟨scope, hs⟩ := Option.isSome_iff_exists.mp hid
  rw [toolSessionFinish, hs]

theorem finish_of_none (hid : h.scope? id = none) (an : Except ToolSessionError Unit) :
    (h.toolSessionFinish id an).2 = h := by
  rw [toolSessionFinish, hid]

theorem abort_of_scope (hid : (h.scope? id).isSome) (an : Except ToolSessionError Unit) :
    (h.toolSessionAbort id an).2 = h.remove id := by
  obtain ⟨scope, hs⟩ := Option.isSome_iff_exists.mp hid
  rw [toolSessionAbort, hs]

/-- What an open does: the session it answers is a new one. -/
inductive Opens (h : SessionHandle) (id : ToolSessionId) (scope : ToolSessionScope) :
    Except BamlRtError ToolSessionId → SessionHandle → Prop
  | opened : Opens h id scope (.ok id) (h.add id scope)
  | error (e : BamlRtError) : Opens h id scope (.error e) h

theorem openToolSession_opens (h : SessionHandle) (scope : RuntimeScope) (t : String) (i : Value)
    (id : ToolSessionId) (an : OpenAnswers) :
    Opens h id ⟨t, scope, i⟩ (h.openToolSession scope t i id an).1 (h.openToolSession scope t i id an).2 := by
  unfold openToolSession ToolRegistry.openSessionScoped
  split
  · exact .error _
  · cases ToolName.parse t with
    | error e => exact .error e
    | ok parsed =>
      dsimp only
      split
      · rename_i e heq
        split at heq
        · exact .error e
        · exact .error e
        · cases heq
      · rename_i heq
        split at heq
        · cases heq
        · cases heq
        · cases heq
          exact .opened

end SessionHandle

end AgentiumOs.Tools
