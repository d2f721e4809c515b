import AgentiumOs.Tools.Registry

/-! A tool run by one call of the registry: a session is opened, the arguments are sent, one
step is read and the session is closed. A failure to send or to read returns at once, with
the session still in the map. -/

namespace AgentiumOs.Tools

open Lib.Json (Value)

/-- What a tool answers to each operation on the session of one call. -/
structure ToolSession where
  openSession : Value → Except BamlRtError Unit
  send : Value → Except ToolSessionError Unit
  read : Value → Except ToolSessionError ToolStep
  finish : Except ToolSessionError Unit
  abort : Option String → Except ToolSessionError Unit

namespace ToolRegistry

/-- The session is closed after the step that was read, and a failure to close it is answered
in place of the step. -/
def closeAfterStep (r : ToolRegistry) (sessionId : ToolSessionId) (session : ToolSession) :
    ToolStep → Except BamlRtError Value × ToolRegistry
  | .streaming output | .suspended output =>
      let (closed, r) := r.sessionFinish sessionId session.finish
      (closed.map fun _ => output, r)
  | .done output =>
      let (closed, r) := r.sessionFinish sessionId session.finish
      (closed.map fun _ => output.getD .null, r)
  | .error failure =>
      let (closed, r) := r.sessionAbort sessionId (session.abort (some failure.message))
      (closed.bind fun _ => .error (mapSessionError (.tool failure)), r)

def sendAndRead (r : ToolRegistry) (sessionId : ToolSessionId) (args : Value) (session : ToolSession) :
    Except BamlRtError Value × ToolRegistry :=
  match r.sessionSend sessionId (session.send args) with
  | .error e => (.error e, r)
  | .ok _ =>
      match r.sessionRead sessionId (session.read .null) with
      | .error e => (.error e, r)
      | .ok step => r.closeAfterStep sessionId session step

/-- `sessionId` is the random identity `open_session` draws. -/
def execute (r : ToolRegistry) (name : String) (args : Value) (sessionId : ToolSessionId)
    (session : ToolSession) : Except BamlRtError Value × ToolRegistry :=
  match ToolName.parse name with
  | .error e => (.error e, r)
  | .ok parsed =>
      match r.tool parsed with
      | none => (.error (.functionNotFound ("Tool '" ++ parsed.display ++ "' not found")), r)
      | some metadata =>
          if metadata.capability ≠ .oneShot then
            (.error (.invalidArgument ("Tool '" ++ parsed.display ++
              "' requires a streaming session; use open_session")), r)
          else
            match r.openSessionScoped parsed.display sessionId (session.openSession emptyOpenInput) with
            | (.error e, r) => (.error e, r)
            | (.ok sessionId, r) => r.sendAndRead sessionId args session

variable (r : ToolRegistry) (sessionId : ToolSessionId) (session : ToolSession)

theorem openSessionScoped_cases (n : String) (an : Except BamlRtError Unit) :
    (∃ e, r.openSessionScoped n sessionId an = (.error e, r)) ∨ r.openSessionScoped n sessionId an =
        (.ok sessionId, { r with sessions := insert sessionId r.sessions }) := by
  unfold openSessionScoped
  cases ToolName.parse n with
  | error e => exact .inl ⟨e, rfl⟩
  | ok p =>
    dsimp only
    cases r.openRefusal p with
    | some e => exact .inl ⟨e, rfl⟩
    | none =>
      cases an with
      | error e => exact .inl ⟨e, rfl⟩
      | ok _ => exact .inr rfl

/-- The tool takes the arguments and gives a step. -/
def Answers (session : ToolSession) (args : Value) : Prop :=
  (∃ u, session.send args = .ok u) ∧ ∃ step, session.read .null = .ok step

theorem sendAndRead_cases (ar : Value) (ho : sessionId ∈ r.sessions) :
    (Answers session ar ∧ (r.sendAndRead sessionId ar session).2.sessions = r.sessions.erase sessionId) ∨
      (¬ Answers session ar ∧ (r.sendAndRead sessionId ar session).2 = r) := by
  simp only [sendAndRead, sessionSend, sessionRead, if_pos ho]
  cases hs : session.send ar with
  | error e => exact .inr ⟨fun h => by simp [Answers, hs] at h, rfl⟩
  | ok u =>
    cases hr : session.read .null with
    | error e => exact .inr ⟨fun h => by simp [Answers, hr] at h, rfl⟩
    | ok step => exact .inl ⟨⟨⟨u, hs⟩, step, hr⟩, by cases step <;> rfl⟩

/-- The call gets as far as a session of the tool. -/
def Opens (r : ToolRegistry) (name : String) (sessionId : ToolSessionId) (session : ToolSession) : Prop :=
  ∃ parsed metadata, ToolName.parse name = .ok parsed ∧ r.tool parsed = some metadata ∧
    metadata.capability = .oneShot ∧
    (r.openSessionScoped parsed.display sessionId (session.openSession emptyOpenInput)).1 = .ok sessionId

theorem execute_cases (n : String) (ar : Value) :
    (¬ r.Opens n sessionId session ∧ (r.execute n ar sessionId session).2 = r) ∨
      (r.Opens n sessionId session ∧ r.execute n ar sessionId session =
        sendAndRead { r with sessions := insert sessionId r.sessions } sessionId ar session) := by
  unfold execute
  cases hp : ToolName.parse n with
  | error e => exact .inl ⟨fun h => by simp [Opens, hp] at h, rfl⟩
  | ok p =>
    dsimp only
    cases ht : r.tool p with
    | none => exact .inl ⟨fun h => by simp [Opens, hp, ht] at h, rfl⟩
    | some m =>
      dsimp only
      split_ifs with hs
      · exact .inl ⟨fun h => by simp [Opens, hp, ht, hs] at h, rfl⟩
      · rw [not_not] at hs
        obtain ⟨e, ho⟩ | ho :=
          openSessionScoped_cases r sessionId p.display (session.openSession emptyOpenInput)
        · refine .inl ⟨fun h => ?_, by rw [ho]⟩
          simp [Opens, hp, ho] at h
        · refine .inr ⟨⟨p, m, hp, ht, hs, ?_⟩, ?_⟩ <;> rw [ho]

/-- A call leaves the session map as it was, whatever it answers, exactly when it opens no
session or the tool takes the arguments and gives a step: a failure to close the session is
no obstacle, a failure to send or to read leaves it behind. -/
theorem execute_sessions_eq_iff (name : String) (args : Value) (hfresh : sessionId ∉ r.sessions) :
    (r.execute name args sessionId session).2.sessions = r.sessions ↔
      (r.Opens name sessionId session → Answers session args) := by
  obtain ⟨hc, hk⟩ | ⟨ho, hr⟩ := execute_cases r sessionId session name args
  · exact iff_of_true (congrArg sessions hk) fun h => absurd h hc
  · rw [hr]
    obtain ⟨ha, he⟩ | ⟨hf, hk⟩ :=
      sendAndRead_cases { r with sessions := insert sessionId r.sessions } sessionId session args
        (Finset.mem_insert_self sessionId r.sessions)
    · exact iff_of_true (he.trans (Finset.erase_insert hfresh)) fun _ => ha
    · refine iff_of_false (fun hs => hfresh ?_) fun h => hf (h ho)
      rw [hk] at hs
      exact hs ▸ Finset.mem_insert_self sessionId r.sessions

/-- A one-shot tool of the guest, with no session open. -/
def echoRegistry : ToolRegistry :=
  ⟨[⟨⟨"support", "echo"⟩, .guest, .oneShot, .strict, .null⟩], none, ∅⟩

/-- The tool answers `sent` to what it is sent and fails to finish. -/
def echoSession (sent : Except ToolSessionError Unit) : ToolSession where
  openSession _ := .ok ()
  send _ := sent
  read _ := .ok (.done none)
  finish := .error (.transport (.io "connection lost"))
  abort _ := .ok ()

theorem execute_sessions_eq_of_failed_finish : (⟨"s"⟩ : ToolSessionId) ∉ echoRegistry.sessions ∧
      (echoRegistry.execute "support/echo" (.object []) ⟨"s"⟩ (echoSession (.ok ()))).2.sessions =
        echoRegistry.sessions :=
  ⟨Finset.notMem_empty _,
    (execute_sessions_eq_iff echoRegistry ⟨"s"⟩ (echoSession (.ok ())) _ _ (Finset.notMem_empty _)).mpr
      fun _ => ⟨⟨(), rfl⟩, .done none, rfl⟩⟩

/-- A tool that cannot be sent its arguments leaves the session of the call in the map. -/
theorem execute_leaks_session : echoRegistry.sessions = ∅ ∧
      echoRegistry.execute "support/echo" (.object []) ⟨"s"⟩
          (echoSession (.error (.transport (.io "connection lost")))) =
        (.error (.io "connection lost"), { echoRegistry with sessions := {⟨"s"⟩} }) :=
  ⟨rfl, rfl⟩

end ToolRegistry

end AgentiumOs.Tools
