import AgentiumOs.Tools.Error
import AgentiumOs.Lib.Json
import AgentiumOs.Lib.Text

/-! The registry of tools and its map of open sessions. What a tool answers when it is
asked is given with the call; the registry decides whether it is asked and keeps the map. -/

namespace AgentiumOs.Tools

open Lib
open Lib.Json (Value)

structure ToolName where
  bundle : String
  localName : String
  deriving DecidableEq

def isValidBundleIdentifierComponent (s : String) : Bool :=
  match s.toList with
  | [] => false
  | c :: cs => c.isLower && cs.all fun c => c.isLower || c.isDigit || c == '_' || c == '-'

def isValidLocalToolIdentifierComponent (s : String) : Bool :=
  match s.toList with
  | [] => false
  | c :: cs => c.isLower && cs.all fun c => c.isAlphanum || c == '_' || c == '-'

namespace ToolName

def checked (bundle localName : String) : Except BamlRtError ToolName :=
  if !isValidBundleIdentifierComponent bundle then
    .error (.invalidArgument ("Bundle name '" ++ bundle ++
      "' must match ^[a-z][a-z0-9_-]*$ (ASCII lowercase letters, digits, '_' or '-')"))
  else if !isValidLocalToolIdentifierComponent localName then
    .error (.invalidArgument ("Tool name '" ++ localName ++
      "' must match ^[a-z][A-Za-z0-9_-]*$ (ASCII letters, digits, '_' or '-', starting with lowercase)"))
  else .ok ⟨bundle, localName⟩

/-- `bundle/tool`, or `mcp/server/tool` for an imported tool. -/
def parse (name : String) : Except BamlRtError ToolName :=
  let malformed := .error (.invalidArgument ("Tool name '" ++ name ++ "' must be formatted as interface/tool"))
  match (name.toList.splitOn '/').map String.ofList with
  | [bundle, localName] => checked bundle localName
  | [first, server, localName] => if first = "mcp" then checked ("mcp_" ++ server) localName else malformed
  | _ => malformed

def display (name : ToolName) : String :=
  if Text.startsWith name.bundle "mcp_" then
    "mcp/" ++ String.ofList (name.bundle.toList.drop 4) ++ "/" ++ name.localName
  else name.bundle ++ "/" ++ name.localName

end ToolName

inductive ToolCapability where
  | oneShot
  | streaming
  deriving DecidableEq

inductive SessionPolicy where
  | strict
  | multiSend
  deriving DecidableEq

/-- Only the tools of the host are subject to the allowlist. -/
inductive ToolOrigin where
  | host
  | guest
  deriving DecidableEq

structure ToolFunctionMetadata where
  name : ToolName
  origin : ToolOrigin
  capability : ToolCapability
  sessionPolicy : SessionPolicy
  openInputSchema : Value

def ToolFunctionMetadata.OneShotStrict (m : ToolFunctionMetadata) : Prop :=
  m.capability = .oneShot ∧ m.sessionPolicy = .strict

instance (m : ToolFunctionMetadata) : Decidable m.OneShotStrict := by
  unfold ToolFunctionMetadata.OneShotStrict
  infer_instance

/-! ### Opening without an input -/

def structuralKeys : List String := ["type", "properties", "required", "anyOf", "oneOf", "allOf", "enum"]

/-- The type of a schema admits an object, or is absent beside properties. -/
def typeAllows (members : List (String × Value)) : Bool :=
  match members.lookup "type" with
  | some (.string t) => t = "object"
  | some (.array types) => (types.filterMap Value.asStr).any fun t => t = "object" || t = "null"
  | some _ => false
  | none => (members.lookup "properties").isSome || (members.lookup "required").isSome

def requiresMembers (members : List (String × Value)) : Bool :=
  match members.lookup "required" with
  | some (.array required) => !required.isEmpty
  | _ => false

def minProperties (members : List (String × Value)) : ℕ :=
  match members.lookup "minProperties" with
  | some (.number (.integer n)) => n.toNat
  | _ => 0

-- a schema is nested in lists, so its alternatives are checked together with it
mutual

/-- Whether a schema allows an empty object or a null to be given. -/
def schemaAllowsEmptyOrOptionalOpenInput : Value → Bool
  | .null => true
  | .object members =>
      members.isEmpty || !(structuralKeys.any fun key => (members.lookup key).isSome) ||
        ((allowedAlternatives "anyOf" members).getD []).any id ||
        ((allowedAlternatives "oneOf" members).getD []).any id ||
        (match allowedAlternatives "allOf" members with
          | some (allowed :: rest) => (allowed :: rest).all id
          | _ => false) ||
        members.lookup "type" = some (.string "null") ||
        typeAllows members && !requiresMembers members && minProperties members = 0
  | _ => false

def allowedAlternatives (key : String) : List (String × Value) → Option (List Bool)
  | [] => none
  | (k, .array schemas) :: members =>
      if key = k then some (allowedSchemas schemas) else allowedAlternatives key members
  | (k, _) :: members => if key = k then none else allowedAlternatives key members

def allowedSchemas : List Value → List Bool
  | [] => []
  | schema :: schemas => schemaAllowsEmptyOrOptionalOpenInput schema :: allowedSchemas schemas

end

def emptyOpenInput : Value := .object []

structure ToolSessionId where
  text : String
  deriving DecidableEq

inductive ToolStep where
  | streaming (output : Value)
  | suspended (output : Value)
  | done (output : Option Value)
  | error (failure : ToolFailure)

structure ToolRegistry where
  tools : List ToolFunctionMetadata
  allowlist : Option (List ToolName)
  sessions : Finset ToolSessionId

namespace ToolRegistry

def tool (r : ToolRegistry) (name : ToolName) : Option ToolFunctionMetadata := r.tools.find? fun m => m.name = name

def getMetadata (r : ToolRegistry) (name : String) : Option ToolFunctionMetadata :=
  (ToolName.parse name).toOption.bind r.tool

/-- Why the registry does not ask the handler of a tool. -/
def openRefusal (r : ToolRegistry) (name : ToolName) : Option BamlRtError :=
  match r.tool name with
  | none => some (.functionNotFound ("Tool '" ++ name.display ++ "' not found"))
  | some metadata =>
      match r.allowlist with
      | some allowlist =>
          if metadata.origin = .host ∧ name ∉ allowlist then
            some (.invalidArgument ("Tool '" ++ name.display ++ "' is not declared in the manifest allowlist"))
          else none
      | none => none

/-- `answer` is what the handler answers, which may depend on all it is given. -/
def openSessionScoped (r : ToolRegistry) (name : String) (sessionId : ToolSessionId)
    (answer : Except BamlRtError Unit) : Except BamlRtError ToolSessionId × ToolRegistry :=
  match ToolName.parse name with
  | .error e => (.error e, r)
  | .ok parsed =>
      match r.openRefusal parsed, answer with
      | some e, _ => (.error e, r)
      | none, .error e => (.error e, r)
      | none, .ok _ => (.ok sessionId, { r with sessions := insert sessionId r.sessions })

def sessionNotFound (sessionId : ToolSessionId) : BamlRtError :=
  .sessionLifecycle (.toolSessionNotFound sessionId.text)

def sessionSend (r : ToolRegistry) (sessionId : ToolSessionId) (answer : Except ToolSessionError Unit) :
    Except BamlRtError Unit :=
  if sessionId ∈ r.sessions then answer.mapError mapSessionError else .error (sessionNotFound sessionId)

def sessionRead (r : ToolRegistry) (sessionId : ToolSessionId) (answer : Except ToolSessionError ToolStep) :
    Except BamlRtError ToolStep :=
  if sessionId ∈ r.sessions then answer.mapError mapSessionError else .error (sessionNotFound sessionId)

/-- The session leaves the map before its tool is asked. -/
def sessionClose (r : ToolRegistry) (sessionId : ToolSessionId) (answer : Except ToolSessionError Unit) :
    Except BamlRtError Unit × ToolRegistry :=
  (if sessionId ∈ r.sessions then answer.mapError mapSessionError else .ok (),
    { r with sessions := r.sessions.erase sessionId })

def sessionFinish (r : ToolRegistry) (sessionId : ToolSessionId) (answer : Except ToolSessionError Unit) :
    Except BamlRtError Unit × ToolRegistry := r.sessionClose sessionId answer

def sessionAbort (r : ToolRegistry) (sessionId : ToolSessionId) (answer : Except ToolSessionError Unit) :
    Except BamlRtError Unit × ToolRegistry := r.sessionClose sessionId answer

end ToolRegistry

end AgentiumOs.Tools
