import Mathlib

/-! The scope an invocation runs under. Identifiers are their wire texts. -/

namespace AgentiumOs.Core

/-- Message-level or task-level invocation; only the latter carries a task. -/
inductive RuntimeScope where
  | messageScope (contextId agentId messageId : String)
  | taskScope (contextId agentId messageId taskId : String)
  deriving DecidableEq

namespace RuntimeScope

def contextId : RuntimeScope → String
  | messageScope c _ _ => c
  | taskScope c _ _ _ => c

def agentId : RuntimeScope → String
  | messageScope _ a _ => a
  | taskScope _ a _ _ => a

def messageId : RuntimeScope → String
  | messageScope _ _ m => m
  | taskScope _ _ m _ => m

def taskIdOpt : RuntimeScope → Option String
  | messageScope _ _ _ => none
  | taskScope _ _ _ t => some t

end RuntimeScope

end AgentiumOs.Core
