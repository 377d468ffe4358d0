import WorkQueue.Json.Decode

/-!
# Agents

What is reported of the agent of a session: whether it is idle, running or ended.
-/

namespace WorkQueue

open Json

inductive AgentState where
  | idle
  | running
  | ended
  deriving DecidableEq, Repr

namespace AgentState

def name : AgentState → String
  | idle => "idle"
  | running => "running"
  | ended => "ended"

def named : List (String × AgentState) := [idle, running, ended].map fun s => (s.name, s)

end AgentState

structure AgentEvent where
  sessionId : String
  state : AgentState
  /-- the idle state that a session starts in, before any message was sent -/
  isInitial : Bool
  deriving DecidableEq, Repr

namespace AgentEvent

def toJson (e : AgentEvent) : Json :=
  object
    [("sessionId", text e.sessionId), ("state", text e.state.name), ("isInitial", bool e.isInitial)]

def read (row : Row) : Reading AgentEvent :=
  AgentEvent.mk <$> row.required "sessionId" asText
    <*> row.required "state" (asVariant AgentState.named)
    <*> row.orElse "isInitial" asBool false

def ofJson : Decoder AgentEvent := asStruct "ProcessEvent" ["sessionId", "state", "isInitial"] read

end AgentEvent

end WorkQueue
