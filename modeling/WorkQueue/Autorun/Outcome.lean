import WorkQueue.Autorun.Message
import WorkQueue.Error

/-!
# What a scheduling pass asks and how it ends
-/

namespace WorkQueue.Autorun

open Text

/-- What was attempted and why it failed, from the outermost context to the cause. -/
abbrev Chain := List String

def Chain.message (c : Chain) : String := ": ".intercalate c

inductive Request where
  | readSettings
  | createSession (id : String)
  | retitleSession (id title : String)
  | deleteSession (id : String)
  | send (session content : String)
  | kickoff (session content : String) (options : MessageOptions)
  deriving DecidableEq, Repr

namespace Request

def name : Request → String
  | readSettings => "settings.get"
  | createSession _ => "session.create"
  | retitleSession _ _ => "session.update"
  | deleteSession _ => "session.delete"
  | send _ _ => "chat.send"
  | kickoff _ _ _ => "chat.kickoff"

def isMessage : Request → Bool
  | send _ _ | kickoff _ _ _ => true
  | _ => false

end Request

inductive Outcome where
  | started (work session : String)
  /-- another pass is under way -/
  | busy
  /-- an item is in progress already -/
  | alreadyActive
  | noOpenWork
  | disabled
  deriving DecidableEq, Repr

inductive Failure where
  | missingRole (work : String)
  | unknownRole (work role : String)
  | settings (chain : Chain)
  | session (chain : Chain)
  | kickoff (chain : Chain)
  | nudge (chain : Chain)
  | store (error : StoreError)
  deriving Repr

namespace Failure

def message : Failure → String
  | missingRole work => "work " ++ ticked work ++ " has no role"
  | unknownRole work role => "work " ++ ticked work ++ " references unknown role " ++ ticked role
  | settings chain => "failed to read settings: " ++ chain.message
  | session chain => "failed to prepare session: " ++ chain.message
  | kickoff chain => "failed to send kickoff message: " ++ chain.message
  | nudge chain => "failed to send continue message: " ++ chain.message
  | store error => error.message

end Failure

end WorkQueue.Autorun
