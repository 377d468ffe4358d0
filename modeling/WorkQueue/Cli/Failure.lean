import WorkQueue.Error

/-!
# Failures of commands

A failure is a chain of causes, each said to have failed because of the next. The first cause that
is an error of a store, of validation or of usage decides the exit status, the code and the advice
that goes with the message.
-/

namespace WorkQueue.Cli

inductive ExitStatus where
  | success
  | error
  | usage
  | notFound
  | invalidTransition
  deriving DecidableEq, Repr

namespace ExitStatus

def number : ExitStatus → Nat
  | success => 0
  | error => 1
  | usage => 2
  | notFound => 3
  | invalidTransition => 4

def ofCode (code : String) : ExitStatus :=
  if code = "VALIDATION_FAILED" then usage
  else if code = "NOT_FOUND" then notFound
  else if code = "INVALID_TRANSITION" then invalidTransition
  else error

end ExitStatus

inductive Cause where
  | note (text : String)
  | store (error : StoreError)
  | validation (error : ValidationError)
  | usage (text : String)
  deriving Repr

namespace Cause

def message : Cause → String
  | note s => s
  | store e => e.message
  | validation e => e.message
  | usage s => s

/-- The cause's message, followed by those of the sources that it has of its own. -/
def chain : Cause → List String
  | store e => e.chain
  | c => [c.message]

/-- The exit status of a cause that decides it. -/
def exit? : Cause → Option ExitStatus
  | note _ => none
  | store e => some (.ofCode e.code)
  | validation _ => some .usage
  | usage _ => some .usage

def code? : Cause → Option String
  | note _ => none
  | store e => some e.code
  | validation _ => some "VALIDATION_FAILED"
  | usage _ => some "USAGE"

def hint? : Cause → Option String
  | store (.notFound entity _) =>
    if entity = "work" then some "Run: workloop work ls to see work items"
    else if entity = "role" then some "Run: workloop role ls to see roles"
    else none
  | store (.invalidTransition _ _ _) =>
    some "Work moves open → in_progress → done → closed, one step at a time"
  | store (.decode _ _) =>
    some "The index file is not valid JSON; restore it or remove it to start empty"
  | _ => none

end Cause

/-- The causes of a failure, outermost first. -/
abbrev Failure := List Cause

namespace Failure

def message (f : Failure) : String := ": ".intercalate (f.flatMap Cause.chain)

/-- The status of the first cause that has one. -/
def exit (f : Failure) : ExitStatus := (f.findSome? Cause.exit?).getD .error

/-- The cause that decides what is reported. -/
def decisive? (f : Failure) : Option Cause := f.find? fun c => c.code?.isSome

def code (f : Failure) : String := (f.decisive?.bind Cause.code?).getD "ERROR"

def advice (f : Failure) : String :=
  match f.decisive?.bind Cause.hint? with
  | some hint => f.message ++ ". " ++ hint
  | none => f.message

/-- What was being done when it failed. -/
def within (context : String) (f : Failure) : Failure := .note context :: f

end Failure

end WorkQueue.Cli
