import WorkQueue.Cli.Failure
import WorkQueue.Json.Printer

/-!
# Output of commands

A command answers with one value, shown as text for people or as one line of JSON. Errors and
warnings are lines of their own, with a code in JSON and without one for people.
-/

namespace WorkQueue.Cli

open Json

inductive Format where
  | human
  | json
  deriving DecidableEq, Repr

/-- What a command has to say when it succeeds. -/
structure Answer where
  human : String
  json : Json
  /-- code and text -/
  warning : Option (String × String) := none

structure Report where
  exit : Nat
  out : String := ""
  err : String := ""
  deriving DecidableEq, Repr

def line (f : Format) (human : String) (value : Json) : String :=
  match f with
  | .human => human ++ "\n"
  | .json => compact value ++ "\n"

def noticeLine (f : Format) (label code message : String) : String :=
  line f (label ++ ": " ++ message)
    (object [(label, object [("code", text code), ("message", text message)])])

def Answer.report (f : Format) (a : Answer) : Report where
  exit := ExitStatus.success.number
  out := line f a.human a.json
  err := a.warning.elim "" fun w => noticeLine f "warning" w.1 w.2

def Failure.report (f : Format) (failure : Failure) : Report where
  exit := failure.exit.number
  err := noticeLine f "error" failure.code failure.advice

end WorkQueue.Cli
