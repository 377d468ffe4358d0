import WorkQueue.Work.Basic

/-!
# Messages to agents

The first message of a session tells the agent what the work is and how to finish it.
-/

namespace WorkQueue

open Json Text

structure MessageOptions where
  mode : Option String := none
  systemPrompt : Option String := none
  deriving DecidableEq, Repr

namespace MessageOptions

def toJson (o : MessageOptions) : Json :=
  object <| presentFields [("mode", o.mode.map text), ("systemPrompt", o.systemPrompt.map text)]

def read (row : Row) : Reading MessageOptions :=
  MessageOptions.mk <$> row.optional "mode" asText <*> row.optional "systemPrompt" asText

def ofJson : Decoder MessageOptions := asStruct "MessageOptions" ["mode", "systemPrompt"] read

/-- The options of a first message: the role's prompt, unless it is blank. -/
def kickoff (prompt : String) : MessageOptions :=
  { mode := some "agent", systemPrompt := if isBlank prompt then none else some prompt }

end MessageOptions

/-- The title and kind of the work, the title of its parent, its body, and how to finish it. -/
def kickoffMessage (w : Work) (parentTitle : Option String) : String :=
  let body := trim w.body
  "# " ++ w.title ++ " (" ++ w.kind.name ++ ")\n" ++
    ((parentTitle.map fun title => "\nPart of: " ++ title ++ "\n").getD "") ++
    (if body = "" then "" else "\n" ++ body ++ "\n") ++
    "\nWhen the work is complete, mark work item " ++ ticked w.id ++ " as done (" ++
    ticked ("workloop work done " ++ w.id) ++ ").\n"

end WorkQueue
