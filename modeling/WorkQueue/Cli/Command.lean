import WorkQueue.Cli.Grammar
import WorkQueue.Record.Role
import WorkQueue.Work.Basic

/-!
# The commands

Work items, roles and the autorun switch, each with its own commands, and the grammar by which a
command line names them.
-/

namespace WorkQueue.Cli

structure WorkFilter where
  status : Option Status := none
  parent : Option String := none
  deriving DecidableEq, Repr

inductive WorkCommand where
  | list (filter : WorkFilter)
  | «show» (id : String)
  /-- the role of the draft is an id or a name -/
  | add (draft : Work.Draft)
  /-- the role of the patch is an id or a name, or empty -/
  | edit (id : String) (patch : Work.Patch)
  | done (id : String)
  | close (id : String)
  | remove (id : String)
  deriving Repr

inductive RoleCommand where
  | list
  | add (draft : Role.Draft)
  /-- `key` is an id or a name -/
  | edit (key : String) (patch : Role.Patch)
  | remove (key : String)
  deriving Repr

inductive AutorunCommand where
  | on
  | off
  | status
  deriving DecidableEq, Repr

inductive Command where
  | work (command : WorkCommand)
  | role (command : RoleCommand)
  | autorun (command : AutorunCommand)
  deriving Repr

namespace Command

def textOption (name : String) : Parameter := ⟨name, some .text⟩

def globalOptions : List Parameter := [⟨"data-dir", some .path⟩, ⟨"json", none⟩]

def typeOption : Parameter := ⟨"type", some .kind⟩

def priorityOption : Parameter := ⟨"priority", some .priority⟩

def statusOption : Parameter := ⟨"status", some .status⟩

def readFilter (g : Given) : WorkFilter where
  status := g.status? "status"
  parent := g.text? "parent"

def readDraft (title : String) (g : Given) : Work.Draft where
  kind := (g.kind? "type").getD .task
  parentId := g.text? "parent"
  title := title
  body := (g.text? "body").getD ""
  roleId := g.text? "role"
  priority := g.priority? "priority"

def readPatch (g : Given) : Work.Patch where
  kind := g.kind? "type"
  parentId := g.text? "parent"
  title := g.text? "title"
  body := g.text? "body"
  status := g.status? "status"
  roleId := g.text? "role"
  priority := g.priority? "priority"

def onId (name : String) (c : String → WorkCommand) : Grammar Command :=
  .commandOn name globalOptions fun id _ => .work (c id)

def workGrammar : Grammar Command :=
  .parts "work" globalOptions
    [.command "ls" ([statusOption, textOption "parent"] ++ globalOptions) fun g =>
      .work (.list (readFilter g)),
     onId "show" .show,
     .commandOn "add"
      ([typeOption, textOption "parent", textOption "role", textOption "body", priorityOption] ++
        globalOptions)
      fun title g => .work (.add (readDraft title g)),
     .commandOn "edit"
      ([textOption "title", textOption "body", typeOption, textOption "parent", textOption "role",
        priorityOption, statusOption] ++ globalOptions)
      fun id g => .work (.edit id (readPatch g)),
     onId "done" .done,
     onId "close" .close,
     onId "rm" .remove]

def roleGrammar : Grammar Command :=
  .parts "role" globalOptions
    [.command "ls" globalOptions fun _ => .role .list,
     .commandOn "add" ([textOption "prompt"] ++ globalOptions) fun name g =>
      .role (.add ⟨name, (g.text? "prompt").getD ""⟩),
     .commandOn "edit" ([textOption "name", textOption "prompt"] ++ globalOptions) fun key g =>
      .role (.edit key ⟨g.text? "name", g.text? "prompt"⟩),
     .commandOn "rm" globalOptions fun key _ => .role (.remove key)]

def autorunGrammar : Grammar Command :=
  .parts "autorun" globalOptions
    [.command "on" globalOptions fun _ => .autorun .on,
     .command "off" globalOptions fun _ => .autorun .off,
     .command "status" globalOptions fun _ => .autorun .status]

def grammar : Grammar Command :=
  .parts "workloop" globalOptions [workGrammar, roleGrammar, autorunGrammar]

end Command

/-- A command line that makes sense: where the data is, how to answer and what to do. -/
structure Request where
  dataDir : Option String
  json : Bool
  command : Command
  deriving Repr

def readRequest (words : List String) : Except Refusal Request := do
  let (command, given) ← readWords Command.grammar words
  return { dataDir := given.text? "data-dir", json := given.has "json", command }

end WorkQueue.Cli
