import WorkQueue.Cli.Output
import WorkQueue.Record.Role
import WorkQueue.Text.Layout
import WorkQueue.Work.Basic

/-!
# What commands show

Each answer as lines of text and as JSON. Lists begin with their length; an empty one is a sentence
of its own.
-/

namespace WorkQueue.Cli

open Json Text

def lines (ls : List String) : String := "\n".intercalate ls

/-! ### Work items -/

def workRow (w : Work) : String :=
  w.id ++ "  " ++ padRight 11 w.status.name ++ " " ++ padLeft 4 (toString w.priority.value) ++
    "  " ++ padRight 5 w.kind.name ++ "  " ++ w.title

def indented (s : String) : String := "  " ++ s

def workList (works : List Work) : Answer where
  human :=
    if works.isEmpty then "No work items."
    else lines ((toString works.length ++ " work item(s)") :: works.map (indented ∘ workRow))
  json := object [("works", list (works.map Record.shown))]

/-- An item with its role, where that exists, and the items below it. -/
structure WorkDetail where
  work : Work
  role : Option Role
  children : List Work

namespace WorkDetail

/-- The role of an item; one that does not exist is named by its id. -/
def roleLine (d : WorkDetail) : Option String :=
  match d.role, d.work.roleId with
  | some role, _ => some ("  role:     " ++ role.name ++ " (" ++ role.id ++ ")")
  | none, some missing => some ("  role:     " ++ missing ++ " (missing)")
  | none, none => none

def humanLines (d : WorkDetail) : List String :=
  let w := d.work
  [w.title ++ " (" ++ w.kind.name ++ ")",
   "  id:       " ++ w.id,
   "  status:   " ++ w.status.name,
   "  priority: " ++ toString w.priority.value] ++
  (w.parentId.map ("  parent:   " ++ ·)).toList ++
  d.roleLine.toList ++
  (w.sessionId.map ("  session:  " ++ ·)).toList ++
  ["  updated:  " ++ w.updatedAt.shortText] ++
  (if w.body = "" then [] else ["", w.body]) ++
  (if d.children.isEmpty then []
    else
      ["", toString d.children.length ++ " child item(s)"] ++
        d.children.map (indented ∘ workRow))

def answer (d : WorkDetail) : Answer where
  human := lines d.humanLines
  json := object (presentFields
    [("work", some (Record.shown d.work)), ("role", d.role.map Record.shown),
     ("children", some (list (d.children.map Record.shown)))])

end WorkDetail

def workAnswer (w : Work) (human : String) : Answer := ⟨human, Record.shown w, none⟩

def queued (w : Work) : Answer := workAnswer w ("queued " ++ w.id ++ " " ++ w.title)

def changed (w : Work) : Answer :=
  workAnswer w (w.id ++ " " ++ w.title ++ " is now " ++ w.status.name)

def deleted (w : Work) : Answer := workAnswer w ("deleted " ++ w.id ++ " " ++ w.title)

/-! ### Roles -/

def roleRow (r : Role) : String :=
  r.id ++ "  " ++ padRight 16 r.name ++ " " ++ r.updatedAt.shortText ++ "  " ++ firstLine r.prompt

def roleList (roles : List Role) : Answer where
  human :=
    if roles.isEmpty then "No roles. Create one with: workloop role add <name> --prompt <text>"
    else lines ((toString roles.length ++ " role(s)") :: roles.map (indented ∘ roleRow))
  json := object [("roles", list (roles.map Record.shown))]

def roleAnswer (done : String) (r : Role) : Answer :=
  ⟨done ++ " role " ++ r.name ++ " (" ++ r.id ++ ")", Record.shown r, none⟩

/-! ### Autorun -/

structure AutorunStatus where
  autorun : Bool
  openWork : Nat
  inProgress : Nat
  deriving DecidableEq, Repr

namespace AutorunStatus

def warning? (s : AutorunStatus) : Option (String × String) :=
  if s.autorun ∧ s.openWork = 0 ∧ s.inProgress = 0 then
    some ("NO_OPEN_WORK", "autorun is on but no work is queued")
  else none

def answer (s : AutorunStatus) : Answer where
  human := "autorun: " ++ (if s.autorun then "on" else "off") ++ " (" ++ toString s.openWork ++
    " open, " ++ toString s.inProgress ++ " in progress)"
  json := object
    [("autorun", bool s.autorun), ("openWork", int s.openWork), ("inProgress", int s.inProgress)]
  warning := s.warning?

end AutorunStatus

end WorkQueue.Cli
