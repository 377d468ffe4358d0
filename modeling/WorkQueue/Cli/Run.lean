import WorkQueue.Cli.Command
import WorkQueue.Cli.Show
import WorkQueue.Config.File
import WorkQueue.Store.Switches
import WorkQueue.Work.Queue

/-!
# Carrying commands out

A command opens the stores it needs straight from the data directory. A program that watches the
directory notices what it wrote.
-/

namespace WorkQueue.Cli

open Text

/-- A command in progress. What it did to the host before a failure stays done. -/
abbrev CommandM := EStateM Failure Host

variable {R : Type} [Record R] {α : Type}

def during (context : String) (a : CommandM α) : CommandM α := fun host =>
  match a host with
  | .ok x host => .ok x host
  | .error f host => .error (f.within context) host

def openStore (R : Type) [Record R] (data : Location) (context : String) : CommandM (Store R) :=
  during context fun host =>
    match (Store.open data : EStateM StoreError Host (Store R)) host with
    | .ok s host => .ok s host
    | .error e host => .error [.store e] host

def openWorks (data : Location) : CommandM (Store Work) :=
  openStore Work data "failed to open work store"

def openRoles (data : Location) : CommandM (Store Role) :=
  openStore Role data "failed to open role store"

/-- Runs a call on a store; gives the store after it too. -/
def call (s : Store R) (a : StoreM R α) : CommandM (α × Store R) := fun host =>
  match a { store := s, host } with
  | .ok x desk => .ok (x, desk.store) desk.host
  | .error e desk => .error [.store e] desk.host

def run (s : Store R) (a : StoreM R α) : CommandM α := do return (← call s a).1

def invalid (field reason : String) : Failure := [.validation (.invalid field reason)]

/-! ### Roles -/

def findRole? (roles : Store Role) (key : String) : Option Role :=
  roles.get? key <|> roles.list.find? (·.name = key)

def needRole (roles : Store Role) (key : String) : CommandM Role :=
  match findRole? roles key with
  | some role => return role
  | none => throw [.store (.notFound "role" key)]

def addRole (roles : Store Role) (draft : Role.Draft) : CommandM Role := do
  if (findRole? roles draft.name).isSome then
    throw (invalid "name" ("a role named " ++ ticked draft.name ++ " already exists"))
  let create : StoreM Role Role := do Store.create (← Store.newId) draft
  run roles create

def editRole (roles : Store Role) (key : String) (patch : Role.Patch) : CommandM Role := do
  if patch = {} then throw [.usage "nothing to change; pass --name or --prompt"]
  let role ← needRole roles key
  run roles (Store.update role.id patch)

/-- Deletes a role that no unfinished work item has. -/
def removeRole (roles : Store Role) (works : Store Work) (key : String) : CommandM Role := do
  let role ← needRole roles key
  let users := works.list.filter fun w => w.roleId = some role.id ∧ ¬ w.status.isFinished
  if ¬ users.isEmpty then
    throw (invalid "role"
      (toString users.length ++ " unfinished work item(s) still use role " ++ ticked role.name))
  run roles (Store.delete role.id)

def runRole (data : Location) (c : RoleCommand) : CommandM Answer := do
  let roles ← openRoles data
  match c with
  | .list => return roleList roles.list
  | .add draft =>
    return roleAnswer "created" (← during "failed to create role" (addRole roles draft))
  | .edit key patch =>
    return roleAnswer "updated" (← during "failed to edit role" (editRole roles key patch))
  | .remove key =>
    let works ← openWorks data
    return roleAnswer "deleted" (← during "failed to delete role" (removeRole roles works key))

/-! ### Work items -/

def selected (works : Store Work) (f : WorkFilter) : List Work :=
  works.list.filter fun w =>
    f.status.all (w.status = ·) && f.parent.all fun p => w.parentId = some p

def detail (works : Store Work) (roles : Store Role) (id : String) : CommandM WorkDetail :=
  match works.get? id with
  | none => throw [.store (.notFound "work" id)]
  | some work =>
    return { work, role := work.roleId.bind roles.get?, children := Work.children works id }

def roleId (roles : Store Role) (key : String) : CommandM String :=
  match findRole? roles key with
  | some role => return role.id
  | none => throw [.validation (.unknownReference "roleId" "role" key)]

def addWork (works : Store Work) (roles : Store Role) (draft : Work.Draft) : CommandM Work := do
  let roleId ← draft.roleId.mapM (roleId roles)
  run works (Work.create { draft with roleId })

/-- Changes an item. An empty role takes the role away. -/
def editWork (works : Store Work) (roles : Store Role) (id : String) (patch : Work.Patch) :
    CommandM Work := do
  let roleId ← patch.roleId.mapM fun key => if key = "" then pure key else roleId roles key
  let patch := { patch with roleId }
  if patch = {} then throw [.usage "nothing to change; pass at least one field flag"]
  run works (Work.update id patch)

def removeWork (works : Store Work) (id : String) : CommandM Work := do
  let children := Work.children works id
  if ¬ children.isEmpty then
    throw (invalid "id" ("work " ++ ticked id ++ " has " ++ toString children.length ++
      " child item(s); delete them first"))
  run works (Work.delete id)

def runWork (data : Location) (c : WorkCommand) : CommandM Answer := do
  let works ← openWorks data
  match c with
  | .list filter => return workList (selected works filter)
  | .show id => return (← detail works (← openRoles data) id).answer
  | .add draft =>
    let roles ← openRoles data
    return queued (← during "failed to create work item" (addWork works roles draft))
  | .edit id patch =>
    let roles ← openRoles data
    return changed (← during "failed to edit work item" (editWork works roles id patch))
  | .done id =>
    return changed (← during "failed to mark work item done" (run works (Work.markDone id)))
  | .close id => return changed (← during "failed to close work item" (run works (Work.close id)))
  | .remove id => return deleted (← during "failed to delete work item" (removeWork works id))

/-! ### Autorun -/

def autorunStatus (settings : Store Settings) (works : Store Work) : AutorunStatus where
  autorun := Settings.autorunOn settings
  openWork := (works.list.filter (·.status = .open)).length
  inProgress := (works.list.filter (·.status = .inProgress)).length

def switchAutorun (settings : Store Settings) : AutorunCommand → CommandM (Store Settings)
  | .on => during "failed to enable autorun" do
    return (← call settings (Settings.setAutorun true)).2
  | .off => during "failed to disable autorun" do
    return (← call settings (Settings.setAutorun false)).2
  | .status => return settings

def runAutorun (data : Location) (c : AutorunCommand) : CommandM Answer := do
  let settings ← openStore Settings data "failed to open settings store"
  let works ← openWorks data
  return (autorunStatus (← switchAutorun settings c) works).answer

/-! ### Command lines -/

def runCommand (data : Location) : Command → CommandM Answer
  | .work c => runWork data c
  | .role c => runRole data c
  | .autorun c => runAutorun data c

structure Surroundings where
  home : Location
  /-- the value of the variable that names the data directory -/
  dataDir : Option String := none
  /-- where a relative path starts -/
  here : Path := []

/-- The data directory: the option, or else what environment and configuration say. -/
def dataDirectory (s : Surroundings) (option : Option String) : CommandM Location := do
  let dir ← match option with
    | some dir => pure dir
    | none => do
      match Config.loadGlobal (← get).disk s.home with
      | .ok config => pure (config.resolveDataDir none s.dataDir s.home)
      | .error e => throw [.note "failed to load ~/.workloop/config.toml", .note e.message]
  return ⟨((⟨s.here, ""⟩ : Location).join dir).path, dir⟩

def runRequest (s : Surroundings) (format : Format) (r : Request) (host : Host) : Report × Host :=
  let format := if r.json then .json else format
  let answer : CommandM Answer := do runCommand (← dataDirectory s r.dataDir) r.command
  match answer host with
  | .ok a host => (a.report format, host)
  | .error f host => (f.report format, host)

end WorkQueue.Cli
