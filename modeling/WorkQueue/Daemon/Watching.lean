import WorkQueue.Daemon.Lifecycle

/-!
# Watching index files

The watchers of a daemon follow the writes of others. All of them are started together: when one
cannot start, those started with it are stopped again.
-/

namespace WorkQueue

inductive WatchError where
  | create (reason : String)
  | watch (path reason : String)
  | alreadyWatching (entity : String)
  | store (error : StoreError)
  deriving Repr

def WatchError.message : WatchError → String
  | create reason => "failed to create directory watcher: " ++ reason
  | watch path reason => "failed to watch " ++ Text.ticked path ++ ": " ++ reason
  | alreadyWatching entity => entity ++ " index is already being watched"
  | store error => error.message

/-- Why the system refuses to watch a directory, where it does. -/
def Disk.watchRefusal? (d : Disk) (dir : Location) : Option WatchError :=
  match d.refusal d.asked .makeWatch dir.path, d.refusal d.asked .watch dir.path with
  | some reason, _ => some (.create reason)
  | none, some reason => some (.watch dir.resolved.text reason)
  | none, none => none

namespace Fleet

open Watch

def setWatcher (i : Nat) (e : Entity) (w : Watcher) : FleetM Unit :=
  modifyDaemon i fun d => { d with watchers := d.watchers.set e (some w) }

def watcher (i : Nat) (e : Entity) : FleetM Watcher := do
  match (← daemon i).watchers.get e with
  | some w => return w
  | none => return .withWindow defaultWindow

def isWatching (i : Nat) (e : Entity) : FleetM Bool := do
  return (← watcher i e).isWatching

def startWatcher (i : Nat) (e : Entity) : FleetM (Except WatchError Unit) := do
  let w ← watcher i e
  if w.isWatching then return .error (.alreadyWatching e.name)
  let index := ((← daemon i).stores.get e).index
  match ← perform i e (Store.onDisk index.resolveDir) with
  | .error err => return .error (.store err)
  | .ok () =>
    match (← get).host.disk.watchRefusal? index.dir with
    | some err => return .error err
    | none =>
      setWatcher i e (w.start (← get).host.disk)
      return .ok ()

def stopWatcher (i : Nat) (e : Entity) : FleetM Unit := do
  setWatcher i e (← watcher i e).stop

/-- Starts the watchers of the entities; `started` are those of this call. -/
def startWatchers (i : Nat) (started : List Entity) : List Entity → FleetM (Except WatchError Unit)
  | [] => return .ok ()
  | e :: rest => do
    match ← startWatcher i e with
    | .ok () => startWatchers i (started ++ [e]) rest
    | .error err =>
      started.forM (stopWatcher i)
      return .error err

def startWatching (i : Nat) : FleetM (Except WatchError Unit) := startWatchers i [] Entity.all

def shutdown (i : Nat) : FleetM Unit := Entity.all.forM (stopWatcher i)

/-- One pass; when it fails the store stays as it is. -/
def reconcile (i : Nat) (e : Entity) : FleetM (Except StoreError Store.Absorbed) :=
  perform i e Store.reconcile

/-- Lets the watcher of a store make the pass that is due. -/
def follow (i : Nat) (e : Entity) : FleetM Unit := do
  let d ← daemon i
  match d.watchers.get e with
  | none => pure ()
  | some w =>
    let (due, w) := w.settle (← get).host.disk (d.stores.get e).index.file.path
    setWatcher i e w
    if due then tryCatch (discard (reconcile i e)) fun _ => pure ()

def isCurrent (i : Nat) (e : Entity) : FleetM Bool := do
  return ((← daemon i).stores.get e).isCurrent (← get).host.disk

def waitSync (i : Nat) (e : Entity) : FleetM Bool := do
  if !(← isCurrent i e) then
    for (_, j) in (← get).names do
      Entity.all.forM (follow j)
  settle
  isCurrent i e

end Fleet

end WorkQueue
