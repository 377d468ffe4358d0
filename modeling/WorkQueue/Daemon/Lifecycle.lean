import WorkQueue.Daemon.Tasks

/-!
# Opening and closing daemons

A daemon opens the stores of a data directory one after another; the first that cannot be read
keeps it closed. One that serves others has notifiers for work, roles and commands from the start,
and a watcher for every store.
-/

namespace WorkQueue.Fleet

open Autorun

def openStores (data : Location) : EStateM StoreError Host (PerEntity fun e => Store e.Rec) := do
  let work ← Store.open data
  let role ← Store.open data
  let command ← Store.open data
  let session ← Store.open data
  let settings ← Store.open data
  return { work, role, command, session, settings }

def listen (i : Nat) (e : Entity) (l : Listener) : FleetM Unit :=
  modifyDaemon i fun d => { d with listeners := d.listeners.set e (d.listeners.get e ++ [l]) }

/-- The notifier in use, by its place among those that there have been. -/
def currentNotifier? (d : Daemon) (e : Entity) : Option Nat :=
  let slots := d.notifiers.get e
  if (slots.getLast?.any (·.isAttached)) then some (slots.length - 1) else none

/-- Takes the notifier in use away: whether there was one. -/
def detach (i : Nat) (e : Entity) : FleetM Bool := do
  let was := (currentNotifier? (← daemon i) e).isSome
  modifyNotifiers i e (·.map (·.detach))
  return was

def attach (i : Nat) (e : Entity) (capacity : Nat) : FleetM Unit := do
  discard (detach i e)
  let slot := ((← daemon i).notifiers.get e).length
  modifyNotifiers i e (· ++ [.withCapacity capacity])
  listen i e (.notifier slot)
  spawn (.dispatch i e slot)

/-- Subscribes to the notifier in use: the subscription and the records that it starts from. -/
def subscribe (i : Nat) (e : Entity) (sink : Sink) :
    FleetM (Option (Nat × String × List e.Rec)) := do
  let d ← daemon i
  match currentNotifier? d e with
  | none => return none
  | some slot =>
    let id ← newSession
    let snapshot := (d.stores.get e).snapshot
    modifyNotifier i e slot (·.subscribe id snapshot.revision sink)
    return some (slot, id, snapshot.records)

def unsubscribe (i : Nat) (e : Entity) (id : String) : FleetM (Option Bool) := do
  let d ← daemon i
  match currentNotifier? d e with
  | none => return none
  | some slot =>
    modifyNotifier i e slot fun n => (n.unsubscribe id).2
    return some (((d.notifiers.get e)[slot]?).any fun n => (n.unsubscribe id).1)

def receive (i : Nat) (e : Entity) (slot : Nat) (id : String) : FleetM (List Notification) := do
  let d ← daemon i
  modifyNotifier i e slot fun n => (n.receive id (n.waiting id).length).2
  return (((d.notifiers.get e)[slot]?).map fun n => n.waiting id).getD []

def closeReceiver (i : Nat) (e : Entity) (slot : Nat) (id : String) : FleetM Unit :=
  modifyNotifier i e slot (·.closeReceiver id)

/-- Lets go of the controller in charge. The loop that a serving daemon started for it ends. -/
def dropController (i : Nat) : FleetM Unit := do
  let d ← daemon i
  match d.controller with
  | none => pure ()
  | some c =>
    let attached := ((← get).controllers[c]?).any (!·.asksOutside)
    modifyController c fun x => { x with held := false }
    modifyDaemon i fun d => { d with controller := none }
    match d.channel with
    | some ch => if attached then do
        modifyChannel ch fun ch => { ch with cancelled := true }
        wake (.readEvents ch)
    | none => pure ()

def dropChannel (i : Nat) : FleetM Unit := do
  match (← daemon i).channel with
  | none => pure ()
  | some ch =>
    modifyChannel ch fun ch => { ch with isFed := false }
    modifyDaemon i fun d => { d with channel := none }
    wake (.readEvents ch)

/-- Closes the daemon of a name: whether there was one. -/
def close (name : String) : FleetM Bool := do
  match (← get).names.lookup name with
  | none => return false
  | some i =>
    dropController i
    dropChannel i
    modifyDaemon i fun d => { d with
      notifiers := .const fun e => (d.notifiers.get e).map (·.detach)
      watchers := .const fun _ => none }
    modify fun fleet => { fleet with names := fleet.names.erase name }
    return true

/-- Opens a daemon under a name; one that has the name is closed first. With a configuration it
serves others. -/
def «open» (name : String) (data : Location) (config : Option Config) :
    FleetM (Except StoreError Unit) := do
  discard (close name)
  let fleet ← get
  match openStores data fleet.host with
  | .error e host =>
    modify fun fleet => { fleet with host }
    return .error e
  | .ok stores host =>
    let i := fleet.daemons.length
    let d : Daemon := { name, data, config := config.getD {}, stores }
    modify fun fleet => { fleet with
      host, daemons := fleet.daemons ++ [d], names := Keyed.insert name i fleet.names }
    match config with
    | none => pure ()
    | some config => do
      [Entity.work, .role, .command].forM fun e => attach i e config.queueCapacity
      modifyDaemon i fun d =>
        { d with watchers := .const fun _ => some (.withWindow config.debounceMs) }
    Entity.all.forM fun e => listen i e .journal
    return .ok ()

/-! ### Autorun -/

/-- Puts a controller in charge; it asks outside for settings and sessions. -/
def newController (i : Nat) (continueMessage : String) : FleetM Unit := do
  dropController i
  let c := (← get).controllers.length
  modify fun fleet => { fleet with
    controllers := fleet.controllers ++ [{ daemon := i, asksOutside := true, continueMessage }] }
  modifyDaemon i fun d => { d with controller := some c }

/-- Lets a controller listen to work and settings, and to agents through a new channel. -/
def watch (i c capacity : Nat) : FleetM Unit := do
  dropChannel i
  let ch := (← get).channels.length
  listen i .work (.autorun c)
  listen i .settings (.autorun c)
  modify fun fleet => { fleet with channels := fleet.channels ++ [{ controller := c, capacity }] }
  modifyDaemon i fun d => { d with channel := some ch }
  spawn (.readEvents ch)

/-- Puts a controller over the daemon's own stores in charge and runs a first pass. The channel of
agent events is the caller's, with room for as many of them as the caller has given it. -/
def attachAutorun (i : Nat) (capacity : Nat := 16) : FleetM Unit := do
  dropController i
  let d ← daemon i
  let c := (← get).controllers.length
  modify fun fleet => { fleet with controllers := fleet.controllers ++
    [{ daemon := i, asksOutside := false, continueMessage := d.config.continueMessage }] }
  modifyDaemon i fun d => { d with controller := some c }
  watch i c capacity
  spawn (.pass c)

/-- Reports an agent event: whether anyone listens. -/
def emit (i : Nat) (event : AgentEvent) : FleetM Bool := do
  match (← daemon i).channel with
  | none => return false
  | some c =>
    if ((← get).channels[c]?).any (·.isRead) then
      modifyChannel c fun ch =>
        let waiting := ch.waiting ++ [event]
        { ch with waiting := waiting.drop (waiting.length - ch.capacity) }
      wake (.readEvents c)
      return true
    else return false

end WorkQueue.Fleet
