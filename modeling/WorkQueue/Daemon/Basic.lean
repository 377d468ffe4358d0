import WorkQueue.Autorun.AgentEvent
import WorkQueue.Autorun.Outcome
import WorkQueue.Config.Basic
import WorkQueue.Notify.Notifier
import WorkQueue.Record.Entity
import WorkQueue.Store.Reconcile
import WorkQueue.Store.Switches
import WorkQueue.Watch.Loop
import WorkQueue.Work.Queue

/-!
# Daemons

A daemon holds a store of each entity for one data directory, the listeners of these stores, its
notifiers and its watchers. A fleet is any number of daemons on one host, with the tasks that wait
to be run. Tasks run one after another in the order in which they were put in the queue.
-/

namespace WorkQueue

/-- What is called with every event of a store, in the order of registration. -/
inductive Listener where
  /-- keeps the event in the journal -/
  | journal
  /-- passes it to a notifier of the daemon -/
  | notifier (slot : Nat)
  /-- lets a controller schedule a pass -/
  | autorun (controller : Nat)
  /-- fails on its first event, which interrupts the call that made it -/
  | failOnce
  deriving DecidableEq, Repr

/-- How collaborators outside the stores answer. -/
structure Outside where
  /-- a fixed answer to whether autorun is on -/
  autorun : Option Bool := none
  /-- calls that are refused, by name -/
  refusals : Keyed Autorun.Chain := []

structure Daemon where
  name : String
  data : Location
  config : Config := {}
  stores : PerEntity fun e => Store e.Rec
  listeners : PerEntity (fun _ => List Listener) := .const fun _ => []
  notifiers : PerEntity (fun e => List (Notifier e.Rec)) := .const fun _ => []
  watchers : PerEntity (fun _ => Option Watch.Watcher) := .const fun _ => none
  outside : Outside := {}
  /-- the controller in charge, and the channel of agent events in use -/
  controller : Option Nat := none
  channel : Option Nat := none

/-- An autorun controller. Its only state is whether one of its passes is under way. -/
structure Controller where
  daemon : Nat
  /-- whether settings and sessions are asked for outside, or taken from the stores directly -/
  asksOutside : Bool
  continueMessage : String
  processing : Bool := false
  /-- whether somebody holds it, apart from tasks -/
  held : Bool := true

/-- A channel of agent events. When it is full the oldest event is lost. -/
structure Channel where
  controller : Nat
  capacity : Nat
  waiting : List AgentEvent := []
  /-- whether the loop that reads it is alive -/
  isRead : Bool := true
  /-- whether events can still be put in -/
  isFed : Bool := true
  /-- whether the loop is to end as soon as it runs -/
  cancelled : Bool := false

inductive Task where
  | dispatch (daemon : Nat) (entity : Entity) (slot : Nat)
  | pass (controller : Nat)
  | readEvents (channel : Nat)
  | handle (controller : Nat) (event : AgentEvent)
  deriving DecidableEq, Repr

structure JournalEntry where
  daemon : String
  entity : Entity
  event : Event entity.Rec

structure Fleet where
  host : Host
  daemons : List Daemon := []
  /-- the daemons that are open, by name -/
  names : Keyed Nat := []
  controllers : List Controller := []
  channels : List Channel := []
  tasks : List Task := []
  journal : List JournalEntry := []
  /-- calls on collaborators outside -/
  requests : List Autorun.Request := []

/-- A listener failed in the middle of a call. -/
structure Interrupted where

abbrev FleetM := EStateM Interrupted Fleet

namespace Fleet

def modifyDaemon (i : Nat) (f : Daemon → Daemon) : FleetM Unit :=
  modify fun fleet => { fleet with daemons := fleet.daemons.modify i f }

def modifyNotifiers (i : Nat) (e : Entity) (f : List (Notifier e.Rec) → List (Notifier e.Rec)) :
    FleetM Unit :=
  modifyDaemon i fun d => { d with notifiers := d.notifiers.set e (f (d.notifiers.get e)) }

def modifyNotifier (i : Nat) (e : Entity) (slot : Nat) (f : Notifier e.Rec → Notifier e.Rec) :
    FleetM Unit :=
  modifyNotifiers i e (·.modify slot f)

def modifyController (c : Nat) (f : Controller → Controller) : FleetM Unit :=
  modify fun fleet => { fleet with controllers := fleet.controllers.modify c f }

def modifyChannel (c : Nat) (f : Channel → Channel) : FleetM Unit :=
  modify fun fleet => { fleet with channels := fleet.channels.modify c f }

def daemon (i : Nat) : FleetM Daemon := do
  match (← get).daemons[i]? with
  | some d => pure d
  | none => throw ⟨⟩

def controller (c : Nat) : FleetM Controller := do
  match (← get).controllers[c]? with
  | some x => pure x
  | none => throw ⟨⟩

def spawn (t : Task) : FleetM Unit :=
  modify fun fleet => { fleet with tasks := fleet.tasks ++ [t] }

def wake (t : Task) : FleetM Unit :=
  modify fun fleet => if t ∈ fleet.tasks then fleet else { fleet with tasks := fleet.tasks ++ [t] }

def Task.uses (c : Nat) : Task → Bool
  | .pass c' => c' = c
  | .handle c' _ => c' = c
  | _ => false

/-- A controller lives as long as somebody holds it or a task uses it. -/
def isAlive (fleet : Fleet) (c : Nat) : Bool :=
  (fleet.controllers[c]?.any (·.held)) || fleet.tasks.any (Task.uses c)

/-! ### Announcing commits -/

/-- Whether an event of a store sets autorun going: finished work, or autorun switched on. -/
def triggers : (e : Entity) → Event e.Rec → Bool
  | .work, event => Event.finishesWork event
  | .settings, event => Event.enablesAutorun event
  | _, _ => false

def callListener (i : Nat) (e : Entity) (event : Event e.Rec) : Listener → FleetM Unit
  | .journal => do
    let d ← daemon i
    modify fun fleet => { fleet with journal := fleet.journal ++ [⟨d.name, e, event⟩] }
  | .notifier slot => do
    modifyNotifier i e slot (·.publish event)
    wake (.dispatch i e slot)
  | .autorun c => do
    if triggers e event && isAlive (← get) c then spawn (.pass c)
  | .failOnce => do
    modifyDaemon i fun d =>
      { d with listeners := d.listeners.set e ((d.listeners.get e).erase .failOnce) }
    throw ⟨⟩

/-- Takes a commit over and calls every listener with every event of it. -/
def announce (i : Nat) (e : Entity) (c : Store.Commit e.Rec) : FleetM Unit := do
  modifyDaemon i fun d => { d with stores := d.stores.set e c.store }
  modify fun fleet => { fleet with host := c.host }
  let d ← daemon i
  c.events.forM fun event => (d.listeners.get e).forM (callListener i e event)

/-- Runs a call on a store of a daemon. Each commit is announced before the call goes on; a
listener that fails ends the call there. -/
def perform {α : Type} (i : Nat) (e : Entity) (call : StoreM e.Rec α) :
    FleetM (Except StoreError α) := do
  let d ← daemon i
  let (result, desk) := match call { store := d.stores.get e, host := (← get).host } with
    | .ok a desk => (Except.ok a, desk)
    | .error err desk => (.error err, desk)
  desk.commits.forM (announce i e)
  modifyDaemon i fun d => { d with stores := d.stores.set e desk.store }
  modify fun fleet => { fleet with host := desk.host }
  return result

end Fleet

end WorkQueue
