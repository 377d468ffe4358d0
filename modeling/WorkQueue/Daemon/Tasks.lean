import WorkQueue.Daemon.Pass

/-!
# Running tasks

The task at the head of the queue is run to its end and leaves the queue only then. What it sets
going joins the end of the queue.
-/

namespace WorkQueue.Fleet

open Autorun

def endReading (c : Nat) : FleetM Unit :=
  modifyChannel c fun ch => { ch with waiting := [], isRead := false }

/-- Hands every waiting event to the controller, unless nobody needs it any more. -/
def readEvents (c : Nat) : FleetM Unit := do
  let fleet ← get
  match fleet.channels[c]? with
  | none => pure ()
  | some ch =>
    if ch.cancelled then endReading c
    else if ch.waiting.isEmpty then
      if ch.isFed then pure () else endReading c
    else if isAlive fleet ch.controller then do
      ch.waiting.forM fun event => spawn (.handle ch.controller event)
      if ch.isFed then modifyChannel c fun ch => { ch with waiting := [] } else endReading c
    else endReading c

/-- What a task does; a listener that interrupts it ends it. -/
def runTask (t : Task) : FleetM Unit :=
  match t with
  | .dispatch i e slot => modifyNotifier i e slot (·.dispatchAll)
  | .pass c => tryCatch (discard (startNext c)) fun _ => pure ()
  | .readEvents c => readEvents c
  | .handle c event => tryCatch (discard (handleAgentEvent c event)) fun _ => pure ()

/-- How many listeners a daemon has. -/
def audience (fleet : Fleet) (i : Nat) : Nat :=
  (fleet.daemons[i]?.map fun d => (Entity.all.flatMap d.listeners.get).length).getD 0

/-- How many listeners a call of a pass may reach. -/
def reach (fleet : Fleet) (c : Nat) : Nat :=
  (fleet.controllers[c]?.map fun x => fleet.audience x.daemon).getD 0

/-- How many agent events wait in a channel. -/
def waiting (fleet : Fleet) (c : Nat) : Nat := (fleet.channels[c]?.map (·.waiting.length)).getD 0

/-- How many tasks a task stands for, with those that it may set going. -/
def weight (fleet : Fleet) : Task → Nat
  | .pass c => 1 + maxSteps * fleet.reach c
  | .readEvents c => 1 + fleet.waiting c
  | _ => 1

def totalWeight (fleet : Fleet) : Nat := (fleet.tasks.map fleet.weight).foldl (· + ·) 0

def settleSteps : Nat → FleetM Unit
  | 0 => pure ()
  | n + 1 => do
    match (← get).tasks with
    | [] => pure ()
    | t :: _ =>
      runTask t
      modify fun fleet => { fleet with tasks := fleet.tasks.tail }
      settleSteps n

def settle : FleetM Unit := do
  settleSteps (← get).totalWeight

end WorkQueue.Fleet
