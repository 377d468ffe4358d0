import WorkQueue.Notify.Mailbox

/-!
# Notifiers

A notifier listens to a store and passes its events on to subscribers. Listening never waits: the
event joins a bounded queue, and one that finds the queue full is dropped and counted. Dispatching
takes the queue event by event and delivers each to every subscription that was taken before it. A
subscription whose sink refuses a notification is removed.
-/

namespace WorkQueue

structure Subscription where
  sink : Sink
  /-- the revision of the snapshot handed out with the subscription -/
  since : Nat

structure Notifier (R : Type) where
  capacity : Nat
  queue : List (Event R) := []
  subscriptions : Keyed Subscription := []
  /-- subscriptions that were removed; what waits in their mailboxes can still be read -/
  former : Keyed Subscription := []
  dropped : Nat := 0
  /-- whether it still listens -/
  isAttached : Bool := true

namespace Notifier

variable {R : Type} [Record R]

/-- A notifier with room for at least one event. -/
def withCapacity (capacity : Nat) : Notifier R := { capacity := max capacity 1 }

def publish (n : Notifier R) (e : Event R) : Notifier R :=
  if !n.isAttached then n
  else if n.queue.length < n.capacity then { n with queue := n.queue ++ [e] }
  else { n with dropped := n.dropped + 1 }

def subscribe (n : Notifier R) (id : String) (since : Nat) (sink : Sink) : Notifier R :=
  { n with subscriptions := Keyed.insert id ⟨sink, since⟩ n.subscriptions }

/-- Takes a subscription out; says whether there was one. -/
def unsubscribe (n : Notifier R) (id : String) : Bool × Notifier R :=
  match n.subscriptions.lookup id with
  | none => (false, n)
  | some s => (true, { n with
      subscriptions := n.subscriptions.erase id, former := Keyed.insert id s n.former })

/-- Works on the sink of a subscription, also of one that was removed; `none` when there is none. -/
def onSink {α : Type} (n : Notifier R) (id : String) (f : Sink → α × Sink) :
    Option α × Notifier R :=
  match n.subscriptions.lookup id with
  | some s =>
    let (x, sink) := f s.sink
    (some x, { n with subscriptions := Keyed.insert id { s with sink } n.subscriptions })
  | none =>
    match n.former.lookup id with
    | some s =>
      let (x, sink) := f s.sink
      (some x, { n with former := Keyed.insert id { s with sink } n.former })
    | none => (none, n)

def targets (n : Notifier R) (e : Event R) : List String :=
  (n.subscriptions.filter fun s => s.2.since < e.revision).map fun s => s.1

/-- Offers an event to one subscription; one whose record has no JSON form is passed over. -/
def serve (n : Notifier R) (e : Event R) (id : String) : Option Mailbox.Delivery × Notifier R :=
  match Notification.encode id e with
  | .ok notification => n.onSink id (Sink.deliver notification)
  | .error _ => (none, n)

/-- Offers an event to one subscription after another; gives those that refused it. -/
def serveAll (n : Notifier R) (e : Event R) : List String → List String × Notifier R
  | [] => ([], n)
  | id :: ids =>
    let (outcome, n) := n.serve e id
    let (refused, n) := n.serveAll e ids
    (if outcome = some .refused then id :: refused else refused, n)

def expel (n : Notifier R) (ids : List String) : Notifier R :=
  ids.foldl (fun n id => (n.unsubscribe id).2) n

def deliver (n : Notifier R) (e : Event R) : Notifier R :=
  let (refused, n) := n.serveAll e (n.targets e)
  n.expel refused

def dispatch (n : Notifier R) : Notifier R :=
  match n.queue with
  | [] => n
  | e :: queue => { n with queue }.deliver e

def dispatchAll (n : Notifier R) : Notifier R :=
  n.queue.foldl deliver { n with queue := [] }

/-- Stops listening; what is still in the queue is not delivered any more. -/
def detach (n : Notifier R) : Notifier R := { n with isAttached := false, queue := [] }

def waiting (n : Notifier R) (id : String) : List Notification :=
  ((n.onSink id fun s => (s.waiting, s)).1).getD []

/-- The subscriber reads the first notifications that wait for it. -/
def receive (n : Notifier R) (id : String) (count : Nat) : List Notification × Notifier R :=
  let (taken, n) := n.onSink id (Sink.take count)
  (taken.getD [], n)

/-- The subscriber goes away without a word. -/
def closeReceiver (n : Notifier R) (id : String) : Notifier R :=
  (n.onSink id fun s => ((), s.close)).2

end Notifier

end WorkQueue
