import WorkQueue.Proofs.Notify.Sinks
import WorkQueue.Proofs.Store.Turns

/-!
# From a store to its subscribers

One store of a data directory, its writers on their way through their turns, a notifier that listens
to it, the dispatcher of the notifier, and the subscribers, all taking steps in any order. Between
two steps of the dispatcher subscriptions come and go. What each subscriber was given and got since
is kept beside the state; no step looks at it.
-/

namespace WorkQueue

open Store

/-- What a subscriber was given and got since. -/
structure Watch (R : Type) where
  snapshot : Store.Snapshot R
  /-- what its sink has taken -/
  heard : List Notification := []
  /-- what the subscriber has read of that -/
  taken : List Notification := []
  /-- the queue or the sink was found full since -/
  missed : Bool := false

/-- An event on its way from the queue to the sinks. -/
structure Round (R : Type) where
  event : Event R
  /-- the subscriptions still to be served, once they have been looked up -/
  left : Option (List String) := none
  refused : List String := []

structure Feed (R : Type) where
  world : World R
  /-- the events of the store so far, in the order of their commits -/
  committed : List (Event R) := []
  turnstile : Turnstile R := {}
  notifier : Option (Notifier R) := none
  round : Option (Round R) := none
  watches : String → Option (Watch R) := fun _ => none

namespace Watch

variable {R : Type}

def miss (w : Watch R) : Watch R := { w with missed := true }

/-- A notification was offered to the sink. -/
def hear (note : Notification) (outcome : Option Mailbox.Delivery) (w : Watch R) : Watch R :=
  match outcome with
  | some .kept => { w with heard := w.heard ++ [note] }
  | some .lost => w.miss
  | _ => w

def read (notes : List Notification) (w : Watch R) : Watch R :=
  { w with taken := w.taken ++ notes }

end Watch

/-- The events that are news to a subscription. -/
def news {R : Type} (since : Nat) (events : List (Event R)) : List (Event R) :=
  events.filter fun e => since < e.revision

theorem news_append {R : Type} (since : Nat) (events events' : List (Event R)) :
    news since (events ++ events') = news since events ++ news since events' :=
  List.filter_append _ _

theorem news_eq_nil {R : Type} {since : Nat} {events : List (Event R)}
    (h : ∀ e ∈ events, e.revision ≤ since) : news since events = [] := by
  refine List.filter_eq_nil_iff.2 fun e he => ?_
  have := h e he
  simp only [decide_eq_true_eq]
  omega

theorem news_eq_self {R : Type} {since : Nat} {events : List (Event R)}
    (h : ∀ e ∈ events, since < e.revision) : news since events = events :=
  List.filter_eq_self.2 fun e he => by simpa using h e he

/-- The event, where the subscription has still to be served with it. -/
def Round.pending {R : Type} (r : Round R) (id : String) : List (Event R) :=
  match r.left with
  | none => [r.event]
  | some ids => if id ∈ ids then [r.event] else []

namespace Feed

variable {R : Type} [Record R]

/-- The feed of a store that has just been opened. -/
def start (w : World R) (own : Nat) (s : Store R) (host : Host) : Feed R :=
  { world := { w with host, processes := Function.update w.processes own (some ⟨s, []⟩) } }

/-- The watches with that of one subscription changed. -/
def watching (f : Feed R) (id : String) (g : Watch R → Watch R) : String → Option (Watch R) :=
  Function.update f.watches id ((f.watches id).map g)

/-- One step of anyone. The store is that of the process `own`. What others do to the data directory
otherwise than through a store leaves a disk that is `allowed`. -/
inductive Step (data : Location) (own : Nat) (allowed : Disk → Prop) (f : Feed R) :
    Feed R → Prop where
  /-- others open, use and drop stores -/
  | others {w : World R} (step : World.Step data f.world w)
      (same : w.processes own = f.world.processes own) :
      Step data own allowed f { f with world := w }
  | edited {disk : Disk} (edit : allowed disk) :
      Step data own allowed f { f with
        world := { f.world with host := { f.world.host with disk } } }
  | committed {p p' : Process R} {a : Option (Answer R)} {commits : List (Commit R)} {host : Host}
      (found : f.world.processes own = some p) (step : p.Step f.world.host a commits p' host) :
      Step data own allowed f { f with
        world := f.world.acted own a p' host
        committed := f.committed ++ commits.flatMap Commit.events
        turnstile := f.turnstile.join commits }
  | attached (capacity : Nat) (unattached : f.notifier = none) :
      Step data own allowed f { f with notifier := some (.withCapacity capacity) }
  | entered {t : Turnstile R} (step : f.turnstile.Step f.notifier.isSome .entered t) :
      Step data own allowed f { f with turnstile := t }
  | heard {t : Turnstile R} {e : Event R} {n : Notifier R} (listening : f.notifier = some n)
      (step : f.turnstile.Step true (.heard e) t) :
      Step data own allowed f { f with
        turnstile := t
        notifier := some (n.publish e)
        watches := if n.queue.length < n.capacity then f.watches
          else fun id => (f.watches id).map Watch.miss }
  | left {t : Turnstile R} (step : f.turnstile.Step f.notifier.isSome .left t) :
      Step data own allowed f { f with turnstile := t }
  /-- the snapshot is taken and the subscription registered under the lock of the store, with an id
  that was never given before -/
  | subscribed {p : Process R} {n : Notifier R} {id : String} {sink : Sink}
      (found : f.world.processes own = some p) (listening : f.notifier = some n)
      (new : f.watches id = none) (empty : sink.waiting = []) :
      Step data own allowed f { f with
        notifier := some (n.subscribe id p.store.snapshot.revision sink)
        watches := Function.update f.watches id (some { snapshot := p.store.snapshot }) }
  | unsubscribed {n : Notifier R} (listening : f.notifier = some n) (id : String) :
      Step data own allowed f { f with notifier := some (n.unsubscribe id).2 }
  | taken {n : Notifier R} {e : Event R} {queue : List (Event R)} (listening : f.notifier = some n)
      (first : n.queue = e :: queue) (idle : f.round = none) :
      Step data own allowed f { f with
        notifier := some { n with queue }
        round := some { event := e } }
  | looked {n : Notifier R} {r : Round R} (listening : f.notifier = some n)
      (busy : f.round = some r) (unlooked : r.left = none) :
      Step data own allowed f { f with round := some { r with left := some (n.targets r.event) } }
  | served {n n' : Notifier R} {r : Round R} {id : String} {ids : List String}
      {outcome : Option Mailbox.Delivery} (listening : f.notifier = some n)
      (busy : f.round = some r) (next : r.left = some (id :: ids))
      (serve : n.serve r.event id = (outcome, n')) :
      Step data own allowed f { f with
        notifier := some n'
        round := some { r with
          left := some ids
          refused := if outcome = some .refused then r.refused ++ [id] else r.refused }
        watches := f.watching id (.hear (.ofEvent id r.event) outcome) }
  | finished {n : Notifier R} {r : Round R} (listening : f.notifier = some n)
      (busy : f.round = some r) (done : r.left = some []) :
      Step data own allowed f { f with notifier := some (n.expel r.refused), round := none }
  | received {n n' : Notifier R} {notes : List Notification} (listening : f.notifier = some n)
      (id : String) (count : Nat) (receive : n.receive id count = (notes, n')) :
      Step data own allowed f { f with notifier := some n', watches := f.watching id (.read notes) }
  | closed {n : Notifier R} (listening : f.notifier = some n) (id : String) :
      Step data own allowed f { f with notifier := some (n.closeReceiver id) }

/-- The feeds that a store can come to have: it is opened at any time on a data directory whose disk
was `allowed` when the first store found it. -/
inductive Reachable (data : Location) (own : Nat) (allowed : Disk → Prop) : Feed R → Prop where
  | opened {host host' : Host} {w : World R} {s : Store R} (found : allowed host.disk)
      (world : World.Reachable data host w) (free : w.processes own = none)
      (run : Store.open data w.host = .ok s host') :
      Reachable data own allowed (start w own s host')
  | step {f f' : Feed R} (reached : Reachable data own allowed f)
      (step : Step data own allowed f f') : Reachable data own allowed f'

/-- Every committed event has gone all its way. -/
structure Settled (f : Feed R) : Prop where
  waiting : f.turnstile.waiting = []
  turns : f.turnstile.turns = []
  queue : ∀ n, f.notifier = some n → n.queue = []
  round : f.round = none

end Feed

end WorkQueue
