import WorkQueue.Change.Notification

/-!
# Mailboxes

What a subscriber reads its notifications from. A mailbox that is full loses what is delivered to
it; one whose reader is gone refuses it.
-/

namespace WorkQueue

structure Mailbox where
  capacity : Nat
  waiting : List Notification := []
  isOpen : Bool := true

namespace Mailbox

inductive Delivery where
  | kept
  | lost
  | refused
  deriving DecidableEq, Repr

def deliver (n : Notification) (m : Mailbox) : Delivery × Mailbox :=
  if !m.isOpen then (.refused, m)
  else if m.waiting.length < m.capacity then (.kept, { m with waiting := m.waiting ++ [n] })
  else (.lost, m)

def take (count : Nat) (m : Mailbox) : List Notification × Mailbox :=
  (m.waiting.take count, { m with waiting := m.waiting.drop count })

/-- The reader goes away, and what was waiting with it. -/
def close (m : Mailbox) : Mailbox := { m with waiting := [], isOpen := false }

end Mailbox

/-- Where a subscription's notifications go. -/
inductive Sink where
  | mailbox (m : Mailbox)
  /-- a log, which takes everything -/
  | log

namespace Sink

def deliver (n : Notification) : Sink → Mailbox.Delivery × Sink
  | mailbox m => let (outcome, m) := m.deliver n; (outcome, mailbox m)
  | log => (.kept, log)

def waiting : Sink → List Notification
  | mailbox m => m.waiting
  | log => []

def take (count : Nat) : Sink → List Notification × Sink
  | mailbox m => let (taken, m) := m.take count; (taken, mailbox m)
  | log => ([], log)

def close : Sink → Sink
  | mailbox m => mailbox m.close
  | log => log

end Sink

end WorkQueue
