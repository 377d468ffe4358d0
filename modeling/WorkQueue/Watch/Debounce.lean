/-!
# Debouncing

One write shows as several changes of the index file. A burst of changes is ready when the window
has passed since its last change; it is then taken as a whole, with the number of changes in it.
Times are milliseconds.
-/

namespace WorkQueue.Watch

def defaultWindow : Nat := 100

/-- A window of at least 20 and at most 2000 milliseconds. -/
def clampWindow (window : Nat) : Nat := max 20 (min window 2000)

structure Debouncer where
  window : Nat
  /-- when the burst is ready, unless another change comes first -/
  deadline? : Option Nat := none
  /-- the changes of the burst -/
  coalesced : Nat := 0
  deriving DecidableEq, Repr

namespace Debouncer

/-- Counts a change and puts the deadline off. -/
def push (d : Debouncer) (now : Nat) : Debouncer :=
  { d with deadline? := some (now + d.window), coalesced := d.coalesced + 1 }

def isPending (d : Debouncer) : Bool := d.deadline?.isSome

/-- Takes the burst if it is ready: the number of changes in it. -/
def take (d : Debouncer) (now : Nat) : Option Nat × Debouncer :=
  match d.deadline? with
  | some deadline =>
    if deadline ≤ now then (some d.coalesced, { d with deadline? := none, coalesced := 0 })
    else (none, d)
  | none => (none, d)

def cancel (d : Debouncer) : Debouncer := { d with deadline? := none, coalesced := 0 }

end Debouncer

end WorkQueue.Watch
