import WorkQueue.Disk.Basic
import WorkQueue.Time.Stamp

/-!
# The host

What a program takes from the system it runs on: the disk, new identities and the time. Identities
and clock readings are taken one after another from a supply.
-/

namespace WorkQueue

open Time

structure Host where
  disk : Disk := {}
  ids : Nat → String
  times : Nat → Instant
  /-- identities taken so far -/
  minted : Nat := 0
  /-- clock readings taken so far -/
  ticks : Nat := 0

namespace Host

def nextId (h : Host) : String := h.ids h.minted

def nextTime (h : Host) : Stamp := (h.times h.ticks).toStamp

def afterId (h : Host) : Host := { h with minted := h.minted + 1 }

def afterTime (h : Host) : Host := { h with ticks := h.ticks + 1 }

end Host

end WorkQueue
