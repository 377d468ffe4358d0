import WorkQueue.Disk.Basic
import WorkQueue.Watch.Debounce

/-!
# The watch loop

Changes of an index file reach the loop through a bounded channel; one that finds it full is
dropped, since a pass is then due anyway. The loop takes the changes out, debounces them, and makes
a pass when a burst is ready.
-/

namespace WorkQueue.Watch

def channelCapacity : Nat := 64

structure Loop where
  /-- changes in the channel -/
  waiting : Nat := 0
  debouncer : Debouncer

namespace Loop

def start (window : Nat) : Loop := { debouncer := { window } }

def notice (l : Loop) : Loop :=
  if l.waiting < channelCapacity then { l with waiting := l.waiting + 1 } else l

/-- Takes a change out of the channel. -/
def receive (l : Loop) (now : Nat) : Loop :=
  if l.waiting = 0 then l
  else { waiting := l.waiting - 1, debouncer := l.debouncer.push now }

/-- The timer fires: whether a pass is to be made. -/
def fire (l : Loop) (now : Nat) : Bool × Loop :=
  let (burst, debouncer) := l.debouncer.take now
  (burst.isSome, { l with debouncer })

/-- Takes in a number of changes at once and waits until the window has passed. -/
def settle (l : Loop) (changes now : Nat) : Bool × Loop :=
  let l := (List.range changes).foldl (fun l _ => l.notice) l
  let l := (List.range l.waiting).foldl (fun l _ => l.receive now) l
  l.fire (now + l.debouncer.window)

end Loop

/-- What keeps one store in step with its index file: a window, and a loop while it is watching. -/
structure Watcher where
  window : Nat
  /-- the loop, and how many changes of files on disk it has been told of -/
  running : Option (Loop × Nat) := none

namespace Watcher

def withWindow (window : Nat) : Watcher := { window := clampWindow window }

def isWatching (w : Watcher) : Bool := w.running.isSome

def start (w : Watcher) (d : Disk) : Watcher :=
  { w with running := some (Loop.start w.window, d.touched.length) }

def stop (w : Watcher) : Watcher := { w with running := none }

/-- How often a file was changed since the loop was last told. -/
def changesSince (d : Disk) (told : Nat) (file : Path) : Nat :=
  (d.touched.take (d.touched.length - told)).count file

/-- Waits until the loop has nothing to do: whether a pass is to be made. -/
def settle (w : Watcher) (d : Disk) (file : Path) : Bool × Watcher :=
  match w.running with
  | none => (false, w)
  | some (l, told) =>
    let (due, l) := l.settle (changesSince d told file) 0
    (due, { w with running := some (l, d.touched.length) })

end Watcher

end WorkQueue.Watch
