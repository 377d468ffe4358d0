import WorkQueue.Json.Decode

/-!
# Status and kind of a work item

A work item moves `open → in_progress → done → closed`, one step at a time and never back.
-/

namespace WorkQueue

open Json

inductive Status where
  | open
  | inProgress
  | done
  | closed
  deriving DecidableEq, Repr

namespace Status

instance : Inhabited Status := ⟨«open»⟩

def name : Status → String
  | «open» => "open"
  | inProgress => "in_progress"
  | done => "done"
  | closed => "closed"

def all : List Status := [«open», inProgress, done, closed]

def named : List (String × Status) := all.map fun s => (s.name, s)

def ofName? (s : String) : Option Status := named.lookup s

/-- The only status that an item may move to. -/
def next? : Status → Option Status
  | «open» => some inProgress
  | inProgress => some done
  | done => some closed
  | closed => none

def canMoveTo (s t : Status) : Bool := s.next? == some t

def isFinished : Status → Bool
  | done | closed => true
  | _ => false

def toJson (s : Status) : Json := text s.name

def ofJson : Decoder Status := asVariant named

theorem ofName?_name (s : Status) : ofName? s.name = some s := by
  cases s <;> decide

end Status

inductive Kind where
  | story
  | task
  | bug
  deriving DecidableEq, Repr

namespace Kind

instance : Inhabited Kind := ⟨task⟩

def name : Kind → String
  | story => "story"
  | task => "task"
  | bug => "bug"

def all : List Kind := [story, task, bug]

def named : List (String × Kind) := all.map fun k => (k.name, k)

def ofName? (s : String) : Option Kind := named.lookup s

def toJson (k : Kind) : Json := text k.name

def ofJson : Decoder Kind := asVariant named

theorem ofName?_name (k : Kind) : ofName? k.name = some k := by
  cases k <;> decide

end Kind

end WorkQueue
