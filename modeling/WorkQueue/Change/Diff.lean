import WorkQueue.Change.Basic

/-!
# Differences of two record lists

The changes that lead from one list to another: first the deletions, then the creations, then the
updates, each group in ascending order of the ids. A record that is equal in every field is no
change.
-/

namespace WorkQueue.Change

variable {R : Type} [Record R]

/-- The records under their ids, in ascending order. -/
def byId (records : List R) : Keyed R :=
  Keyed.ofList (records.map fun r => (Record.id r, r))

def deletions (old new : Keyed R) : List (Change R) :=
  (old.filter fun e => !new.contains e.1).map fun e => .deleted e.2

def creations (old new : Keyed R) : List (Change R) :=
  (new.filter fun e => !old.contains e.1).map fun e => .created e.2

def updates (old new : Keyed R) : List (Change R) :=
  new.filterMap fun e =>
    match old.lookup e.1 with
    | some previous => if previous = e.2 then none else some (.updated (some previous) e.2)
    | none => none

def diff (old new : List R) : List (Change R) :=
  let old := byId old
  let new := byId new
  deletions old new ++ creations old new ++ updates old new

def events (old new : List R) (revision : Nat) : List (Event R) :=
  (diff old new).map fun c => ⟨c, revision⟩

end WorkQueue.Change
