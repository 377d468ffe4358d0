/-!
# Keyed lists

A list of keys with values, kept in strictly ascending order of the keys by `insert`.
-/

namespace WorkQueue

abbrev Keyed (α : Type) := List (String × α)

namespace Keyed

variable {α β : Type}

/-- Puts a value in its place; it replaces a value under the same key. -/
def insert (key : String) (value : α) : Keyed α → Keyed α
  | [] => [(key, value)]
  | (k, v) :: rest =>
    if key < k then (key, value) :: (k, v) :: rest
    else if k = key then (key, value) :: rest
    else (k, v) :: insert key value rest

/-- Of several values under one key the last one counts. -/
def ofList (entries : List (String × α)) : Keyed α :=
  entries.foldl (fun m e => insert e.1 e.2 m) []

def contains (m : Keyed α) (key : String) : Bool := m.any fun e => e.1 == key

def erase (m : Keyed α) (key : String) : Keyed α := m.filter fun e => e.1 != key

end Keyed

end WorkQueue
