import WorkQueue.Store.Basic

/-!
# Following the writes of others

A store takes over what another process wrote by reading the index and absorbing it. What was read
is discarded when the store itself wrote since the read began, because the read may be older than
that write.
-/

namespace WorkQueue.Store

variable {R : Type} [Record R]

inductive Absorbed where
  /-- this many events were announced -/
  | applied (events : Nat)
  | unchanged
  /-- a write of this store overtook the read; nothing was taken over -/
  | stale
  deriving DecidableEq, Repr

/-- An index as it was read, and the write generation when the read began. -/
structure Reading (R : Type) where
  generation : Nat
  loaded : Index.Loaded R

def readIndex : StoreM R (Reading R) := do
  let s := (← get).store
  return ⟨s.generation, ← onDisk s.index.read⟩

/-- Takes over what was read unless a write of this store overtook it. -/
def absorb (reading : Reading R) : StoreM R Absorbed := do
  let s := (← get).store
  if s.generation ≠ reading.generation then return .stale
  let changes := Change.diff s.records reading.loaded.records
  let next := { s with records := reading.loaded.records, digest := reading.loaded.digest }
  if changes.isEmpty then
    modify fun desk => { desk with store := next }
    return .unchanged
  modify fun desk => { desk with store := { next with revision := s.revision + 1 } }
  announce changes
  return .applied changes.length

/-- One pass: an index whose digest is known holds nothing new. -/
def reconcile : StoreM R Absorbed := do
  let reading ← readIndex
  if reading.loaded.digest = (← get).store.digest then return .unchanged
  absorb reading

/-- Whether the known digest is that of the index on disk; a file that is missing has none. -/
def isCurrent (s : Store R) (d : Disk) : Bool :=
  match Disk.read s.index.file.path d with
  | .ok content _ => s.digest = some (Digest.ofBytes content)
  | .error fault _ => fault = .missing && s.digest.isNone

def reconcileMessage (entity : String) (e : StoreError) : String :=
  "failed to read " ++ entity ++ " index: " ++ e.message

end WorkQueue.Store
