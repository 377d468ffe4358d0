import WorkQueue.Change.Diff
import WorkQueue.Host
import WorkQueue.Store.Index

/-!
# Durable stores

A store keeps the records of one entity in memory and every change of them on disk. A change is
made in memory first and committed when the whole index has been written; where that fails it is
undone. Each commit raises the revision by one and is announced by the events of that revision. The
write generation counts the commits that this store made itself, and the digest belongs to the
content of the index that the records were last known to equal.

Calls run on a `Desk`: the store, the host, and the commits that the call has made so far.
-/

namespace WorkQueue

open Time

structure Store (R : Type) where
  index : Index
  records : List R
  revision : Nat := 0
  digest : Option Digest
  generation : Nat := 0

namespace Store

/-- A commit: the events to announce, and store and host right after it. -/
structure Commit (R : Type) where
  events : List (Event R)
  store : Store R
  host : Host

structure Desk (R : Type) where
  store : Store R
  host : Host
  commits : List (Commit R) := []

end Store

/-- A call on a store; what it committed before a failure stays. -/
abbrev StoreM (R : Type) := EStateM StoreError (Store.Desk R)

namespace Store

variable {R : Type} [Record R]

def onDisk {α : Type} (a : Index.Act α) : StoreM R α := fun desk =>
  match a desk.host.disk with
  | .ok x disk => .ok x { desk with host := { desk.host with disk } }
  | .error e disk => .error e { desk with host := { desk.host with disk } }

def newId : StoreM R String := modifyGet fun desk =>
  (desk.host.nextId, { desk with host := desk.host.afterId })

def now : StoreM R Stamp := modifyGet fun desk =>
  (desk.host.nextTime, { desk with host := desk.host.afterTime })

/-- The store on the records that are on disk. -/
def «open» (data : Location) : EStateM StoreError Host (Store R) := fun host =>
  let index := Index.ofData R data
  match index.read host.disk with
  | .ok loaded disk =>
    .ok { index, records := loaded.records, digest := loaded.digest } { host with disk }
  | .error e disk => .error e { host with disk }

/-! ### Reading -/

def list (s : Store R) : List R := Record.order s.records

def get? (s : Store R) (id : String) : Option R := Record.find? s.records id

/-- The records in order and the revision that they belong to. -/
structure Snapshot (R : Type) where
  records : List R
  revision : Nat

def snapshot (s : Store R) : Snapshot R := ⟨s.list, s.revision⟩

/-! ### Writing -/

/-- Announces what led to the store as it is now. -/
def announce (changes : List (Change R)) : StoreM R Unit := modify fun desk =>
  let events := changes.map fun c => ⟨c, desk.store.revision⟩
  { desk with commits := desk.commits ++ [⟨events, desk.store, desk.host⟩] }

def edit (f : List R → List R) : StoreM R Unit := modify fun desk =>
  { desk with store := { desk.store with records := f desk.store.records } }

def persist : StoreM R Unit := do
  let s := (← get).store
  let digest ← onDisk (s.index.write s.records)
  modify fun desk => { desk with store := { s with
    digest := some digest, revision := s.revision + 1, generation := s.generation + 1 } }

/-- Makes a change, persists it and announces it. Where it cannot be persisted it is undone. -/
def commit (redo undo : List R → List R) (change : Change R) : StoreM R Unit := do
  edit redo
  tryCatch persist fun e => do
    edit undo
    throw e
  announce [change]

def check (r : R) : StoreM R Unit :=
  match Record.validate r with
  | .ok () => pure ()
  | .error e => throw (.validation e)

/-- Adds a record. `prepare` sees the records that are there and may adjust or refuse the new one
before it is checked. -/
def createWith (id : String) (draft : Record.Draft R)
    (prepare : List R → R → Except StoreError R) : StoreM R R := do
  let s := (← get).store
  if (s.get? id).isSome then
    throw (.validation (.invalid "id" (Text.ticked id ++ " already exists")))
  let r := Record.ofDraft id (← now) draft
  let r ← MonadExcept.ofExcept (prepare s.records r)
  check r
  commit (· ++ [r]) List.dropLast (.created r)
  return r

def create (id : String) (draft : Record.Draft R) : StoreM R R :=
  createWith id draft fun _ r => .ok r

/-- Where a record stands among the records, and its value. -/
def locate (s : Store R) (id : String) : StoreM R (Nat × R) :=
  match s.records.findIdx? (fun r => Record.id r = id) with
  | none => throw (.notFound (Record.entity R) id)
  | some i =>
    match s.records[i]? with
    | none => throw (.notFound (Record.entity R) id)
    | some r => return (i, r)

/-- Changes a record. `veto` sees the records that are there and may refuse the patched one. -/
def updateWith (id : String) (patch : Record.Patch R)
    (veto : List R → R → Except StoreError Unit) : StoreM R R := do
  let s := (← get).store
  let (i, previous) ← locate s id
  let next ← MonadExcept.ofExcept (Record.patch patch previous)
  MonadExcept.ofExcept (veto s.records next)
  check next
  let next := Record.touch (← now) next
  commit (·.set i next) (·.set i previous) (.updated (some previous) next)
  return next

def update (id : String) (patch : Record.Patch R) : StoreM R R :=
  updateWith id patch fun _ _ => .ok ()

def delete (id : String) : StoreM R R := do
  let s := (← get).store
  let (i, removed) ← locate s id
  commit (·.eraseIdx i) (·.insertIdx i removed) (.deleted removed)
  return removed

end Store

end WorkQueue
