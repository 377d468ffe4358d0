import WorkQueue.Store.Basic

/-!
# The work queue

The store of work items with its own rules: a parent must exist, an item without a priority queues
last, and finished work closes by itself. An item that is done closes when no child of it is
unclosed, and a parent that is done is looked at again when a child of it has closed.
-/

namespace WorkQueue.Work

def checkParent (existing : List Work) (w : Work) : Except StoreError Unit :=
  match w.parentId with
  | none => .ok ()
  | some p =>
    if existing.any (·.id = p) then .ok ()
    else .error (.validation (.unknownReference "parentId" "work" p))

/-- The priority after every item that exists. -/
def lastPriority (existing : List Work) : Priority :=
  (Priority.greatest (existing.map (·.priority))).succ

def create (draft : Draft) : StoreM Work Work := do
  Store.createWith (← Store.newId) draft fun existing w => do
    checkParent existing w
    return if draft.priority.isSome then w else { w with priority := lastPriority existing }

def children (s : Store Work) (id : String) : List Work :=
  s.list.filter (·.parentId = some id)

def hasUnclosedChildren (s : Store Work) (id : String) : Bool :=
  (children s id).any (·.status ≠ .closed)

def closing : Patch := { status := some .closed }

/-- The parent of an item that has closed, where it waits for that. -/
def waitingParent? (s : Store Work) (w : Work) : Option Work :=
  if w.status = .closed then
    (w.parentId.bind s.get?).filter (·.status = .done)
  else none

/-- Closes an item that is done and has no unclosed children. -/
def closeIfFinished (w : Work) : StoreM Work Work := do
  let s := (← get).store
  if w.status = .done ∧ ¬ hasUnclosedChildren s w.id then Store.update w.id closing else return w

/-- Closes what a change of status lets close, from an item upwards, and gives the item's final
value. Every step but the last closes an item that was done, so as many steps as there are items
are enough. -/
def settle : Nat → Work → StoreM Work Work
  | 0, w => return w
  | steps + 1, w => do
    let w ← closeIfFinished w
    match waitingParent? (← get).store w with
    | some parent => discard (settle steps parent)
    | none => pure ()
    return w

/-- Changes an item. A change of status is followed by what it lets close. -/
def update (id : String) (patch : Patch) : StoreM Work Work := do
  let w ← Store.updateWith id patch checkParent
  if patch.status.isSome then settle ((← get).store.records.length + 2) w else return w

def start (id session : String) : StoreM Work Work :=
  update id { status := some .inProgress, sessionId := some session }

def markDone (id : String) : StoreM Work Work := update id { status := some .done }

def close (id : String) : StoreM Work Work := update id closing

def delete (id : String) : StoreM Work Work := Store.delete id

end WorkQueue.Work
