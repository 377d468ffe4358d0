import WorkQueue.Record.Settings
import WorkQueue.Work.Basic

/-!
# Changes

What happened to one record of a store, and the revision that the store reached by it. The
predicates at the end are the two changes that set autorun going.
-/

namespace WorkQueue

open Json

inductive Operation where
  | create
  | update
  | delete
  deriving DecidableEq, Repr

namespace Operation

def name : Operation → String
  | create => "create"
  | update => "update"
  | delete => "delete"

def named : List (String × Operation) := [create, update, delete].map fun o => (o.name, o)

def toJson (o : Operation) : Json := text o.name

def ofJson : Decoder Operation := asVariant named

end Operation

inductive Change (R : Type) where
  | created (record : R)
  /-- the value before is unknown where the change was reported without it -/
  | updated (previous : Option R) (record : R)
  /-- with the last known value -/
  | deleted (record : R)
  deriving DecidableEq, Repr

namespace Change

variable {R : Type}

def operation : Change R → Operation
  | created _ => .create
  | updated _ _ => .update
  | deleted _ => .delete

/-- The record after the change; for a deletion, its last value. -/
def record : Change R → R
  | created r => r
  | updated _ r => r
  | deleted r => r

def previous? : Change R → Option R
  | updated p _ => p
  | _ => none

end Change

/-- A change and the revision of the store that it led to. -/
structure Event (R : Type) where
  change : Change R
  revision : Nat
  deriving DecidableEq, Repr

namespace Event

variable {R : Type} [Record R]

def recordId (e : Event R) : String := Record.id e.change.record

def toJson (e : Event R) : Json :=
  ofFields <| presentFields
    [("operation", some e.change.operation.toJson),
     ("record", some (Record.toJson e.change.record)),
     ("revision", some (int e.revision)),
     ("previous", e.change.previous?.map Record.toJson)]

/-- The change moved a work item from unfinished to done or closed. -/
def finishesWork (e : Event Work) : Bool :=
  match e.change with
  | .updated (some previous) record => record.status.isFinished && !previous.status.isFinished
  | _ => false

/-- The change turned autorun on. -/
def enablesAutorun (e : Event Settings) : Bool :=
  match e.change with
  | .created record => record.autorun
  | .updated previous record => record.autorun && !(previous.any (·.autorun))
  | .deleted _ => false

end Event

end WorkQueue
