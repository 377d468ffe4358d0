import WorkQueue.Change.Basic

/-!
# Notifications

What a subscriber is told of a change: the record after a creation or an update, and only the id
of a record that was deleted.
-/

namespace WorkQueue

open Json

structure Notification where
  /-- the subscription that receives it -/
  id : String
  operation : Operation
  record : Option Json
  recordId : Option String
  deriving Repr

namespace Notification

/-- The payload of an event for one subscription. -/
def ofEvent {R : Type} [Record R] (subscription : String) (e : Event R) : Notification :=
  match e.change with
  | .created r => ⟨subscription, .create, some (Record.toJson r), none⟩
  | .updated _ r => ⟨subscription, .update, some (Record.toJson r), none⟩
  | .deleted r => ⟨subscription, .delete, none, some (Record.id r)⟩

/-- The same with the record in the form in which it is kept, which may be refused. -/
def encode {R : Type} [Record R] (subscription : String) (e : Event R) :
    Except DecodeError Notification :=
  match e.change with
  | .created r | .updated _ r => do
    return ⟨subscription, e.change.operation, some (← Record.encode r), none⟩
  | .deleted r => .ok ⟨subscription, .delete, none, some (Record.id r)⟩

def fieldNames : List String := ["id", "operation", "record", "recordId"]

def toJson (n : Notification) : Json :=
  ofFields <| presentFields
    [("id", some (text n.id)), ("operation", some n.operation.toJson), ("record", n.record),
     ("recordId", n.recordId.map text)]

def read (row : Row) : Reading Notification :=
  Notification.mk <$> row.required "id" asText
    <*> row.required "operation" Operation.ofJson
    <*> row.optional "record" asAny
    <*> row.optional "recordId" asText

def ofJson : Decoder Notification := asStruct "ChangeNotification" fieldNames read

end Notification

end WorkQueue
