import WorkQueue.Disk.Fault
import WorkQueue.Text.Blank
import WorkQueue.Work.Status

/-!
# Errors of stores

Each cause has one message and one stable code. A cause that has a source of its own is followed
by it in the chain of messages.
-/

namespace WorkQueue

open Text

inductive ValidationError where
  | empty (field : String)
  | unknownReference (field entity value : String)
  | invalid (field reason : String)
  deriving DecidableEq, Repr

namespace ValidationError

def message : ValidationError → String
  | empty field => field ++ " must not be empty"
  | unknownReference field entity value =>
    field ++ " " ++ ticked value ++ " does not reference an existing " ++ entity
  | invalid field reason => field ++ " is invalid: " ++ reason

end ValidationError

inductive StoreError where
  | validation (error : ValidationError)
  | notFound (entity id : String)
  | invalidTransition (id : String) (current next : Status)
  | io (context : String) (fault : Fault)
  | decode (path : String) (error : DecodeError)
  | encode (entity : String) (error : DecodeError)
  deriving Repr

namespace StoreError

/-- The message of the source, where the error has one. -/
def source? : StoreError → Option String
  | io _ fault => some fault.message
  | decode _ error => some error.message
  | encode _ error => some error.message
  | _ => none

def message : StoreError → String
  | validation error => error.message
  | notFound entity id => entity ++ " " ++ ticked id ++ " not found"
  | invalidTransition id current next =>
    "work " ++ ticked id ++ " cannot move from " ++ current.name ++ " to " ++ next.name
  | io context fault => context ++ ": " ++ fault.message
  | decode path error => "failed to decode index " ++ ticked path ++ ": " ++ error.message
  | encode entity error => "failed to encode " ++ entity ++ " index: " ++ error.message

def code : StoreError → String
  | validation _ => "VALIDATION_FAILED"
  | notFound _ _ => "NOT_FOUND"
  | invalidTransition _ _ _ => "INVALID_TRANSITION"
  | io _ _ => "IO_ERROR"
  | decode _ _ | encode _ _ => "INDEX_CORRUPT"

def isNotFound : StoreError → Bool
  | notFound _ _ => true
  | _ => false

def chain (e : StoreError) : List String :=
  e.message :: e.source?.toList

end StoreError

/-- Refuses a value that holds nothing but blanks. -/
def requireText (field value : String) : Except ValidationError Unit :=
  if isBlank value then .error (.empty field) else .ok ()

end WorkQueue
