import WorkQueue.Error
import WorkQueue.Time.Reader

/-!
# Records

What a store needs to know about the records it keeps: how one is made from a draft, changed by a
patch, checked, put in order and written as JSON. Identity and times are the store's business.
-/

namespace WorkQueue

open Json Time

class Record (R : Type) where
  /-- what the caller supplies for a new record -/
  Draft : Type
  /-- a partial update: what is unset stays as it is -/
  Patch : Type
  /-- the directory that holds the index -/
  entity : String
  /-- the key of the records in the index -/
  collection : String
  id : R → String
  createdAt : R → Stamp
  updatedAt : R → Stamp
  ofDraft : String → Stamp → Draft → R
  /-- may refuse the patch outright; the result is checked separately -/
  patch : Patch → R → Except StoreError R
  touch : Stamp → R → R
  validate : R → Except ValidationError Unit
  /-- the order in which records are listed -/
  order : List R → List R
  /-- the fields in the order of declaration -/
  fields : R → Fields
  /-- the form in which a record is kept, its fields in ascending order; may be refused -/
  encode : R → Except DecodeError Json := fun r => .ok (ofFields (fields r))
  decode : Decoder R
  decEq : DecidableEq R

namespace Record

instance (R : Type) [Record R] : DecidableEq R := Record.decEq

variable {R : Type} [Record R]

/-- A record as it is shown: its fields in the order of declaration. -/
def shown (r : R) : Json := object (fields r)

/-- A record as it is kept: its fields in ascending order. -/
def toJson (r : R) : Json := ofFields (fields r)

def find? (records : List R) (key : String) : Option R :=
  records.find? fun r => id r = key

end Record

namespace Json

def stamp (t : Stamp) : Json := text t.text

def asStamp : Decoder Stamp
  | text s =>
    match Stamp.ofText s with
    | .ok t => .ok t.toStamp
    | .error e => .error (.refused e.message)
  | j => .error (.invalidType j "an RFC 3339 formatted date and time string")

/-- The two times that end every record. -/
def timeFields (createdAt updatedAt : Stamp) : List (String × Option Json) :=
  [("createdAt", some (stamp createdAt)), ("updatedAt", some (stamp updatedAt))]

end Json

end WorkQueue
