import WorkQueue.Keyed
import WorkQueue.Number.Binary64

/-!
# JSON values

An object is a list of fields. Read from text or built by `ofFields` it has its keys in ascending
order, each of them once.
-/

namespace WorkQueue

open Number

inductive Json where
  | null
  | bool (b : Bool)
  | int (n : Int)
  | float (x : Binary64)
  | text (s : String)
  | list (items : List Json)
  | object (fields : List (String × Json))
  deriving Repr, BEq

namespace Json

abbrev Fields := Keyed Json

def ofFields (fields : List (String × Json)) : Json := object (Keyed.ofList fields)

def get? (key : String) : Json → Option Json
  | object fields => fields.lookup key
  | _ => none

def presentFields (fields : List (String × Option Json)) : Fields :=
  fields.filterMap fun f => f.2.map (f.1, ·)

def ofOption {α : Type} (encode : α → Json) (a : Option α) : Json :=
  (a.map encode).getD null

end Json

end WorkQueue
