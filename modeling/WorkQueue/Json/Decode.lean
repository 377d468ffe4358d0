import WorkQueue.Json.Basic
import WorkQueue.Text.Quoted

/-!
# Decoding JSON into domain values

A structure is decoded from an object by field names or from a list by field positions. Every
present field is decoded in the order in which the value holds it and the first fault among them
wins; a required field that is absent is a fault only when no present field has one, and of several
the first in the order of declaration is named.
-/

namespace WorkQueue

open Number Text

inductive DecodeError where
  /-- The text is no JSON, or holds no object where one is needed. -/
  | malformed
  | invalidType (got : Json) (want : String)
  | invalidValue (got : Json) (want : String)
  | unknownVariant (name : String) (known : List String)
  | missingField (name : String)
  | invalidLength (length : Nat) (want : String)
  /-- A text that a reader of its own refused. -/
  | refused (reason : String)
  deriving Repr

namespace DecodeError

/-- A value as a message names it. -/
def describe : Json → String
  | .null => "null"
  | .bool b => "boolean " ++ ticked (if b then "true" else "false")
  | .int n => "integer " ++ ticked (toString n)
  | .float x => "floating point " ++ ticked x.text
  | .text s => "string " ++ quoted s
  | .list _ => "sequence"
  | .object _ => "map"

def listed (names : List String) : String :=
  match names with
  | [] => "there are no variants"
  | [a] => "expected " ++ ticked a
  | [a, b] => "expected " ++ ticked a ++ " or " ++ ticked b
  | _ => "expected one of " ++ ", ".intercalate (names.map ticked)

def message : DecodeError → String
  | malformed => "the text is not a JSON object"
  | invalidType got want => "invalid type: " ++ describe got ++ ", expected " ++ want
  | invalidValue (.object _) want => "invalid value: map, expected " ++ want
  | invalidValue got want => "invalid value: " ++ describe got ++ ", expected " ++ want
  | unknownVariant name known => "unknown variant " ++ ticked name ++ ", " ++ listed known
  | missingField name => "missing field " ++ ticked name
  | invalidLength n want => "invalid length " ++ toString n ++ ", expected " ++ want
  | refused reason => reason

end DecodeError

namespace Json

abbrev Decoder (α : Type) := Json → Except DecodeError α

def asText : Decoder String
  | text s => .ok s
  | j => .error (.invalidType j "a string")

def asBool : Decoder Bool
  | bool b => .ok b
  | j => .error (.invalidType j "a boolean")

/-- An integer between the bounds; `want` names the kind of number in messages. -/
def asInt (low high : Int) (want : String) : Decoder Int
  | int n => if low ≤ n ∧ n ≤ high then .ok n else .error (.invalidValue (int n) want)
  | j => .error (.invalidType j want)

def asNat64 (want : String) (j : Json) : Except DecodeError Nat :=
  (asInt 0 0xffffffffffffffff want j).map Int.toNat

def asAny : Decoder Json := .ok

def asList {α : Type} (decode : Decoder α) : Decoder (List α)
  | list items => items.mapM decode
  | j => .error (.invalidType j "a sequence")

/-- One of the known names, as a text or as the only key of an object that holds nothing. -/
def asVariant {α : Type} (known : List (String × α)) : Decoder α
  | text s => find s
  | object [(key, value)] => do
    let a ← find key
    match value with
    | null => .ok a
    | j => .error (.invalidType j "unit")
  | object fields => .error (.invalidValue (object fields) "map with a single key")
  | j => .error (.invalidType j "string or map")
where
  find (s : String) : Except DecodeError α :=
    match known.lookup s with
    | some a => .ok a
    | none => .error (.unknownVariant s (known.map Prod.fst))

/-- The fields that a value holds, in the order in which it holds them. -/
structure Row where
  found : Fields
  /-- the fault of a field that is required and absent -/
  absent : String → DecodeError
  /-- the fault of a list with more items than there are fields -/
  surplus : Option DecodeError

/-- What decoding one or more fields of a row gives. A fault is known by the place of its field in
the row. -/
inductive Reading (α : Type) where
  | value (a : α)
  | fault (place : Nat) (error : DecodeError)
  | absent (error : DecodeError)

namespace Reading

def map {α β : Type} (f : α → β) : Reading α → Reading β
  | value a => value (f a)
  | fault place error => fault place error
  | absent error => absent error

/-- Both readings, or the fault that comes first. -/
def both {α β : Type} (f : Reading (α → β)) (x : Reading α) : Reading β :=
  match f, x with
  | value f, x => x.map f
  | fault p e, fault q e' => if q < p then fault q e' else fault p e
  | fault p e, _ => fault p e
  | absent _, fault q e => fault q e
  | absent e, _ => absent e

instance : Functor Reading where
  map := map

instance : Seq Reading where
  seq f x := both f (x ())

def toExcept {α : Type} : Reading α → Except DecodeError α
  | value a => .ok a
  | fault _ error => .error error
  | absent error => .error error

end Reading

namespace Row

/-- The row of a structure called `name` in messages, with these fields in the order of
declaration. -/
def ofJson (name : String) (fields : List String) : Decoder Row
  | object found => .ok ⟨found, .missingField, none⟩
  | list items => .ok
      { found := fields.zip items
        absent := fun field => .invalidLength (fields.idxOf field)
          ("struct " ++ name ++ " with " ++ toString fields.length ++
            (if fields.length = 1 then " element" else " elements"))
        surplus := if fields.length < items.length
          then some (.invalidLength items.length "fewer elements in array") else none }
  | j => .error (.invalidType j ("struct " ++ name))

variable {α : Type} (row : Row)

def read (field : String) (decode : Decoder α) (absent : Reading α) : Reading α :=
  match row.found.lookup field with
  | none => absent
  | some j =>
    match decode j with
    | .ok a => .value a
    | .error e => .fault (row.found.findIdx (·.1 == field)) e

def required (field : String) (decode : Decoder α) : Reading α :=
  row.read field decode (.absent (row.absent field))

def orElse (field : String) (decode : Decoder α) (default : α) : Reading α :=
  row.read field decode (.value default)

/-- A field whose value may be absent or null. -/
def optional (field : String) (decode : Decoder α) : Reading (Option α) :=
  row.read field (fun j => match j with
    | null => .ok none
    | j => (decode j).map some) (.value none)

end Row

/-- Decodes a structure; `read` combines the readings of its fields. -/
def asStruct {α : Type} (name : String) (fields : List String) (read : Row → Reading α) :
    Decoder α := fun j => do
  let row ← Row.ofJson name fields j
  let a ← (read row).toExcept
  match row.surplus with
  | some e => .error e
  | none => .ok a

end Json

end WorkQueue
