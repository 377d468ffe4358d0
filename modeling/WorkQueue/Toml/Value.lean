/-!
# TOML values

What a configuration file may hold. Of floating-point numbers and of dates and times only their
being there is kept, since no setting takes one.
-/

namespace WorkQueue.Toml

inductive Value where
  | text (s : String)
  | int (n : Int)
  | float
  | bool (b : Bool)
  | moment
  | list (items : List Value)
  | table (fields : List (String × Value))
  deriving Repr

inductive Item where
  /-- a complete value, which nothing can be added to -/
  | value (v : Value)
  /-- `implicit`: no header of its own was read; `dotted`: it was made by a dotted key -/
  | table (implicit dotted : Bool) (items : List (String × Item))
  /-- the tables of an array, in order -/
  | tables (elements : List (List (String × Item)))

abbrev Items := List (String × Item)

mutual

def Item.toValue : Item → Value
  | .value v => v
  | .table _ _ items => .table (Item.fieldValues items)
  | .tables elements => .list (Item.elementValues elements)

def Item.fieldValues : List (String × Item) → List (String × Value)
  | [] => []
  | (k, i) :: items => (k, Item.toValue i) :: Item.fieldValues items

def Item.elementValues : List (List (String × Item)) → List Value
  | [] => []
  | e :: elements => .table (Item.fieldValues e) :: Item.elementValues elements

end

namespace Items

def replace (key : String) (i : Item) (items : Items) : Items :=
  items.map fun e => if e.1 = key then (key, i) else e

/-- Goes to the table under a path and changes it there. Tables that are missing on the way are
made. A dotted key goes only through tables without a header of their own. -/
def descend {α : Type} (dotted : Bool) (f : Bool → Items → Option (Items × α)) :
    List String → Bool → Items → Option (Items × α)
  | [], isDotted, items => f isDotted items
  | k :: path, _, items =>
    match items.lookup k with
    | none => do
      let (inner, a) ← descend dotted f path dotted []
      return (items ++ [(k, .table true dotted inner)], a)
    | some (.value _) => none
    | some (.tables elements) => do
      let (inner, a) ← descend dotted f path false (← elements.getLast?)
      return (items.replace k (.tables (elements.dropLast ++ [inner])), a)
    | some (.table isImplicit isDotted inner) => do
      if dotted && !isImplicit then none
      let (inner, a) ← descend dotted f path isDotted inner
      return (items.replace k (.table isImplicit isDotted inner), a)

def addValue (key : List String) (v : Value) (items : Items) : Option Items := do
  let last ← key.getLast?
  let path := key.dropLast
  let put := fun (isDotted : Bool) (items : Items) =>
    if isDotted == path.isEmpty || (items.lookup last).isSome then none
    else some (items ++ [(last, Item.value v)], ())
  return (← descend true put path false items).1

end Items

end WorkQueue.Toml
