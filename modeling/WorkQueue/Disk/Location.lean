/-!
# Locations

A place in the file system: its components from the root, by which it is found, and its text as it
was written, by which messages name it.
-/

namespace WorkQueue

/-- The components of a place from the root. -/
abbrev Path := List String

structure Location where
  path : Path
  text : String
  deriving DecidableEq, Repr

namespace Location

/-- Whether the first of two paths comes first, by their components. -/
def ascending : Path → Path → Bool
  | [], _ => true
  | _ :: _, [] => false
  | a :: p, b :: q => a < b || (a == b && ascending p q)

/-- Adds a component; a component that names the parent takes the last one away. -/
def addComponent (path : Path) (c : String) : Path :=
  if c = "" ∨ c = "." then path else if c = ".." then path.dropLast else path ++ [c]

def ofText (s : String) : Location :=
  ⟨(s.splitOn "/").foldl addComponent [], s⟩

def joinText (text name : String) : String :=
  if text = "" ∨ text.endsWith "/" then text ++ name else text ++ "/" ++ name

def child (l : Location) (name : String) : Location :=
  ⟨l.path ++ [name], joinText l.text name⟩

/-- The place whose name is continued by `suffix`. -/
def withSuffix (l : Location) (suffix : String) : Location :=
  ⟨l.path.dropLast ++ [l.path.getLastD "" ++ suffix], l.text ++ suffix⟩

/-- A text below a place; a text that starts at the root stands for itself. -/
def join (l : Location) (s : String) : Location :=
  if s.startsWith "/" then ofText s
  else ⟨(s.splitOn "/").foldl addComponent l.path, joinText l.text s⟩

/-- The same place, named from the root. -/
def resolved (l : Location) : Location :=
  ⟨l.path, "/" ++ "/".intercalate l.path⟩

def parent (l : Location) : Location :=
  ⟨l.path.dropLast, "/" ++ "/".intercalate l.path.dropLast⟩

end Location

end WorkQueue
