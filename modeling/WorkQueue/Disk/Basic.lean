import WorkQueue.Disk.Fault
import WorkQueue.Disk.Location

/-!
# The disk

Files and directories under their paths. A call either does its work or is refused: for a reason
that lies in the tree itself, or because the system refuses it. The system may permit a call once
and refuse it the next time. New directories and files get the permissions that are usual, `755` and
`644`, unless the call asks for others.
-/

namespace WorkQueue

inductive Node where
  | file (mode : Nat) (content : ByteArray)
  | dir (mode : Nat)

inductive Call where
  | makeDir
  | lock
  | read
  | openFile
  | write
  | sync
  | rename
  | resolve
  | makeWatch
  | watch
  deriving DecidableEq, Repr

structure Disk where
  nodes : List (Path × Node) := []
  /-- paths of files as they were written, moved or removed, latest first -/
  touched : List Path := []
  /-- how many calls the system was asked to permit -/
  asked : Nat := 0
  /-- why the system refuses a call, where the reason lies outside the tree: one answer for each
  time that it is asked -/
  refusal : Nat → Call → Path → Option String := fun _ _ _ => none

namespace Disk

/-- A computation on the disk that may be refused; what it did before stays done. -/
abbrev Act := EStateM Fault Disk

def node? (d : Disk) (p : Path) : Option Node :=
  if p = [] then some (.dir 0o755) else d.nodes.lookup p

def isDir (d : Disk) (p : Path) : Bool :=
  match d.node? p with
  | some (.dir _) => true
  | _ => false

def content? (d : Disk) (p : Path) : Option ByteArray :=
  match d.node? p with
  | some (.file _ content) => some content
  | _ => none

def set (d : Disk) (p : Path) (n : Node) : Disk :=
  { d with nodes := (p, n) :: d.nodes.filter (·.1 ≠ p) }

def unset (d : Disk) (p : Path) : Disk :=
  { d with nodes := d.nodes.filter (·.1 ≠ p) }

def touch (d : Disk) (p : Path) : Disk :=
  { d with touched := p :: d.touched }

/-- The first component on the way to the last one that is no directory. -/
def wayFault? (d : Disk) (done : Path) : Path → Option Fault
  | [] | [_] => none
  | c :: rest =>
    match d.node? (done ++ [c]) with
    | none => some .missing
    | some (.file _ _) => some .notADirectory
    | some (.dir _) => wayFault? d (done ++ [c]) rest

/-- What is at a path, if the way to it consists of directories. -/
def look (d : Disk) (p : Path) : Except Fault (Option Node) :=
  match d.wayFault? [] p with
  | some fault => .error fault
  | none => .ok (d.node? p)

def ask (d : Disk) : Disk := { d with asked := d.asked + 1 }

def permit (c : Call) (p : Path) : Act Unit := do
  match ← modifyGet fun d => (d.refusal d.asked c p, d.ask) with
  | some reason => throw (.other reason)
  | none => pure ()

def lookAt (p : Path) : Act (Option Node) := do
  match (← get).look p with
  | .ok node => pure node
  | .error fault => throw fault

def makeDirsFrom (done : Path) : Path → Act Unit
  | [] => pure ()
  | c :: rest => do
    let p := done ++ [c]
    match (← get).node? p with
    | some (.dir _) => makeDirsFrom p rest
    | some (.file _ _) => throw (if rest.isEmpty then .occupied else .notADirectory)
    | none => do
      modify (·.set p (.dir 0o755))
      makeDirsFrom p rest

def makeDirs (p : Path) : Act Unit := do
  permit .makeDir p
  makeDirsFrom [] p

/-- Sets the permissions of what is there; nothing is done where nothing is. -/
def setMode (p : Path) (mode : Nat) : Act Unit := do
  match (← get).node? p with
  | some (.file _ content) => modify (·.set p (.file mode content))
  | some (.dir _) => modify (·.set p (.dir mode))
  | none => pure ()

/-- Makes the directories of a path and keeps the last one from others. -/
def makePrivateDir (p : Path) : Act Unit := do
  makeDirs p
  setMode p 0o700

/-- Opens a file for writing, as it is; a new one is empty and gets the permissions. -/
def openFile (p : Path) (mode : Nat) : Act Unit := do
  match ← lookAt p with
  | some (.dir _) => throw .isADirectory
  | some (.file _ _) => pure ()
  | none => modify fun d => (d.set p (.file mode .empty)).touch p

def openLock (p : Path) : Act Unit := do
  permit .lock p
  openFile p 0o600

def fill (p : Path) (content : ByteArray) : Act Unit := do
  match (← get).node? p with
  | some (.file mode _) => modify fun d => (d.set p (.file mode content)).touch p
  | _ => throw .missing

def openEmpty (p : Path) (mode : Nat) : Act Unit := do
  permit .openFile p
  openFile p mode
  fill p .empty

def write (p : Path) (content : ByteArray) : Act Unit := do
  permit .write p
  fill p content

def sync (p : Path) : Act Unit := permit .sync p

def read (p : Path) : Act ByteArray := do
  permit .read p
  match ← lookAt p with
  | some (.file _ content) => pure content
  | some (.dir _) => throw .isADirectory
  | none => throw .missing

/-- Follows the way to something that is there. -/
def resolve (p : Path) : Act Unit := do
  permit .resolve p
  match ← lookAt p with
  | some _ => pure ()
  | none => throw .missing

/-- Moves a file in one step; a file in its new place is replaced. -/
def rename (p q : Path) : Act Unit := do
  permit .rename q
  match ← lookAt p with
  | none => throw .missing
  | some (.dir _) => throw .isADirectory
  | some (.file mode content) =>
    match ← lookAt q with
    | some (.dir _) => throw .isADirectory
    | _ => modify fun d => (((d.unset p).set q (.file mode content)).touch p).touch q

def remove (p : Path) : Act Unit := do
  match ← lookAt p with
  | some (.file _ _) => modify fun d => (d.unset p).touch p
  | some (.dir _) => throw .isADirectory
  | none => throw .missing

def removeTree (p : Path) : Act Unit := do
  match ← lookAt p with
  | some (.dir _) => modify fun d =>
    let gone := (d.nodes.filter fun e => p.isPrefixOf e.1).map Prod.fst
    { d with nodes := d.nodes.filter (fun e => !p.isPrefixOf e.1), touched := gone ++ d.touched }
  | some (.file _ _) => throw .notADirectory
  | none => throw .missing

/-- What is below a directory, with paths relative to it, in ascending order of the paths. -/
def below (d : Disk) (p : Path) : List (Path × Node) :=
  let entries := d.nodes.filter fun e => p.isPrefixOf e.1 && e.1 ≠ p
  (entries.map fun e => (e.1.drop p.length, e.2)).mergeSort fun a b => Location.ascending a.1 b.1

end Disk

end WorkQueue
