import WorkQueue.Digest
import WorkQueue.Disk.Basic
import WorkQueue.Json.Printer
import WorkQueue.Json.Reader
import WorkQueue.Record.Basic

/-!
# The index file of an entity

The records of an entity are kept as one JSON object in `index.json`, in a directory of their own.
A writer fills `index.json.tmp` and moves it into place, so that a reader finds either the old
records or the new ones. Readers and writers lock `index.json.lock`, which is never moved.

Writing is a list of steps, so that what an interrupted write leaves behind can be said.
-/

namespace WorkQueue

open Json

structure Index where
  dir : Location
  deriving DecidableEq, Repr

namespace Index

def ofData (R : Type) [Record R] (data : Location) : Index := ⟨data.child (Record.entity R)⟩

def file (i : Index) : Location := i.dir.child "index.json"

def lock (i : Index) : Location := i.file.withSuffix ".lock"

def temp (i : Index) : Location := i.file.withSuffix ".tmp"

/-- A computation on the disk that fails as a store does. -/
abbrev Act := EStateM StoreError Disk

/-- Names what was attempted when the system refuses it. -/
def attempt {α : Type} (context : String) (a : Disk.Act α) : Act α := fun d =>
  match a d with
  | .ok x d => .ok x d
  | .error fault d => .error (.io context fault) d

variable {R : Type} [Record R]

def document (records : List Json) : Json := ofFields [(Record.collection R, list records)]

/-- The content that holds the records; one record that has no JSON form refuses them all. -/
def encode (records : List R) : Except StoreError ByteArray :=
  match records.mapM Record.encode with
  | .ok js => .ok ((document (R := R) js).indented ++ "\n").toUTF8
  | .error e => .error (.encode (Record.entity R) e)

def isAsciiBlank (b : UInt8) : Bool :=
  b == 0x20 || b == 0x09 || b == 0x0a || b == 0x0c || b == 0x0d

/-- The records of a document; one without the collection holds none. -/
def ofDocument : Json → Except DecodeError (List R)
  | object fields =>
    match fields.lookup (Record.collection R) with
    | some j => asList Record.decode j
    | none => .ok []
  | _ => .error .malformed

/-- A content of nothing but blanks holds no records. -/
def decode (content : ByteArray) : Except DecodeError (List R) :=
  if content.data.toList.all isAsciiBlank then .ok []
  else match ofBytes? content with
    | some j => ofDocument j
    | none => .error .malformed

/-- Records as they were read, with the digest of what was read. -/
structure Loaded (R : Type) where
  records : List R
  /-- `none` when there is no file -/
  digest : Option Digest

def ensureDir (i : Index) : Act Unit :=
  attempt ("failed to create directory " ++ Text.ticked i.dir.text) (Disk.makePrivateDir i.dir.path)

/-- Makes sure that there is a directory to watch. -/
def resolveDir (i : Index) : Act Unit := do
  i.ensureDir
  attempt ("failed to canonicalize " ++ Text.ticked i.dir.text) (Disk.resolve i.dir.path)

/-- Reads the index under a shared lock. A file that is missing holds no records. -/
def read (i : Index) : Act (Loaded R) := do
  i.ensureDir
  attempt ("failed to take shared lock " ++ Text.ticked i.lock.text) (Disk.openLock i.lock.path)
  let content? ← attempt ("failed to read index " ++ Text.ticked i.file.text) <|
    tryCatch (some <$> Disk.read i.file.path) fun fault =>
      if fault = .missing then pure none else throw fault
  match content? with
  | none => return ⟨[], none⟩
  | some content =>
    match decode content with
    | .ok records => return ⟨records, some (Digest.ofBytes content)⟩
    | .error e => throw (.decode i.file.text e)

inductive Step where
  | makeDir
  | lock
  | openTemp
  | fill (content : ByteArray)
  | sync
  | rename
  /-- keep the file from others -/
  | restrict

/-- Moves the temporary file into place, or removes it where that is refused. -/
def moveIntoPlace (i : Index) : Disk.Act Unit :=
  tryCatch (Disk.rename i.temp.path i.file.path) fun fault => do
    tryCatch (Disk.remove i.temp.path) fun _ => pure ()
    throw fault

def Step.run (i : Index) : Step → Act Unit
  | makeDir => i.ensureDir
  | lock => attempt ("failed to take exclusive lock " ++ Text.ticked i.lock.text)
      (Disk.openLock i.lock.path)
  | openTemp => attempt ("failed to open temp index " ++ Text.ticked i.temp.text)
      (Disk.openEmpty i.temp.path 0o600)
  | fill content => attempt "failed to write temp index" (Disk.write i.temp.path content)
  | sync => attempt "failed to write temp index" (Disk.sync i.temp.path)
  | rename => attempt ("failed to atomically move " ++ Text.ticked i.temp.text ++ " to " ++
      Text.ticked i.file.text) i.moveIntoPlace
  | restrict => attempt "" (Disk.setMode i.file.path 0o600)

def steps (content : ByteArray) : List Step :=
  [.makeDir, .lock, .openTemp, .fill content, .sync, .rename, .restrict]

/-- Writes the records under the exclusive lock and gives the digest of what was written. -/
def write (i : Index) (records : List R) : Act Digest := do
  let content ← MonadExcept.ofExcept (encode records)
  (steps content).forM (Step.run i)
  return Digest.ofBytes content

end Index

end WorkQueue
