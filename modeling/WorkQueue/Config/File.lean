import WorkQueue.Config.Basic
import WorkQueue.Disk.Basic
import WorkQueue.Toml.Reader
import WorkQueue.Toml.Writer

/-!
# The configuration file

The configuration is kept as TOML, one table for each part of the program. What a file does not
set has its default, what no setting takes is passed over. A saved file is readable by its owner
only, and so is the directory it is in.
-/

namespace WorkQueue

namespace Config

inductive FileError where
  | io (fault : Fault)
  | parse
  | serialize
  deriving Repr

namespace FileError

def message : FileError → String
  | io fault => "config I/O error: " ++ fault.message
  | parse => "config parse error: the text is not a configuration"
  | serialize => "config serialize error: a number is too large"

end FileError

/-! ### Reading -/

def tomlText? : Toml.Value → Option String
  | .text s => some s
  | _ => none

def tomlNat? : Toml.Value → Option Nat
  | .int n => if 0 ≤ n then some n.toNat else none
  | _ => none

/-- The setting of a part that has one setting. A list holds it in its first place. -/
def tomlSetting? {α : Type} (field : String) (decode : Toml.Value → Option α) (default : α) :
    Toml.Value → Option α
  | .table fields => (fields.lookup field).elim (some default) decode
  | .list (v :: _) => decode v
  | .list [] => some default
  | .moment => some default
  | _ => none

def ofToml? (fields : List (String × Toml.Value)) : Option Config := do
  let d : Config := {}
  let part {α : Type} (name field : String) (decode : Toml.Value → Option α) (default : α) :=
    (fields.lookup name).elim (some default) (tomlSetting? field decode default)
  let dataDir ← (fields.lookup "data_dir").elim (some none) fun v => (tomlText? v).map some
  let debounceMs ← part "reconcile" "debounce_ms" tomlNat? d.debounceMs
  let queueCapacity ← part "notifier" "queue_capacity" tomlNat? d.queueCapacity
  let continueMessage ← part "autorun" "continue_message" tomlText? d.continueMessage
  return { dataDir, debounceMs, queueCapacity, continueMessage }

def ofTomlText? (s : String) : Option Config :=
  Toml.ofText? s >>= ofToml?

def ofContent (content : ByteArray) : Except FileError Config :=
  match String.fromUTF8? content with
  | none => .error (.io (.other "stream did not contain valid UTF-8"))
  | some s =>
    match ofTomlText? s with
    | some c => .ok c
    | none => .error .parse

def readContent (d : Disk) (file : Location) : Except Fault ByteArray :=
  match Disk.read file.path d with
  | .ok content _ => .ok content
  | .error fault _ => .error fault

def load (d : Disk) (file : Location) : Except FileError Config :=
  match readContent d file with
  | .ok content => ofContent content
  | .error fault => .error (.io fault)

/-- The configuration in a file; where there is none, everything has its default. -/
def loadOrDefault (d : Disk) (file : Location) : Except FileError Config :=
  match readContent d file with
  | .ok content => ofContent content
  | .error .missing => .ok {}
  | .error fault => .error (.io fault)

/-- The configuration of the user whose home directory is given. -/
def loadGlobal (d : Disk) (home : Location) : Except FileError Config :=
  loadOrDefault d (globalFile home)

/-! ### Writing -/

def largestInt : Nat := 0x7fffffffffffffff

def tomlLine (key value : String) : String := key ++ " = " ++ value ++ "\n"

/-- The text of the file. A number that TOML has no integer for cannot be written. -/
def toToml? (c : Config) : Option String :=
  if c.debounceMs ≤ largestInt ∧ c.queueCapacity ≤ largestInt then
    let top := (c.dataDir.elim "" fun dir => tomlLine "data_dir" (Toml.textValue dir) ++ "\n")
    some (top ++ "[reconcile]\n" ++ tomlLine "debounce_ms" (toString c.debounceMs) ++ "\n" ++
      "[notifier]\n" ++ tomlLine "queue_capacity" (toString c.queueCapacity) ++ "\n" ++
      "[autorun]\n" ++ tomlLine "continue_message" (Toml.textValue c.continueMessage))
  else none

def onFile {α : Type} (a : Disk.Act α) : EStateM FileError Disk α := fun d =>
  match a d with
  | .ok x d => .ok x d
  | .error fault d => .error (.io fault) d

def save (c : Config) (file : Location) : EStateM FileError Disk Unit := do
  onFile (Disk.makePrivateDir file.path.dropLast)
  match c.toToml? with
  | none => throw .serialize
  | some s => onFile do
    Disk.openEmpty file.path 0o644
    Disk.write file.path s.toUTF8
    Disk.setMode file.path 0o600

end Config

end WorkQueue
