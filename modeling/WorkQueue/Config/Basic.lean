import WorkQueue.Disk.Location
import WorkQueue.Json.Decode
import WorkQueue.Watch.Debounce

/-!
# Configuration

What a user may set: the data directory, how long the watch loop waits, the length of a notifier's
queue, and the message that nudges an idle session. What is not set has a default.
-/

namespace WorkQueue

open Json

structure Config where
  dataDir : Option String := none
  debounceMs : Nat := Watch.defaultWindow
  queueCapacity : Nat := 64
  continueMessage : String := "continue"
  deriving DecidableEq, Repr

namespace Config

def window (c : Config) : Nat := Watch.clampWindow c.debounceMs

def asPath : Decoder String
  | text s => .ok s
  | j => .error (.invalidType j "path string")

def readSection {α : Type} (name field : String) (decode : Decoder α) (default : α) : Decoder α :=
  asStruct name [field] fun row => row.orElse field decode default

def read (row : Row) : Reading Config :=
  let d : Config := {}
  let asReconcile := readSection "ReconcileConfig" "debounce_ms" (asNat64 "u64") d.debounceMs
  let asNotifier := readSection "NotifierConfig" "queue_capacity" (asNat64 "usize") d.queueCapacity
  let asAutorun := readSection "AutorunConfig" "continue_message" asText d.continueMessage
  Config.mk <$> row.optional "data_dir" asPath
    <*> row.orElse "reconcile" asReconcile d.debounceMs
    <*> row.orElse "notifier" asNotifier d.queueCapacity
    <*> row.orElse "autorun" asAutorun d.continueMessage

def ofJson : Decoder Config :=
  asStruct "DaemonConfig" ["data_dir", "reconcile", "notifier", "autorun"] read

def toJson (c : Config) : Json :=
  object
    [("data_dir", ofOption text c.dataDir),
     ("reconcile", object [("debounce_ms", int c.debounceMs)]),
     ("notifier", object [("queue_capacity", int c.queueCapacity)]),
     ("autorun", object [("continue_message", text c.continueMessage)])]

/-- The environment variable that names the data directory. -/
def dataDirVariable : String := "WORKLOOP_DATA_DIR"

def globalDir (home : Location) : Location := home.child ".workloop"

def globalFile (home : Location) : Location := (globalDir home).child "config.toml"

/-- An explicit directory wins, then the environment unless it is empty, then the configuration,
then the usual place below the home directory. -/
def resolveDataDir (c : Config) (explicit environment : Option String) (home : Location) : String :=
  match explicit, environment.filter (· ≠ ""), c.dataDir with
  | some dir, _, _ => dir
  | none, some dir, _ => dir
  | none, none, some dir => dir
  | none, none, none => ((globalDir home).child "data").text

end Config

end WorkQueue
