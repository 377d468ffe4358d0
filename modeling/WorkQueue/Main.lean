import Std.Time.DateTime.Timestamp
import WorkQueue.Cli.Run
import WorkQueue.Identity

/-!
# The command

The files that a command may need are read, the command is carried out on what was read, and what
it changed is written while the locks of the index files are held. Where another process has
written in the meantime, nothing is written and the command is carried out again.
-/

namespace WorkQueue.Program

open Cli Time

def pathText (p : Path) : String := "/" ++ "/".intercalate p

def fileContent? (p : Path) : IO (Option ByteArray) :=
  tryCatch (some <$> IO.FS.readBinFile (pathText p)) fun
    | .noFileOrDirectory _ _ _ => return none
    | e => throw e

/-- Takes a file over with the directories above it, or the reason why it cannot be read. -/
def loadFile (d : Disk) (p : Path) : IO Disk :=
  tryCatch (do
    match ← fileContent? p with
    | none => return d
    | some content =>
      match Disk.makeDirs p.dropLast d with
      | .ok _ d => return d.set p (.file 0o600 content)
      | .error _ d => return d)
    fun e => return { d with refusal := fun n c q =>
      if c = .read ∧ q = p then some (toString e) else d.refusal n c q }

def indexFiles (data : Location) : List Path :=
  [(Index.ofData Work data).file.path, (Index.ofData Role data).file.path,
   (Index.ofData Settings data).file.path]

def newHost (disk : Disk) : IO Host := do
  let now := (← Std.Time.Timestamp.now).toNanosecondsSinceUnixEpoch.val
  let random ← IO.rand 0 0x4000000000000000
  let later ← IO.rand 0 0x1000
  return {
    disk
    ids := fun n => Identity.text (now / 1000000).toNat (later * 0x4000000000000000 + random + n)
    times := fun n =>
      (Stamp.ofUnix? ((now + n) / 1000000000) ((now + n) % 1000000000).toNat).getD .epoch }

def load (s : Surroundings) (r : Request) : IO Disk := do
  let disk ← loadFile {} (Config.globalFile s.home).path
  match dataDirectory s r.dataDir (← newHost disk) with
  | .ok data _ => (indexFiles data).foldlM loadFile disk
  | .error _ _ => return disk

def ownerOnly (isDir : Bool) : IO.FileRight :=
  { user := { read := true, write := true, execution := isDir } }

def isLock (p : Path) : Bool := (p.getLastD "").endsWith ".lock"

def makeDir (p : Path) : IO Unit := do
  IO.FS.createDirAll (pathText p)
  IO.setAccessRights (pathText p) (ownerOnly true)

/-- Puts a file in its place in one step. -/
def replaceFile (p : Path) (content : ByteArray) : IO Unit := do
  let temp := pathText p ++ ".tmp"
  IO.FS.writeBinFile temp content
  IO.setAccessRights temp (ownerOnly false)
  IO.FS.rename temp (pathText p)

def isUnchanged (before : Disk) (files : List Path) : IO Bool :=
  files.allM fun p => do return (← fileContent? p) == before.content? p

/-- Writes what a command changed, unless another process was quicker: whether it was written. -/
def store (before after : Disk) : IO Bool := do
  for (p, node) in after.nodes do
    match node with
    | .dir 0o700 => makeDir p
    | _ => pure ()
  let locks := (after.nodes.map Prod.fst).filter isLock
  let handles ← (locks.mergeSort Location.ascending).mapM fun p => do
    let h ← IO.FS.Handle.mk (pathText p) .append
    IO.setAccessRights (pathText p) (ownerOnly false)
    h.lock true
    return h
  let changed := after.nodes.filter fun (p, _) => !isLock p && after.content? p != before.content? p
  let current ← isUnchanged before (changed.map Prod.fst)
  if current then
    for (p, _) in changed do
      (after.content? p).forM (replaceFile p)
  handles.forM (·.unlock)
  return current

/-- How often a command is tried before it is given up. -/
def maxAttempts : Nat := 100

/-- Carries a request out, again where another process was quicker. -/
def carryOut (s : Surroundings) (format : Format) (r : Request) : Nat → IO Report
  | 0 => throw (IO.userError "the index files keep changing")
  | n + 1 => do
    let host ← newHost (← load s r)
    let (report, after) := runRequest s format r host
    if ← store host.disk after.disk then return report else carryOut s format r n

def surroundings : IO Surroundings := do
  let home := (← IO.getEnv "HOME").getD "/"
  let here := (← IO.getEnv "PWD").getD "/"
  return {
    home := .ofText home
    dataDir := ← IO.getEnv Config.dataDirVariable
    here := (Location.ofText here).path }

def run (args : List String) : IO UInt32 := do
  match readRequest args with
  | .error r =>
    if r.exitNumber = 0 then IO.println r.message else IO.eprintln ("error: " ++ r.message)
    return r.exitNumber.toUInt32
  | .ok request =>
    let format : Format := if ← (← IO.getStdout).isTty then .human else .json
    let report ← carryOut (← surroundings) format request maxAttempts
    IO.eprint report.err
    IO.print report.out
    return report.exit.toUInt32

end WorkQueue.Program

def main (args : List String) : IO UInt32 := WorkQueue.Program.run args
