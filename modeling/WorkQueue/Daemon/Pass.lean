import WorkQueue.Daemon.Basic

/-!
# Scheduling passes

A pass starts the first open work item, unless autorun is off, another pass of the controller is
under way, or an item is in progress. It goes from one call on a collaborator to the next; between
two calls it holds the controller, so that other passes of the same controller give up.
-/

namespace WorkQueue.Autorun

open Fleet

/-- Where a pass stands: the call that it is about to make. -/
inductive Stage where
  | settings
  | create (work : Work) (role : Role) (session : String)
  | retitle (work : Work) (role : Role) (session : String)
  | kickoff (work : Work) (session message : String) (options : MessageOptions)
  /-- delete the session again and end with the failure -/
  | discard (session : String) (failure : Failure)
  | ended (result : Except Failure Outcome)

/-- Makes a call known and says whether it is refused. -/
def consult (x : Controller) (r : Request) : FleetM (Except Chain Unit) := do
  if x.asksOutside || r.isMessage then
    modify fun fleet => { fleet with requests := fleet.requests ++ [r] }
    match (← daemon x.daemon).outside.refusals.lookup r.name with
    | some chain => return .error chain
    | none => return .ok ()
  else return .ok ()

def isEnabled (x : Controller) : FleetM (Except Chain Bool) := do
  match ← consult x .readSettings with
  | .error chain => return .error chain
  | .ok () =>
    let d ← daemon x.daemon
    let fixed := if x.asksOutside then d.outside.autorun else none
    return .ok (fixed.getD (Settings.autorunOn d.stores.settings))

/-- A call on the session store, with what was attempted named when it fails. -/
def onSessions (x : Controller) (r : Request) (context : String) (call : StoreM Session Session) :
    FleetM (Except Chain Unit) := do
  match ← consult x r with
  | .error chain => return .error chain
  | .ok () =>
    match ← perform x.daemon .session call with
    | .ok _ => return .ok ()
    | .error e => return .error (context :: e.chain)

def createSession (id : String) : StoreM Session Session := Store.create id ({} : Session.Draft)

def retitleSession (id title : String) : StoreM Session Session :=
  Store.update id ({ title := some title } : Session.Patch)

def deleteSession (id : String) : StoreM Session Session := Store.delete id

def sessionContext (verb id : String) : String :=
  "failed to " ++ verb ++ " session " ++ Text.ticked id

def release (c : Nat) : FleetM Unit := modifyController c fun x => { x with processing := false }

/-- Ends a pass that held the controller. -/
def finish (c : Nat) (result : Except Failure Outcome) : FleetM Stage := do
  release c
  return .ended result

/-- The item to be started next and its role, or how the pass ends without one. -/
def choose (works : Store Work) (roles : Store Role) :
    Except (Except Failure Outcome) (Work × Role) :=
  let items := works.list
  if items.any (·.status = .inProgress) then .error (.ok .alreadyActive)
  else match items.find? (·.status = .open) with
    | none => .error (.ok .noOpenWork)
    | some w =>
      match w.roleId with
      | none => .error (.error (.missingRole w.id))
      | some r =>
        match roles.get? r with
        | none => .error (.error (.unknownRole w.id r))
        | some role => .ok (w, role)

def newSession : FleetM String := modifyGet fun fleet =>
  (fleet.host.nextId, { fleet with host := fleet.host.afterId })

/-- After the settings were read: takes the controller and chooses an item. -/
def begin (c : Nat) (x : Controller) : FleetM Stage := do
  if x.processing then return .ended (.ok .busy)
  let d ← daemon x.daemon
  match choose d.stores.work d.stores.role with
  | .error result => return .ended result
  | .ok (w, role) =>
    modifyController c fun x => { x with processing := true }
    return .create w role (← newSession)

/-- After the session was prepared: moves the item to in progress and writes the first message. -/
def startWork (x : Controller) (w : Work) (role : Role) (session : String) : FleetM Stage := do
  match ← perform x.daemon .work (Work.start w.id session) with
  | .error e => return .discard session (.store e)
  | .ok started =>
    let works := (← daemon x.daemon).stores.work
    let parentTitle := (started.parentId.bind works.get?).map (·.title)
    return .kickoff started session (kickoffMessage started parentTitle) (.kickoff role.prompt)

def step (c : Nat) (s : Stage) : FleetM Stage := do
  let x ← controller c
  match s with
  | .settings =>
    match ← isEnabled x with
    | .error chain => return .ended (.error (.settings chain))
    | .ok false => return .ended (.ok .disabled)
    | .ok true => begin c (← controller c)
  | .create w role session =>
    match ← onSessions x (.createSession session) (sessionContext "create" session)
        (createSession session) with
    | .error chain => finish c (.error (.session chain))
    | .ok () => return .retitle w role session
  | .retitle w role session =>
    match ← onSessions x (.retitleSession session w.title) (sessionContext "retitle" session)
        (retitleSession session w.title) with
    | .error chain => return .discard session (.session chain)
    | .ok () => startWork x w role session
  | .kickoff w session message options =>
    match ← consult x (.kickoff session message options) with
    | .error chain => return .discard session (.kickoff chain)
    | .ok () => finish c (.ok (.started w.id session))
  | .discard session failure =>
    discard (onSessions x (.deleteSession session) (sessionContext "delete" session)
      (deleteSession session))
    finish c (.error failure)
  | .ended result => return .ended result

/-- A step that gives the controller up when a listener interrupts it. -/
def guardedStep (c : Nat) (s : Stage) : FleetM Stage :=
  tryCatch (step c s) fun e => do
    release c
    throw e

/-- A pass makes at most four calls. -/
def maxSteps : Nat := 5

/-- Goes on until the pass has ended, or stands where `pause` holds. -/
def runUntil (c : Nat) (pause : Stage → Bool) : Nat → Stage → FleetM Stage
  | 0, s => return s
  | n + 1, s =>
    match s with
    | .ended result => return .ended result
    | s => if pause s then return s else do runUntil c pause n (← guardedStep c s)

def Stage.result : Stage → Except Failure Outcome
  | .ended result => result
  | _ => .ok .busy

def Stage.isCreate : Stage → Bool
  | .create _ _ _ => true
  | _ => false

def resume (c : Nat) (s : Stage) : FleetM (Except Failure Outcome) := do
  return (← runUntil c (fun _ => false) maxSteps s).result

def startNext (c : Nat) : FleetM (Except Failure Outcome) := resume c .settings

/-- Two passes at once: the first pauses before it creates its session and lets the second run. -/
def startPair (c : Nat) : FleetM (Except Failure Outcome × Except Failure Outcome) := do
  let s ← runUntil c Stage.isCreate maxSteps .settings
  let second ← startNext c
  return (← resume c s, second)

/-- Nudges the session of the item in progress when its agent went idle: whether a message was
sent. -/
def handleAgentEvent (c : Nat) (event : AgentEvent) : FleetM (Except Failure Bool) := do
  if event.state ≠ .idle ∨ event.isInitial then return .ok false
  let x ← controller c
  match ← isEnabled x with
  | .error chain => return .error (.settings chain)
  | .ok false => return .ok false
  | .ok true =>
    let works := (← daemon x.daemon).stores.work
    if works.list.any fun w => w.status = .inProgress ∧ w.sessionId = some event.sessionId then
      match ← consult x (.send event.sessionId x.continueMessage) with
      | .error chain => return .error (.nudge chain)
      | .ok () => return .ok true
    else return .ok false

end WorkQueue.Autorun
