import WorkQueue.Record.Basic
import WorkQueue.Work.Priority

/-!
# Work items

A unit of work for an agent. An empty text given for a reference (parent, role, session) means no
reference.
-/

namespace WorkQueue

open Json Time Text

structure Work where
  id : String
  kind : Kind
  parentId : Option String
  title : String
  body : String
  status : Status
  roleId : Option String
  sessionId : Option String
  priority : Priority
  createdAt : Stamp
  updatedAt : Stamp
  deriving DecidableEq, Repr

/-- A text as a reference: the empty text refers to nothing. -/
def clearable (s : String) : Option String := if s = "" then none else some s

namespace Work

structure Draft where
  kind : Kind := .task
  parentId : Option String := none
  title : String := ""
  body : String := ""
  roleId : Option String := none
  /-- `none` queues the item last -/
  priority : Option Priority := none
  deriving DecidableEq, Repr

structure Patch where
  kind : Option Kind := none
  parentId : Option String := none
  title : Option String := none
  body : Option String := none
  status : Option Status := none
  roleId : Option String := none
  sessionId : Option String := none
  priority : Option Priority := none
  deriving DecidableEq, Repr

def ofDraft (id : String) (now : Stamp) (draft : Draft) : Work where
  id := id
  kind := draft.kind
  parentId := draft.parentId.bind clearable
  title := draft.title
  body := draft.body
  status := .open
  roleId := draft.roleId.bind clearable
  sessionId := none
  priority := draft.priority.getD .zero
  createdAt := now
  updatedAt := now

def patchedReference (old : Option String) : Option String → Option String
  | none => old
  | some s => clearable s

/-- The item with the patch applied, whatever its status. -/
def patched (p : Patch) (w : Work) : Work :=
  { w with
    kind := p.kind.getD w.kind
    parentId := patchedReference w.parentId p.parentId
    title := p.title.getD w.title
    body := p.body.getD w.body
    status := p.status.getD w.status
    roleId := patchedReference w.roleId p.roleId
    sessionId := patchedReference w.sessionId p.sessionId
    priority := p.priority.getD w.priority }

/-- A patch that asks for any status but the next one is refused. -/
def patch (p : Patch) (w : Work) : Except StoreError Work :=
  match p.status with
  | none => .ok (patched p w)
  | some next =>
    if w.status.canMoveTo next then .ok (patched p w)
    else .error (.invalidTransition w.id w.status next)

def validate (w : Work) : Except ValidationError Unit := do
  requireText "title" w.title
  if w.parentId = some w.id then
    .error (.invalid "parentId" "a work item cannot be its own parent")
  else .ok ()

/-- By priority; items of one priority stay in the order in which they are kept. -/
def order (works : List Work) : List Work :=
  works.mergeSort fun a b => a.priority.value ≤ b.priority.value

/-- The fields in the order of declaration; a reference that is not set is left out. -/
def entries (w : Work) : List (String × Option Json) :=
  [("id", some (text w.id)),
   ("type", some w.kind.toJson),
   ("parentId", w.parentId.map text),
   ("title", some (text w.title)),
   ("body", some (text w.body)),
   ("status", some w.status.toJson),
   ("roleId", w.roleId.map text),
   ("sessionId", w.sessionId.map text),
   ("priority", some (int w.priority.value))] ++ timeFields w.createdAt w.updatedAt

def fields (w : Work) : Fields := presentFields w.entries

def fieldNames : List String :=
  ["id", "type", "parentId", "title", "body", "status", "roleId", "sessionId", "priority",
   "createdAt", "updatedAt"]

def asPriority (j : Json) : Except DecodeError Priority := do
  let n ← asInt Priority.least Priority.most "i64" j
  match Priority.ofInt? n with
  | some p => .ok p
  | none => .error (.invalidValue j "i64")

def read (row : Row) : Reading Work :=
  Work.mk <$> row.required "id" asText
    <*> row.orElse "type" Kind.ofJson .task
    <*> row.optional "parentId" asText
    <*> row.required "title" asText
    <*> row.orElse "body" asText ""
    <*> row.orElse "status" Status.ofJson .open
    <*> row.optional "roleId" asText
    <*> row.optional "sessionId" asText
    <*> row.orElse "priority" asPriority .zero
    <*> row.required "createdAt" asStamp
    <*> row.required "updatedAt" asStamp

instance : Record Work where
  Draft := Draft
  Patch := Patch
  entity := "work"
  collection := "works"
  id := id
  createdAt := createdAt
  updatedAt := updatedAt
  ofDraft := ofDraft
  patch := patch
  touch now w := { w with updatedAt := now }
  validate := validate
  order := order
  fields := fields
  decode := asStruct "Work" fieldNames read
  decEq := inferInstance

end Work

end WorkQueue
