import WorkQueue.Record.Basic

/-!
# Roles

A named system prompt that work items are assigned to.
-/

namespace WorkQueue

open Json Time

structure Role where
  id : String
  name : String
  prompt : String
  createdAt : Stamp
  updatedAt : Stamp
  deriving DecidableEq, Repr

namespace Role

structure Draft where
  name : String := ""
  prompt : String := ""
  deriving DecidableEq, Repr

structure Patch where
  name : Option String := none
  prompt : Option String := none
  deriving DecidableEq, Repr

def ofDraft (id : String) (now : Stamp) (draft : Draft) : Role :=
  ⟨id, draft.name, draft.prompt, now, now⟩

def patched (p : Patch) (r : Role) : Role :=
  { r with name := p.name.getD r.name, prompt := p.prompt.getD r.prompt }

def validate (r : Role) : Except ValidationError Unit := requireText "name" r.name

def entries (r : Role) : List (String × Option Json) :=
  [("id", some (text r.id)), ("name", some (text r.name)), ("prompt", some (text r.prompt))] ++
    timeFields r.createdAt r.updatedAt

def fields (r : Role) : Fields := presentFields r.entries

def fieldNames : List String := ["id", "name", "prompt", "createdAt", "updatedAt"]

def read (row : Row) : Reading Role :=
  Role.mk <$> row.required "id" asText
    <*> row.required "name" asText
    <*> row.orElse "prompt" asText ""
    <*> row.required "createdAt" asStamp
    <*> row.required "updatedAt" asStamp

instance : Record Role where
  Draft := Draft
  Patch := Patch
  entity := "role"
  collection := "roles"
  id := id
  createdAt := createdAt
  updatedAt := updatedAt
  ofDraft := ofDraft
  patch p r := .ok (patched p r)
  touch now r := { r with updatedAt := now }
  validate := validate
  order := fun rs => rs
  fields := fields
  decode := asStruct "AgentRole" fieldNames read
  decEq := inferInstance

end Role

end WorkQueue
