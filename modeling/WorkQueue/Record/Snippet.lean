import WorkQueue.Record.Basic

/-!
# Snippets

Prompts saved under a name for reuse. They are kept as the entity `command`.
-/

namespace WorkQueue

open Json Time

structure Snippet where
  id : String
  name : String
  content : String
  createdAt : Stamp
  updatedAt : Stamp
  deriving DecidableEq, Repr

namespace Snippet

structure Draft where
  name : String := ""
  content : String := ""
  deriving DecidableEq, Repr

structure Patch where
  name : Option String := none
  content : Option String := none
  deriving DecidableEq, Repr

def ofDraft (id : String) (now : Stamp) (draft : Draft) : Snippet :=
  ⟨id, draft.name, draft.content, now, now⟩

def patched (p : Patch) (s : Snippet) : Snippet :=
  { s with name := p.name.getD s.name, content := p.content.getD s.content }

def validate (s : Snippet) : Except ValidationError Unit := do
  requireText "name" s.name
  requireText "content" s.content

def entries (s : Snippet) : List (String × Option Json) :=
  [("id", some (text s.id)), ("name", some (text s.name)), ("content", some (text s.content))] ++
    timeFields s.createdAt s.updatedAt

def fields (s : Snippet) : Fields := presentFields s.entries

def fieldNames : List String := ["id", "name", "content", "createdAt", "updatedAt"]

def read (row : Row) : Reading Snippet :=
  Snippet.mk <$> row.required "id" asText
    <*> row.required "name" asText
    <*> row.required "content" asText
    <*> row.required "createdAt" asStamp
    <*> row.required "updatedAt" asStamp

instance : Record Snippet where
  Draft := Draft
  Patch := Patch
  entity := "command"
  collection := "commands"
  id := id
  createdAt := createdAt
  updatedAt := updatedAt
  ofDraft := ofDraft
  patch p s := .ok (patched p s)
  touch now s := { s with updatedAt := now }
  validate := validate
  order := fun ss => ss
  fields := fields
  decode := asStruct "SavedCommand" fieldNames read
  decEq := inferInstance

end Snippet

end WorkQueue
