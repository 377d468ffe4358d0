import WorkQueue.Record.Basic

/-!
# Sessions

Chat sessions of coding agents. The caller chooses the identity of a session.
-/

namespace WorkQueue

open Json Time

structure Session where
  id : String
  title : String
  createdAt : Stamp
  updatedAt : Stamp
  deriving DecidableEq, Repr

namespace Session

structure Draft where
  title : String := ""
  deriving DecidableEq, Repr

structure Patch where
  title : Option String := none
  deriving DecidableEq, Repr

def ofDraft (id : String) (now : Stamp) (draft : Draft) : Session :=
  ⟨id, draft.title, now, now⟩

def patched (p : Patch) (s : Session) : Session :=
  { s with title := p.title.getD s.title }

def entries (s : Session) : List (String × Option Json) :=
  [("id", some (text s.id)), ("title", some (text s.title))] ++
    timeFields s.createdAt s.updatedAt

def fields (s : Session) : Fields := presentFields s.entries

def fieldNames : List String := ["id", "title", "createdAt", "updatedAt"]

def read (row : Row) : Reading Session :=
  Session.mk <$> row.required "id" asText
    <*> row.orElse "title" asText ""
    <*> row.required "createdAt" asStamp
    <*> row.required "updatedAt" asStamp

instance : Record Session where
  Draft := Draft
  Patch := Patch
  entity := "session"
  collection := "sessions"
  id := id
  createdAt := createdAt
  updatedAt := updatedAt
  ofDraft := ofDraft
  patch p s := .ok (patched p s)
  touch now s := { s with updatedAt := now }
  validate _ := .ok ()
  order := fun ss => ss
  fields := fields
  decode := asStruct "SessionRecord" fieldNames read
  decEq := inferInstance

end Session

end WorkQueue
