import WorkQueue.Record.Basic

/-!
# Settings

The global switches, kept as a collection that holds one record.
-/

namespace WorkQueue

open Json Time

structure Settings where
  id : String
  autorun : Bool
  createdAt : Stamp
  updatedAt : Stamp
  deriving DecidableEq, Repr

namespace Settings

/-- What is set in new settings or changed in old ones. -/
structure Patch where
  autorun : Option Bool := none
  deriving DecidableEq, Repr

def ofDraft (id : String) (now : Stamp) (draft : Patch) : Settings :=
  ⟨id, draft.autorun.getD false, now, now⟩

def patched (p : Patch) (s : Settings) : Settings :=
  { s with autorun := p.autorun.getD s.autorun }

def entries (s : Settings) : List (String × Option Json) :=
  [("id", some (text s.id)), ("autorun", some (bool s.autorun))] ++
    timeFields s.createdAt s.updatedAt

def fields (s : Settings) : Fields := presentFields s.entries

def fieldNames : List String := ["id", "autorun", "createdAt", "updatedAt"]

def read (row : Row) : Reading Settings :=
  Settings.mk <$> row.required "id" asText
    <*> row.orElse "autorun" asBool false
    <*> row.required "createdAt" asStamp
    <*> row.required "updatedAt" asStamp

instance : Record Settings where
  Draft := Patch
  Patch := Patch
  entity := "settings"
  collection := "settings"
  id := id
  createdAt := createdAt
  updatedAt := updatedAt
  ofDraft := ofDraft
  patch p s := .ok (patched p s)
  touch now s := { s with updatedAt := now }
  validate _ := .ok ()
  order := fun ss => ss
  fields := fields
  decode := asStruct "SettingsRecord" fieldNames read
  decEq := inferInstance

end Settings

end WorkQueue
