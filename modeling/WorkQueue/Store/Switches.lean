import WorkQueue.Record.Settings
import WorkQueue.Store.Basic

/-!
# Autorun on and off

The settings are the first record of their store, whatever its id; without a record autorun is
off.
-/

namespace WorkQueue.Settings

/-- The id of the record that is made when there is none. -/
def globalId : String := "global"

def autorunOn (s : Store Settings) : Bool := (s.list.head?.map (·.autorun)).getD false

def setAutorun (on : Bool) : StoreM Settings Settings := do
  match (← get).store.list.head? with
  | some existing => Store.update existing.id (⟨some on⟩ : Patch)
  | none => Store.create globalId (⟨some on⟩ : Patch)

end WorkQueue.Settings
