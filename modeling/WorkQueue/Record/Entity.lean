import WorkQueue.Record.Role
import WorkQueue.Record.Session
import WorkQueue.Record.Settings
import WorkQueue.Record.Snippet
import WorkQueue.Work.Basic

/-!
# Entities

The five kinds of record, and tables with one entry for each of them.
-/

namespace WorkQueue

inductive Entity where
  | work
  | role
  | command
  | session
  | settings
  deriving DecidableEq, Repr

namespace Entity

@[reducible] def Rec : Entity → Type
  | work => Work
  | role => Role
  | command => Snippet
  | session => Session
  | settings => Settings

instance : (e : Entity) → Record e.Rec
  | work => inferInstanceAs (Record Work)
  | role => inferInstanceAs (Record Role)
  | command => inferInstanceAs (Record Snippet)
  | session => inferInstanceAs (Record Session)
  | settings => inferInstanceAs (Record Settings)

/-- The order in which a data directory is opened. -/
def all : List Entity := [work, role, command, session, settings]

def name (e : Entity) : String := Record.entity e.Rec

def ofName? (s : String) : Option Entity := all.find? fun e => e.name == s

end Entity

structure PerEntity (F : Entity → Type) where
  work : F .work
  role : F .role
  command : F .command
  session : F .session
  settings : F .settings

namespace PerEntity

variable {F : Entity → Type}

def get (t : PerEntity F) : (e : Entity) → F e
  | .work => t.work
  | .role => t.role
  | .command => t.command
  | .session => t.session
  | .settings => t.settings

def set (t : PerEntity F) : (e : Entity) → F e → PerEntity F
  | .work, x => { t with work := x }
  | .role, x => { t with role := x }
  | .command, x => { t with command := x }
  | .session, x => { t with session := x }
  | .settings, x => { t with settings := x }

def const (x : (e : Entity) → F e) : PerEntity F :=
  ⟨x .work, x .role, x .command, x .session, x .settings⟩

@[simp] theorem get_set (t : PerEntity F) (e : Entity) (x : F e) : (t.set e x).get e = x := by
  cases e <;> rfl

theorem get_set_of_ne (t : PerEntity F) {e e' : Entity} (x : F e) (h : e' ≠ e) :
    (t.set e x).get e' = t.get e' := by
  cases e <;> cases e' <;> first | rfl | exact absurd rfl h

end PerEntity

end WorkQueue
