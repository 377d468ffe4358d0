import WorkQueue.Proofs.Disk.Permits
import WorkQueue.Store.Index

/-!
# Refused steps of an index

A step of an index fails with what the system said and what was attempted. What the system permits
from some moment on, it still permits after every step, read and write of an index.
-/

namespace WorkQueue

namespace Index

open Disk

variable {i : Index} {d₀ : Disk}

theorem leads_attempt {α : Type} (context : String) (a : Disk.Act α) {d : Disk}
    {done : α → Disk → Prop} {failed : StoreError → Disk → Prop} :
    Leads (attempt context a) d done failed ↔
      Leads a d done fun fault => failed (.io context fault) := by
  unfold Leads attempt
  cases a d <;> rfl

theorem keeps_attempt {α : Type} (context : String) {a : Disk.Act α}
    (h : Keeps d₀.Lenient a) : Keeps d₀.Lenient (attempt context a) := by
  intro d hd
  rw [leads_attempt]
  exact h d hd

theorem keeps_ensureDir : Keeps d₀.Lenient i.ensureDir :=
  keeps_attempt _ (keeps_makePrivateDir _)

theorem keeps_takeLock (context : String) :
    Keeps d₀.Lenient (attempt context (openLock i.lock.path)) :=
  keeps_attempt _ (keeps_openLock _)

theorem keeps_moveIntoPlace : Keeps d₀.Lenient i.moveIntoPlace := by
  apply (keeps_rename _ _).tryCatch
  intro fault
  apply Keeps.bind
  · exact (keeps_remove _).tryCatch fun _ => keeps_pure _
  · exact fun _ => keeps_throw _

theorem keeps_step (step : Step) : Keeps d₀.Lenient (step.run i) := by
  cases step <;> apply keeps_attempt
  case makeDir => exact keeps_makePrivateDir _
  case lock => exact keeps_openLock _
  case openTemp => exact keeps_openEmpty _ _
  case fill content => exact keeps_write _ _
  case sync => exact keeps_permit _ _
  case rename => exact keeps_moveIntoPlace
  case restrict => exact keeps_setMode _ _

variable {R : Type} [Record R]

theorem keeps_indexRead : Keeps d₀.Lenient (Index.read (R := R) i) := by
  apply keeps_ensureDir.bind
  intro _
  apply (keeps_takeLock _).bind
  intro _
  apply Keeps.bind
  · apply keeps_attempt
    apply ((keeps_read _).bind fun _ => keeps_pure _).tryCatch
    intro fault
    split
    · exact keeps_pure _
    · exact keeps_throw _
  · intro content?
    cases content? with
    | none => exact keeps_pure _
    | some content =>
      dsimp only
      split
      · exact keeps_pure _
      · exact keeps_throw _

theorem keeps_indexWrite (records : List R) : Keeps d₀.Lenient (i.write records) := by
  apply (keeps_ofExcept _).bind
  intro content
  apply Keeps.bind
  · exact keeps_forM fun step _ => keeps_step step
  · exact fun _ => keeps_pure _

end Index

end WorkQueue
