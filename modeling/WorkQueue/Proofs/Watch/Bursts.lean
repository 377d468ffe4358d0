import Mathlib.Data.List.Basic
import WorkQueue.Watch.Debounce

/-!
# One burst for each quiet time

The calls on a debouncer and what they answered tell which changes are uncounted: those since the
last burst that was taken or cancelled. They determine the debouncer, whatever calls there were: the
latest of them its deadline, and all of them its count, so that the two are in step. Hence a burst
is taken when the window has passed since the latest of its changes and not before, with all of them
and no others in it.
-/

namespace WorkQueue.Watch.Debouncer

/-- A call that was made, with its answer. -/
inductive Entry where
  | pushed (now : Nat)
  | asked (now : Nat) (answer : Option Nat)
  | cancelled

/-- What a debouncer is and which calls were made on it, latest first. -/
inductive History (window : Nat) : Debouncer → List Entry → Prop where
  | new : History window { window } []
  | push {d : Debouncer} {log : List Entry} (h : History window d log) (now : Nat) :
      History window (d.push now) (.pushed now :: log)
  | take {d : Debouncer} {log : List Entry} (h : History window d log) (now : Nat) :
      History window (d.take now).2 (.asked now (d.take now).1 :: log)
  | cancel {d : Debouncer} {log : List Entry} (h : History window d log) :
      History window d.cancel (.cancelled :: log)

namespace Entry

def instant? : Entry → Option Nat
  | pushed now | asked now _ => some now
  | cancelled => none

def push? : Entry → Option Nat
  | pushed now => some now
  | _ => none

end Entry

/-- No call was made at an earlier instant than one before it. -/
def Chronological (log : List Entry) : Prop :=
  (log.filterMap Entry.instant?).Pairwise fun later earlier => earlier ≤ later

/-- All changes, latest first. -/
def changes (log : List Entry) : List Nat := log.filterMap Entry.push?

/-- The changes since the last burst that was taken or cancelled, latest first. -/
def uncounted : List Entry → List Nat
  | [] => []
  | .pushed now :: log => now :: uncounted log
  | .asked _ none :: log => uncounted log
  | .asked _ (some _) :: _ | .cancelled :: _ => []

/-- A burst that is over: its changes, and the count it was taken with unless it was cancelled. -/
structure Ended where
  changes : List Nat
  count? : Option Nat

/-- The bursts that are over, latest first. -/
def ended : List Entry → List Ended
  | [] => []
  | .pushed _ :: log | .asked _ none :: log => ended log
  | .asked _ (some n) :: log => ⟨uncounted log, some n⟩ :: ended log
  | .cancelled :: log => ⟨uncounted log, none⟩ :: ended log

/-- The window has passed since the latest of the changes. -/
def Quiet (window : Nat) (changes : List Nat) (now : Nat) : Prop :=
  ∃ latest ∈ changes, (∀ t ∈ changes, t ≤ latest) ∧ latest + window ≤ now

variable {window now : Nat} {d : Debouncer} {log : List Entry} {ts : List Nat}

/-! ### What the calls tell -/

theorem uncounted_sublist (log : List Entry) :
    (uncounted log).Sublist (log.filterMap Entry.instant?) := by
  induction log with
  | nil => exact .slnil
  | cons entry log ih =>
    match entry with
    | .pushed now => exact ih.cons_cons now
    | .asked now none => exact ih.cons now
    | .asked now (some _) => exact List.nil_sublist _
    | .cancelled => exact List.nil_sublist _

theorem Chronological.uncounted (h : Chronological log) :
    (uncounted log).Pairwise fun later earlier => earlier ≤ later :=
  h.sublist (uncounted_sublist log)

/-- Each change is uncounted or in one of the bursts that are over, and in no two of them. -/
theorem changes_eq (log : List Entry) :
    changes log = uncounted log ++ (ended log).flatMap (·.changes) := by
  induction log with
  | nil => rfl
  | cons entry log ih =>
    match entry with
    | .pushed now => exact congrArg (now :: ·) ih
    | .asked _ none => exact ih
    | .asked _ (some _) => exact ih
    | .cancelled => exact ih

/-! ### What the changes make of a debouncer -/

/-- The debouncer that has these changes to count. -/
def ofChanges (window : Nat) : List Nat → Debouncer
  | [] => { window }
  | t :: ts => { window, deadline? := some (t + window), coalesced := ts.length + 1 }

theorem push_ofChanges (window now : Nat) (ts : List Nat) :
    (ofChanges window ts).push now = ofChanges window (now :: ts) := by
  cases ts <;> rfl

theorem cancel_ofChanges (window : Nat) (ts : List Nat) :
    (ofChanges window ts).cancel = ofChanges window [] := by
  cases ts <;> rfl

theorem isPending_ofChanges : (ofChanges window ts).isPending = true ↔ ts ≠ [] := by
  cases ts <;> simp [ofChanges, isPending]

/-- A burst is taken as a whole, or nothing happens. -/
theorem take_ofChanges (window now : Nat) (ts : List Nat) :
    (∃ t, ts.head? = some t ∧ t + window ≤ now ∧
      (ofChanges window ts).take now = (some ts.length, ofChanges window [])) ∨
    (∀ t, ts.head? = some t → now < t + window) ∧
      (ofChanges window ts).take now = (none, ofChanges window ts) := by
  cases ts with
  | nil => exact Or.inr ⟨fun _ h => (by cases h), rfl⟩
  | cons t ts =>
    unfold take
    by_cases hready : t + window ≤ now
    · exact Or.inl ⟨t, rfl, hready, if_pos hready⟩
    · refine Or.inr ⟨?_, if_neg hready⟩
      rintro _ ⟨⟩
      exact Nat.lt_of_not_le hready

theorem quiet_iff (hts : ts.Pairwise fun later earlier => earlier ≤ later) :
    Quiet window ts now ↔ ∃ t, ts.head? = some t ∧ t + window ≤ now := by
  cases ts with
  | nil => simp [Quiet]
  | cons t ts =>
    obtain ⟨hle, -⟩ := List.pairwise_cons.1 hts
    constructor
    · rintro ⟨latest, -, hlatest, hpassed⟩
      have ht : t ≤ latest := hlatest t List.mem_cons_self
      exact ⟨t, rfl, by omega⟩
    · rintro ⟨_, ⟨⟩, hpassed⟩
      refine ⟨t, List.mem_cons_self, ?_, hpassed⟩
      rintro t' (_ | ⟨_, ht'⟩)
      · exact Nat.le_refl t
      · exact hle t' ht'

/-- Whatever calls were made, the changes that are uncounted determine the debouncer. -/
theorem History.eq_ofChanges (h : History window d log) : d = ofChanges window (uncounted log) := by
  induction h with
  | new => rfl
  | push _ now ih => rw [ih, push_ofChanges, uncounted]
  | @take d log _ now ih =>
    subst ih
    rcases take_ofChanges window now (uncounted log) with ⟨_, -, -, htake⟩ | ⟨-, htake⟩
    · rw [htake, uncounted]
    · rw [htake, uncounted]
  | cancel _ ih => rw [ih, cancel_ofChanges, uncounted]

/-- A deadline is set just while there are changes to count. -/
theorem History.isPending_iff (h : History window d log) :
    d.isPending = true ↔ 0 < d.coalesced := by
  rw [h.eq_ofChanges]
  cases uncounted log <;> simp [ofChanges, isPending]

theorem History.take_cases (h : History window d log) (hclock : Chronological log) (now : Nat) :
    (Quiet window (uncounted log) now ∧ (d.take now).1 = some (uncounted log).length) ∨
    ¬ Quiet window (uncounted log) now ∧ d.take now = (none, d) := by
  rw [quiet_iff hclock.uncounted, h.eq_ofChanges]
  rcases take_ofChanges window now (uncounted log) with ⟨t, ht, hpassed, htake⟩ | ⟨hlate, htake⟩
  · exact Or.inl ⟨⟨t, ht, hpassed⟩, by rw [htake]⟩
  · refine Or.inr ⟨?_, htake⟩
    rintro ⟨t, ht, hpassed⟩
    have hlt := hlate t ht
    omega

/-- A burst that was taken has as many changes as it was taken with, and at least one. -/
theorem History.count_of_ended (h : History window d log) {b : Ended} (hb : b ∈ ended log) {n : Nat}
    (hn : b.count? = some n) : n = b.changes.length ∧ 1 ≤ n := by
  induction h with
  | new => cases hb
  | push _ now ih => exact ih hb
  | @take d log h now ih =>
    rcases take_ofChanges window now (uncounted log) with ⟨t, ht, -, htake⟩ | ⟨-, htake⟩
    · rw [h.eq_ofChanges, htake, ended] at hb
      rcases List.mem_cons.1 hb with rfl | hb
      · obtain rfl := Option.some.inj hn
        exact ⟨rfl, List.length_pos_of_mem (List.mem_of_mem_head? ht)⟩
      · exact ih hb
    · rw [h.eq_ofChanges, htake, ended] at hb
      exact ih hb
  | cancel h ih =>
    rcases List.mem_cons.1 hb with rfl | hb
    · cases hn
    · exact ih hb

/-- A call to take a burst answers with a count exactly when the window has passed since the latest
of the changes since the last burst that was taken or cancelled, if there is one, and it counts just
those; otherwise it does nothing. Each change is in one burst that was taken, with as many changes
as it was counted with, or in one that was cancelled, or it is uncounted, and it is pending then. -/
theorem fires_once_per_quiet_burst (h : History window d log) (hclock : Chronological log) :
    (∀ now n, (d.take now).1 = some n ↔
      Quiet window (uncounted log) now ∧ n = (uncounted log).length) ∧
    (∀ now, (d.take now).1 = none → (d.take now).2 = d) ∧
    (d.isPending = true ↔ uncounted log ≠ []) ∧
    changes log = uncounted log ++ (ended log).flatMap (·.changes) ∧
    ∀ b ∈ ended log, ∀ n, b.count? = some n → n = b.changes.length ∧ 1 ≤ n := by
  refine ⟨?_, ?_, ?_, changes_eq log, fun b hb n hn => h.count_of_ended hb hn⟩
  · intro now n
    rcases h.take_cases hclock now with ⟨hquiet, htake⟩ | ⟨hquiet, htake⟩
    · simp [htake, hquiet, eq_comm]
    · simp [htake, hquiet]
  · intro now hnone
    rcases h.take_cases hclock now with ⟨-, htake⟩ | ⟨-, htake⟩
    · cases htake.symm.trans hnone
    · rw [htake]
  · rw [h.eq_ofChanges, isPending_ofChanges]

/-- A change is cancelled, and three make one burst. It is ready when the window has passed since
the last of them. -/
theorem fires_once_per_quiet_burst_of_three : ∃ (d : Debouncer) (log : List Entry),
    History 100 d log ∧ Chronological log ∧ changes log = [80, 40, 20, 0] ∧
    uncounted log = [80, 40, 20] ∧ d.isPending = true ∧ (d.take 179).1 = none ∧
    (d.take 180).1 = some 3 := by
  let log : List Entry :=
    [.asked 130 none, .pushed 80, .pushed 40, .pushed 20, .cancelled, .pushed 0]
  have h : History 100 ⟨100, some 180, 3⟩ log :=
    ((((History.new.push 0).cancel.push 20).push 40).push 80).take 130
  have hclock : Chronological log :=
    show [130, 80, 40, 20, 0].Pairwise (fun later earlier => earlier ≤ later) by decide
  obtain ⟨htake, -, hpending, -⟩ := fires_once_per_quiet_burst h hclock
  have hquiet (now : Nat) : Quiet 100 (uncounted log) now ↔ 180 ≤ now := by
    rw [quiet_iff hclock.uncounted]
    simp [log, uncounted]
  refine ⟨_, log, h, hclock, rfl, rfl, hpending.2 (by simp [log, uncounted]), ?_, ?_⟩
  · apply Option.eq_none_iff_forall_ne_some.2
    intro n hn
    have hlate := (hquiet 179).1 ((htake 179 n).1 hn).1
    omega
  · exact (htake 180 3).2 ⟨(hquiet 180).2 (Nat.le_refl 180), rfl⟩

end WorkQueue.Watch.Debouncer
