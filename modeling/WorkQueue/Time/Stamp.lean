import WorkQueue.Time.Calendar
import WorkQueue.Text.Layout

/-!
# Timestamps

Times of day in universal time with nanoseconds. A thousand million nanoseconds or more make a leap
second, which belongs at the end of a minute. A stamp may hold them at any second, as one does whose
nanoseconds were set by themselves; an instant, as a clock tells it and as it is read from a text,
holds them only there. The written form has zero, three, six or nine decimals, whichever is the
shortest that is exact.
-/

namespace WorkQueue.Time

open Text

structure Stamp where
  date : Date
  /-- seconds since midnight -/
  second : Nat
  nano : Nat
  second_lt : second < 86400
  nano_lt : nano < 2000000000
  deriving DecidableEq, Repr

/-- The nanoseconds make less than a second, or a leap second at the end of a minute. -/
def Stamp.Regular (t : Stamp) : Prop := t.nano < 1000000000 ∨ t.second % 60 = 59

instance (t : Stamp) : Decidable t.Regular := inferInstanceAs (Decidable (_ ∨ _))

structure Instant extends Stamp where
  regular : toStamp.Regular
  deriving DecidableEq, Repr

namespace Stamp

def of? (date : Date) (second nano : Nat) : Option Instant :=
  if h : second < 86400 ∧ (nano < 1000000000 ∨ (nano < 2000000000 ∧ second % 60 = 59)) then
    some ⟨⟨date, second, nano, h.1, by omega⟩, h.2.imp_right And.right⟩
  else none

def epoch : Stamp := ⟨⟨1970, 1, 1, by decide, by decide, by decide⟩, 0, 0, by decide, by decide⟩

instance : Inhabited Stamp := ⟨epoch⟩

/-- The instant `seconds` and `nano` after 1970-01-01T00:00:00Z. -/
def ofUnix? (seconds : Int) (nano : Nat) : Option Instant := do
  let date ← Date.ofUnixDay? (seconds.fdiv 86400)
  of? date (seconds.fmod 86400).toNat nano

/-- The same time of day `offset` seconds earlier, within a day. -/
def minus? (t : Stamp) (offset : Int) : Option Instant := do
  let s : Int := t.second - offset
  if s < 0 then of? (← t.date.previous?) (s + 86400).toNat t.nano
  else if 86400 ≤ s then of? (← t.date.next?) (s - 86400).toNat t.nano
  else of? t.date s.toNat t.nano

/-- Four digits, or a sign and at least four digits outside the years 0 to 9999. -/
def yearText (year : Int) : String :=
  if 0 ≤ year ∧ year ≤ 9999 then zeroPadded 4 year.toNat
  else (if year < 0 then "-" else "+") ++ zeroPadded 4 year.natAbs

def dateText (d : Date) : String :=
  yearText d.year ++ "-" ++ zeroPadded 2 d.month ++ "-" ++ zeroPadded 2 d.day

def fractionText (nano : Nat) : String :=
  if nano = 0 then ""
  else if nano % 1000000 = 0 then "." ++ zeroPadded 3 (nano / 1000000)
  else if nano % 1000 = 0 then "." ++ zeroPadded 6 (nano / 1000)
  else "." ++ zeroPadded 9 nano

def hourMinuteText (t : Stamp) : String :=
  zeroPadded 2 (t.second / 3600) ++ ":" ++ zeroPadded 2 (t.second / 60 % 60)

/-- The written form, as in `2024-01-02T03:04:05.250Z`. -/
def text (t : Stamp) : String :=
  dateText t.date ++ "T" ++ t.hourMinuteText ++ ":" ++
    zeroPadded 2 (t.second % 60 + t.nano / 1000000000) ++
    fractionText (t.nano % 1000000000) ++ "Z"

/-- Date, hour and minute, as listings show them. -/
def shortText (t : Stamp) : String :=
  dateText t.date ++ " " ++ t.hourMinuteText

end Stamp

def Instant.epoch : Instant := ⟨.epoch, by decide⟩

end WorkQueue.Time
