import WorkQueue.Time.Stamp
import WorkQueue.Text.Blank

/-!
# Reading timestamps

A date, a separator, a time of day with an optional fraction, and an offset. Blanks may stand
before every number and mark; a year has up to four digits, or a sign and any number of them; the
separator is `T`, `t` or a space; the offset is `Z`, `UTC` or hours and minutes. The instant is
kept in universal time.
-/

namespace WorkQueue.Time

open Text

inductive StampError where
  | tooShort
  | invalid
  | outOfRange
  | trailing
  | impossible
  deriving DecidableEq, Repr

namespace StampError

def message : StampError → String
  | tooShort => "premature end of input"
  | invalid => "input contains invalid characters"
  | outOfRange => "input is out of range"
  | trailing => "trailing input"
  | impossible => "no possible date and time matching input"

end StampError

namespace Stamp

namespace Reader

def digitsValue (cs : List Char) : Nat :=
  cs.foldl (fun n c => 10 * n + (c.toNat - '0'.toNat)) 0

def digits (cs : List Char) : Except StampError (List Char × List Char) :=
  match cs with
  | [] => .error .tooShort
  | c :: _ => if c.isDigit then .ok (cs.takeWhile Char.isDigit, cs.dropWhile Char.isDigit)
    else .error .invalid

/-- A number of one to `width` digits; the digits after it are left. -/
def number (width : Nat) (cs : List Char) : Except StampError (Nat × List Char) := do
  let (ds, rest) ← digits cs
  return (digitsValue (ds.take width), ds.drop width ++ rest)

/-- A number of one to `width` digits after blanks, between the bounds. -/
def field (width low high : Nat) (cs : List Char) : Except StampError (Nat × List Char) := do
  let (n, rest) ← number width (trimStart cs)
  if low ≤ n ∧ n ≤ high then return (n, rest) else .error .outOfRange

def sign (c : Char) : Option Bool :=
  if c = '-' then some true else if c = '+' then some false else none

/-- A year that was read, if a signed 32-bit integer holds it. -/
def boundedYear (n : Int) (rest : List Char) : Except StampError (Int × List Char) :=
  if -0x80000000 ≤ n ∧ n < 0x80000000 then .ok (n, rest) else .error .outOfRange

def year (cs : List Char) : Except StampError (Int × List Char) := do
  let cs := trimStart cs
  match cs.head?.bind sign with
  | some negative =>
    let (ds, rest) ← digits cs.tail
    let n : Int := digitsValue ds
    boundedYear (if negative then -n else n) rest
  | none =>
    let (n, rest) ← number 4 cs
    boundedYear n rest

def mark (m : Char) (cs : List Char) : Except StampError (List Char) :=
  match trimStart cs with
  | [] => .error .tooShort
  | c :: rest => if c = m then .ok rest else .error .invalid

def separator : List Char → Except StampError (List Char)
  | [] => .error .tooShort
  | c :: rest => if c = 'T' ∨ c = 't' ∨ c = ' ' then .ok rest else .error .invalid

/-- A point and digits, of which nine count. -/
def fraction : List Char → Except StampError (Nat × List Char)
  | '.' :: cs => do
    let (ds, rest) ← digits cs
    let used := ds.take 9
    return (digitsValue used * Nat.pow 10 (9 - used.length), rest)
  | cs => .ok (0, cs)

/-- Two digits. A text that ends too early is reported before one that holds something else. -/
def twoDigits : List Char → Except StampError (Nat × List Char)
  | a :: b :: rest =>
    if a.isDigit ∧ b.isDigit then .ok (digitsValue [a, b], rest) else .error .invalid
  | [a] => if a.toNat < 0x80 then .error .tooShort else .error .invalid
  | [] => .error .tooShort

def offsetSign (c : Char) : Option Bool :=
  if c = '\u2212' then some true else sign c

def offset (cs : List Char) : Except StampError (Int × List Char) := do
  match trimStart cs with
  | [] => .error .tooShort
  | c :: rest =>
    if c = 'Z' ∨ c = 'z' then return (0, rest)
    if (c :: rest.take 2).map Char.toUpper = ['U', 'T', 'C'] then return (0, rest.drop 2)
    match offsetSign c with
    | none => .error .invalid
    | some west =>
      let (hours, rest) ← twoDigits rest
      let (minutes, rest) ← twoDigits (rest.dropWhile fun c => c = ':' || isBlankChar c)
      if 60 ≤ minutes then .error .outOfRange
      else
        let seconds : Int := 3600 * hours + 60 * minutes
        return (if west then -seconds else seconds, rest)

end Reader

open Reader in
def ofChars (cs : List Char) : Except StampError Instant := do
  let (year, cs) ← year cs
  let (month, cs) ← field 2 1 12 (← mark '-' cs)
  let (day, cs) ← field 2 1 31 (← mark '-' cs)
  let (hour, cs) ← field 2 0 23 (← separator cs)
  let (minute, cs) ← field 2 0 59 (← mark ':' cs)
  let (second, cs) ← field 2 0 60 (← mark ':' cs)
  let (nano, cs) ← fraction cs
  let (offset, cs) ← offset cs
  if ¬ (trimStart cs).isEmpty then .error .trailing
  else
    let leap := if second = 60 then 1 else 0
    let local? := (Date.of? year month day).bind fun date =>
      of? date (3600 * hour + 60 * minute + (second - leap)) (nano + 1000000000 * leap)
    match local? with
    | none => .error .outOfRange
    | some t =>
      if offset ≤ -86400 ∨ 86400 ≤ offset then .error .outOfRange
      else match t.toStamp.minus? offset with
        | some t => .ok t
        | none => .error .impossible

def ofText (s : String) : Except StampError Instant := ofChars s.toList

end Stamp

end WorkQueue.Time
