/-!
# Columns and lines

Text is laid out in columns counted in characters: a short text is filled up with spaces, a long
one is kept whole.
-/

namespace WorkQueue.Text

def padRight (width : Nat) (s : String) : String :=
  s ++ String.ofList (List.replicate (width - s.length) ' ')

def padLeft (width : Nat) (s : String) : String :=
  String.ofList (List.replicate (width - s.length) ' ') ++ s

/-- A number in decimal with at least `width` digits. -/
def zeroPadded (width n : Nat) : String :=
  let digits := Nat.toDigits 10 n
  String.ofList (List.replicate (width - digits.length) '0' ++ digits)

/-- The text before the first line feed, without a carriage return right before it. -/
def firstLine (s : String) : String :=
  let line := s.toList.takeWhile (· ≠ '\n')
  if line.length = s.toList.length then s
  else if line.getLast? = some '\r' then String.ofList line.dropLast
  else String.ofList line

example : padLeft 4 "7" = "   7" ∧ padRight 3 "abcd" = "abcd" := by decide

end WorkQueue.Text
