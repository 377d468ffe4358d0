/-!
# Blank characters

The blanks are the characters with the Unicode property `White_Space`. A text is blank when it
holds nothing else; trimming removes blanks at both ends.
-/

namespace WorkQueue.Text

/-- The ranges of code points that have the property `White_Space`. -/
def blankRanges : List (Nat × Nat) :=
  [(0x09, 0x0d), (0x20, 0x20), (0x85, 0x85), (0xa0, 0xa0), (0x1680, 0x1680), (0x2000, 0x200a),
   (0x2028, 0x2029), (0x202f, 0x202f), (0x205f, 0x205f), (0x3000, 0x3000)]

def isBlankChar (c : Char) : Bool :=
  blankRanges.any fun r => r.1 ≤ c.toNat && c.toNat ≤ r.2

def isBlank (s : String) : Bool :=
  s.toList.all isBlankChar

def trimStart (cs : List Char) : List Char :=
  cs.dropWhile isBlankChar

def trimEnd (cs : List Char) : List Char :=
  (cs.reverse.dropWhile isBlankChar).reverse

def trim (s : String) : String :=
  String.ofList (trimEnd (trimStart s.toList))

@[simp] theorem isBlank_empty : isBlank "" = true := rfl

example : isBlankChar '\u3000' ∧ ¬ isBlankChar '\u200b' := by decide

end WorkQueue.Text
