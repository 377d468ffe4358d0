/-!
# Writing TOML texts

A text is written in the style in which it needs the fewest escapes: between triple quotes when it
has several lines, and as a literal when it has quotes or backslashes and can be one.
-/

namespace WorkQueue.Toml

namespace Writer

def isControl (c : Char) : Bool := c.toNat < 0x20 || c.toNat = 0x7f

def hasThreeMarks : List Char → Bool
  | '\'' :: '\'' :: '\'' :: _ => true
  | _ :: cs => hasThreeMarks cs
  | [] => false

/-- Whether a text can be a literal and gains by it. -/
def prefersLiteral (cs : List Char) : Bool :=
  (cs.contains '"' || cs.contains '\\') &&
    cs.all (fun c => c == '\t' || c == '\n' || !isControl c) &&
    !hasThreeMarks cs && cs.getLast? != some '\''

def hexDigits4 (n : Nat) : List Char :=
  let ds := (Nat.toDigits 16 n).map Char.toUpper
  List.replicate (4 - ds.length) '0' ++ ds

/-- A character of a text between quotes; `multiline` texts keep their line feeds. -/
def escapeChar (multiline : Bool) (c : Char) : List Char :=
  if c = '\x08' then ['\\', 'b']
  else if c = '\t' then ['\\', 't']
  else if c = '\n' then (if multiline then [c] else ['\\', 'n'])
  else if c = '\x0c' then ['\\', 'f']
  else if c = '\r' then ['\\', 'r']
  else if c = '"' then ['\\', '"']
  else if c = '\\' then ['\\', '\\']
  else if isControl c then ['\\', 'u'] ++ hexDigits4 c.toNat
  else [c]

end Writer

open Writer

def textValue (s : String) : String :=
  let cs := s.toList
  let multiline := cs.contains '\n'
  if prefersLiteral cs then
    if multiline then "'''\n" ++ s ++ "'''"
    else if cs.contains '\'' then "'''" ++ s ++ "'''"
    else "'" ++ s ++ "'"
  else
    let body := String.ofList (cs.flatMap (escapeChar multiline))
    if multiline then "\"\"\"\n" ++ body ++ "\"\"\"" else "\"" ++ body ++ "\""

end WorkQueue.Toml
