import WorkQueue.Text.Hidden

/-!
# Text quoted for messages

A text named in a message stands between quotes, with quotes, backslashes and characters that
cannot be shown escaped.
-/

namespace WorkQueue.Text

def hexText (n : Nat) : List Char := Nat.toDigits 16 n

def quoteChar (c : Char) : List Char :=
  if c = '"' then ['\\', '"']
  else if c = '\\' then ['\\', '\\']
  else if c = '\n' then ['\\', 'n']
  else if c = '\r' then ['\\', 'r']
  else if c = '\t' then ['\\', 't']
  else if c = '\x00' then ['\\', '0']
  else if isHidden c then ['\\', 'u', '\x7b'] ++ hexText c.toNat ++ ['\x7d']
  else [c]

def quoted (s : String) : String :=
  String.ofList ('"' :: (s.toList.flatMap quoteChar ++ ['"']))

/-- The text between grave accents, as names and values stand in messages. -/
def ticked (s : String) : String :=
  "\x60" ++ s ++ "\x60"

end WorkQueue.Text
