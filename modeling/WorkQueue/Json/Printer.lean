import WorkQueue.Json.Basic

/-!
# JSON text

Two layouts of the same value: compact, without any blanks, and indented by two spaces a level.
Only quotes, backslashes and control characters are escaped.
-/

namespace WorkQueue.Json

open Number

def hexDigit (n : Nat) : Char := Nat.digitChar n

def escapeChar (c : Char) : List Char :=
  if c = '"' then ['\\', '"']
  else if c = '\\' then ['\\', '\\']
  else if c = '\n' then ['\\', 'n']
  else if c = '\r' then ['\\', 'r']
  else if c = '\t' then ['\\', 't']
  else if c = '\x08' then ['\\', 'b']
  else if c = '\x0c' then ['\\', 'f']
  else if c.toNat < 0x20 then
    ['\\', 'u', '0', '0', hexDigit (c.toNat / 16), hexDigit (c.toNat % 16)]
  else [c]

def quotedChars (s : String) : List Char :=
  '"' :: (s.toList.flatMap escapeChar ++ ['"'])

def intChars (n : Int) : List Char :=
  if n < 0 then '-' :: Nat.toDigits 10 n.natAbs else Nat.toDigits 10 n.natAbs

mutual

def compactChars : Json → List Char
  | null => ['n', 'u', 'l', 'l']
  | bool true => ['t', 'r', 'u', 'e']
  | bool false => ['f', 'a', 'l', 's', 'e']
  | int n => intChars n
  | float x => x.text.toList
  | text s => quotedChars s
  | list [] => ['[', ']']
  | list (j :: items) => '[' :: (compactChars j ++ compactItems items)
  | object [] => ['{', '}']
  | object ((k, v) :: fields) =>
    '{' :: (quotedChars k ++ ':' :: (compactChars v ++ compactFields fields))

def compactItems : List Json → List Char
  | [] => [']']
  | j :: items => ',' :: (compactChars j ++ compactItems items)

def compactFields : Fields → List Char
  | [] => ['}']
  | (k, v) :: fields => ',' :: (quotedChars k ++ ':' :: (compactChars v ++ compactFields fields))

end

def compact (j : Json) : String :=
  String.ofList (compactChars j)

def newLine (depth : Nat) : List Char :=
  '\n' :: List.replicate (2 * depth) ' '

mutual

def indentedChars (depth : Nat) : Json → List Char
  | null => ['n', 'u', 'l', 'l']
  | bool true => ['t', 'r', 'u', 'e']
  | bool false => ['f', 'a', 'l', 's', 'e']
  | int n => intChars n
  | float x => x.text.toList
  | text s => quotedChars s
  | list [] => ['[', ']']
  | list (j :: items) =>
    '[' :: (newLine (depth + 1) ++ (indentedChars (depth + 1) j ++ indentedItems depth items))
  | object [] => ['{', '}']
  | object ((k, v) :: fields) =>
    '{' :: (newLine (depth + 1) ++ (quotedChars k ++ ':' :: ' ' ::
      (indentedChars (depth + 1) v ++ indentedFields depth fields)))

def indentedItems (depth : Nat) : List Json → List Char
  | [] => newLine depth ++ [']']
  | j :: items =>
    ',' :: (newLine (depth + 1) ++ (indentedChars (depth + 1) j ++ indentedItems depth items))

def indentedFields (depth : Nat) : Fields → List Char
  | [] => newLine depth ++ ['}']
  | (k, v) :: fields =>
    ',' :: (newLine (depth + 1) ++ (quotedChars k ++ ':' :: ' ' ::
      (indentedChars (depth + 1) v ++ indentedFields depth fields)))

end

def indented (j : Json) : String :=
  String.ofList (indentedChars 0 j)

end WorkQueue.Json
