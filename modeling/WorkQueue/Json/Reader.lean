import WorkQueue.Json.Basic

/-!
# Reading JSON text

One pass over the characters. The lexical part of the state says what the current character belongs
to (a text, a number, a word, or what lies between them); the structural part is a stack of the
containers still open and what may come next. At most 127 containers are open at a time, and of two
fields with one key the later one counts.
-/

namespace WorkQueue.Json

open Number

namespace Reader

/-- A container whose end has not been read: the items read so far, last first, or the fields read
so far and the key whose value is being read. -/
inductive Frame where
  | list (items : List Json)
  | object (fields : Fields) (key : String)

/-- What may come next. -/
inductive Place where
  /-- a value -/
  | value
  /-- a value, or the end of the list just opened -/
  | firstItem
  /-- a comma or the end of the list with these items, last first -/
  | afterItem (items : List Json)
  /-- a key, or the end of the object just opened -/
  | firstKey
  | key (fields : Fields)
  | colon (fields : Fields) (key : String)
  /-- a comma or the end of the object with these fields -/
  | afterField (fields : Fields)
  /-- nothing: the value is complete -/
  | finished (j : Json)

/-- What the current character belongs to. -/
inductive Lexeme where
  | between
  /-- the characters so far, last first, and the first half of a surrogate pair -/
  | text (read : List Char) (high : Option Nat)
  | escape (read : List Char) (high : Option Nat)
  /-- the hexadecimal digits of an escape: how many were read, and their value -/
  | unicode (read : List Char) (high : Option Nat) (digits value : Nat)
  | number (read : List Char)
  | word (read : List Char)

structure State where
  stack : List Frame
  place : Place
  lexeme : Lexeme

def State.initial : State := ⟨[], .value, .between⟩

def openLimit : Nat := 127

/-- Where a complete value puts the reader. -/
def afterValue (stack : List Frame) (j : Json) : List Frame × Place :=
  match stack with
  | [] => ([], .finished j)
  | .list items :: stack => (stack, .afterItem (j :: items))
  | .object fields key :: stack => (stack, .afterField (Keyed.insert key j fields))

/-- The stack on which the next value is read, where one may come. -/
def valueStack (stack : List Frame) : Place → Option (List Frame)
  | .value => some stack
  | .firstItem => some (.list [] :: stack)
  | _ => none

def State.between (p : List Frame × Place) : State := ⟨p.1, p.2, .between⟩

def scalar (stack : List Frame) (place : Place) (j : Json) : Option State := do
  let stack ← valueStack stack place
  return .between (afterValue stack j)

/-- Takes a complete text in, as a value or as a key. -/
def textRead (stack : List Frame) (place : Place) (s : String) : Option State :=
  match place with
  | .firstKey => some ⟨stack, .colon [] s, .between⟩
  | .key fields => some ⟨stack, .colon fields s, .between⟩
  | _ => scalar stack place (.text s)

def openContainer (stack : List Frame) (place inside : Place) : Option State := do
  let stack ← valueStack stack place
  if stack.length < openLimit then some ⟨stack, inside, .between⟩ else none

def isNumberChar (c : Char) : Bool :=
  c.isDigit || c == '-' || c == '+' || c == '.' || c == 'e' || c == 'E'

def structural (stack : List Frame) (place : Place) (c : Char) : Option State :=
  if c = ' ' ∨ c = '\n' ∨ c = '\t' ∨ c = '\r' then some ⟨stack, place, .between⟩
  else if c = '"' then some ⟨stack, place, .text [] none⟩
  else if c = '[' then openContainer stack place .firstItem
  else if c = '{' then openContainer stack place .firstKey
  else if c = ']' then
    match place with
    | .firstItem => some (.between (afterValue stack (list [])))
    | .afterItem items => some (.between (afterValue stack (list items.reverse)))
    | _ => none
  else if c = '}' then
    match place with
    | .firstKey => some (.between (afterValue stack (object [])))
    | .afterField fields => some (.between (afterValue stack (object fields)))
    | _ => none
  else if c = ',' then
    match place with
    | .afterItem items => some ⟨.list items :: stack, .value, .between⟩
    | .afterField fields => some ⟨stack, .key fields, .between⟩
    | _ => none
  else if c = ':' then
    match place with
    | .colon fields key => some ⟨.object fields key :: stack, .value, .between⟩
    | _ => none
  else if c.isDigit ∨ c = '-' then some ⟨stack, place, .number [c]⟩
  else if c.isLower then some ⟨stack, place, .word [c]⟩
  else none

def hexValue? (c : Char) : Option Nat :=
  if c.isDigit then some (c.toNat - '0'.toNat)
  else if 'a' ≤ c ∧ c ≤ 'f' then some (c.toNat - 'a'.toNat + 10)
  else if 'A' ≤ c ∧ c ≤ 'F' then some (c.toNat - 'A'.toNat + 10)
  else none

def shortEscape? (c : Char) : Option Char :=
  if c = '"' ∨ c = '\\' ∨ c = '/' then some c
  else if c = 'n' then some '\n'
  else if c = 'r' then some '\r'
  else if c = 't' then some '\t'
  else if c = 'b' then some '\x08'
  else if c = 'f' then some '\x0c'
  else none

/-- What a complete escape of a 16-bit unit adds: a first half waits for its second half, and
neither half stands alone. -/
def unitRead (read : List Char) (high : Option Nat) (unit : Nat) : Option Lexeme :=
  match high with
  | none =>
    if 0xdc00 ≤ unit ∧ unit ≤ 0xdfff then none
    else if 0xd800 ≤ unit ∧ unit < 0xdc00 then some (.text read (some unit))
    else some (.text (Char.ofNat unit :: read) none)
  | some first =>
    if 0xdc00 ≤ unit ∧ unit ≤ 0xdfff then
      some (.text (Char.ofNat (0x10000 + (first - 0xd800) * 0x400 + (unit - 0xdc00)) :: read) none)
    else none

def digitsValue (digits : List Char) : Nat :=
  digits.foldl (fun n c => 10 * n + (c.toNat - '0'.toNat)) 0

/-- Takes digits in as long as the number they make fits 64 bits: the number and the digits left. -/
def takeDigits (n : Nat) : List Char → Nat × List Char
  | [] => (n, [])
  | c :: cs =>
    let next := 10 * n + (c.toNat - '0'.toNat)
    if next < 0x10000000000000000 then takeDigits next cs else (n, c :: cs)

def exponentOf (cs : List Char) : Option Int :=
  let (negative, digits) := match cs with
    | '-' :: ds => (true, ds)
    | '+' :: ds => (false, ds)
    | ds => (false, ds)
  if digits.isEmpty ∨ !digits.all Char.isDigit then none
  else some (if negative then -(digitsValue digits : Int) else digitsValue digits)

/-- A number written with a fraction or an exponent, or too large for an integer. Digits beyond
those that fit 64 bits only scale it. -/
def floatOf (negative : Bool) (whole fraction : List Char) (exponent : Int) : Option Json :=
  let (n, skipped) := takeDigits 0 whole
  let (m, rest) := takeDigits n fraction
  let scale : Int := exponent + skipped.length - (fraction.length - rest.length : Nat)
  (Binary64.ofScaled m scale).map fun x => float { x with negative }

def intInRange (n : Int) : Bool := -0x8000000000000000 ≤ n && n < 0x10000000000000000

/-- A complete number. An integer has no leading zero; minus zero, and one outside 64 bits, is read
as a floating-point number. -/
def numberOf (cs : List Char) : Option Json := do
  let (negative, cs) := match cs with
    | '-' :: r => (true, r)
    | r => (false, r)
  let whole := cs.takeWhile Char.isDigit
  let rest := cs.dropWhile Char.isDigit
  if whole.isEmpty ∨ (whole.head? = some '0' ∧ 1 < whole.length) then none
  let (fraction, rest) ← match rest with
    | '.' :: r =>
      let ds := r.takeWhile Char.isDigit
      if ds.isEmpty then none else pure (ds, r.dropWhile Char.isDigit)
    | r => pure ([], r)
  match rest with
  | [] =>
    let n : Int := if negative then -(digitsValue whole : Int) else digitsValue whole
    if fraction.isEmpty ∧ intInRange n ∧ ¬ (negative ∧ n = 0) then some (int n)
    else floatOf negative whole fraction 0
  | c :: r =>
    if c = 'e' ∨ c = 'E' then floatOf negative whole fraction (← exponentOf r) else none

def wordOf (cs : List Char) : Option Json :=
  if cs = ['t', 'r', 'u', 'e'] then some (bool true)
  else if cs = ['f', 'a', 'l', 's', 'e'] then some (bool false)
  else if cs = ['n', 'u', 'l', 'l'] then some null
  else none

/-- Ends a number or a word, which only the character after it shows. -/
def settle (s : State) : Option State :=
  match s.lexeme with
  | .number read => do scalar s.stack s.place (← numberOf read.reverse)
  | .word read => do scalar s.stack s.place (← wordOf read.reverse)
  | _ => some s

def step (s : State) (c : Char) : Option State :=
  match s.lexeme with
  | .between => structural s.stack s.place c
  | .text read high =>
    if c = '\\' then some { s with lexeme := .escape read high }
    else if high.isSome then none
    else if c = '"' then textRead s.stack s.place (String.ofList read.reverse)
    else if c.toNat < 0x20 then none
    else some { s with lexeme := .text (c :: read) none }
  | .escape read high =>
    if c = 'u' then some { s with lexeme := .unicode read high 0 0 }
    else if high.isSome then none
    else (shortEscape? c).map fun x => { s with lexeme := .text (x :: read) none }
  | .unicode read high digits value => do
    let value := 16 * value + (← hexValue? c)
    if digits + 1 < 4 then some { s with lexeme := .unicode read high (digits + 1) value }
    else (unitRead read high value).map fun l => { s with lexeme := l }
  | .number read =>
    if isNumberChar c then some { s with lexeme := .number (c :: read) }
    else do
      let s ← settle s
      structural s.stack s.place c
  | .word read =>
    if c.isLower then some { s with lexeme := .word (c :: read) }
    else do
      let s ← settle s
      structural s.stack s.place c

def finish (s : State) : Option Json := do
  let s ← settle s
  match s.lexeme, s.place with
  | .between, .finished j => some j
  | _, _ => none

end Reader

def ofChars? (cs : List Char) : Option Json := do
  Reader.finish (← cs.foldlM Reader.step Reader.State.initial)

def ofText? (s : String) : Option Json := ofChars? s.toList

def ofBytes? (bytes : ByteArray) : Option Json := do
  ofText? (← String.fromUTF8? bytes)

end WorkQueue.Json
