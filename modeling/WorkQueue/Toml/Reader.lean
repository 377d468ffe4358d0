import WorkQueue.Number.Binary64
import WorkQueue.Time.Calendar
import WorkQueue.Toml.Value

/-!
# Reading TOML

Lines of keys with values, under headers of tables. Containers are nested less than 80 deep, and a
key has fewer than 80 parts. Each reader answers what it read and the characters after it.
-/

namespace WorkQueue.Toml

open Number

namespace Reader

def nestingLimit : Nat := 80

def isSpace (c : Char) : Bool := c == ' ' || c == '\t'

/-- Characters that may stand in comments and, delimiters apart, in texts. -/
def isPlain (c : Char) : Bool := c == '\t' || (0x20 ≤ c.toNat && c.toNat != 0x7f)

def skipSpace (cs : List Char) : List Char := cs.dropWhile isSpace

def newLine? : List Char → Option (List Char)
  | '\n' :: rest => some rest
  | '\r' :: '\n' :: rest => some rest
  | _ => none

def skipComment : List Char → List Char
  | '#' :: rest => rest.dropWhile isPlain
  | cs => cs

def endOfLine (cs : List Char) : Option (List Char) :=
  match skipComment (skipSpace cs) with
  | [] => some []
  | rest => newLine? rest

/-- Blanks, comments and line ends, as they may stand between the items of a list. -/
def skipFill : Nat → List Char → List Char
  | 0, cs => cs
  | n + 1, cs =>
    let cs := skipComment (skipSpace cs)
    match newLine? cs with
    | some rest => skipFill n rest
    | none => cs

def skipBlankLines : Nat → List Char → List Char
  | 0, cs => cs
  | n + 1, cs =>
    let cs := skipSpace cs
    match newLine? cs with
    | some rest => skipBlankLines n rest
    | none => cs

/-! ### Texts -/

def hexValue? (c : Char) : Option Nat :=
  if c.isDigit then some (c.toNat - '0'.toNat)
  else if 'a' ≤ c ∧ c ≤ 'f' then some (c.toNat - 'a'.toNat + 10)
  else if 'A' ≤ c ∧ c ≤ 'F' then some (c.toNat - 'A'.toNat + 10)
  else none

/-- The character with the code point that `digits` hexadecimal digits give. -/
def codePoint (digits : Nat) (cs : List Char) : Option Char := do
  let ds := cs.take digits
  if ds.length < digits then none
  let n ← ds.foldlM (fun n c => return 16 * n + (← hexValue? c)) 0
  if h : n.isValidChar then some (Char.ofNatAux n h) else none

def shortEscape? (c : Char) : Option Char :=
  if c = '"' ∨ c = '\\' then some c
  else if c = 'b' then some '\x08'
  else if c = 't' then some '\t'
  else if c = 'n' then some '\n'
  else if c = 'f' then some '\x0c'
  else if c = 'r' then some '\r'
  else none

def escape : List Char → Option (Char × List Char)
  | 'u' :: rest => do return (← codePoint 4 rest, rest.drop 4)
  | 'U' :: rest => do return (← codePoint 8 rest, rest.drop 8)
  | c :: rest => do return (← shortEscape? c, rest)
  | [] => none

/-- The rest of a text between quotes. -/
def basicText (n : Nat) (read : List Char) (cs : List Char) : Option (String × List Char) :=
  match n, cs with
  | 0, _ | _, [] => none
  | n + 1, c :: rest =>
    if c = '"' then some (String.ofList read.reverse, rest)
    else if c = '\\' then do
      let (x, rest) ← escape rest
      basicText n (x :: read) rest
    else if isPlain c then basicText n (c :: read) rest
    else none

def literalText (cs : List Char) : Option (String × List Char) :=
  let body := cs.takeWhile fun c => isPlain c && c != '\''
  match cs.drop body.length with
  | '\'' :: rest => some (String.ofList body, rest)
  | _ => none

/-- The end of a text between triple quotes: up to two quotes may stand right before it. -/
def tripleEnd (quote : Char) (read : List Char) (cs : List Char) : Option (String × List Char) :=
  let quotes := (cs.takeWhile (· = quote)).length
  if quotes < 3 then none
  else
    let kept := min (quotes - 3) 2
    some (String.ofList (List.replicate kept quote ++ read).reverse, cs.drop (kept + 3))

/-- The rest of a text between triple quotes; with `escapes`, a backslash at the end of a line
takes in the blanks that follow. -/
def tripleText (quote : Char) (escapes : Bool) (n : Nat) (read : List Char) (cs : List Char) :
    Option (String × List Char) :=
  match n, cs with
  | 0, _ | _, [] => none
  | n + 1, c :: rest =>
    if c = quote then
      match tripleEnd quote read (c :: rest) with
      | some r => some r
      | none => tripleText quote escapes n (c :: read) rest
    else if escapes && c == '\\' then
      match newLine? (skipSpace rest) with
      | some rest => tripleText quote escapes n read (skipBlankLines rest.length rest)
      | none => do
        let (x, rest) ← escape rest
        tripleText quote escapes n (x :: read) rest
    else match newLine? (c :: rest) with
      | some rest => tripleText quote escapes n ('\n' :: read) rest
      | none => if isPlain c then tripleText quote escapes n (c :: read) rest else none

def skipFirstLineEnd (cs : List Char) : List Char := (newLine? cs).getD cs

def text (cs : List Char) : Option (String × List Char) :=
  match cs with
  | '"' :: '"' :: '"' :: rest => tripleText '"' true (rest.length + 1) [] (skipFirstLineEnd rest)
  | '\'' :: '\'' :: '\'' :: rest =>
    tripleText '\'' false (rest.length + 1) [] (skipFirstLineEnd rest)
  | '"' :: rest => basicText (rest.length + 1) [] rest
  | '\'' :: rest => literalText rest
  | _ => none

/-! ### Keys -/

def isBareKey (c : Char) : Bool := c.isAlphanum || c == '_' || c == '-'

def simpleKey (cs : List Char) : Option (String × List Char) :=
  match cs with
  | '"' :: rest => basicText (rest.length + 1) [] rest
  | '\'' :: rest => literalText rest
  | _ =>
    let bare := cs.takeWhile isBareKey
    if bare.isEmpty then none else some (String.ofList bare, cs.drop bare.length)

def keyParts : Nat → List Char → Option (List String × List Char)
  | 0, _ => none
  | n + 1, cs => do
    let (k, rest) ← simpleKey (skipSpace cs)
    match skipSpace rest with
    | '.' :: rest =>
      let (ks, rest) ← keyParts n rest
      return (k :: ks, rest)
    | rest => return ([k], rest)

/-- A key of fewer parts than the limit, and the blanks around it. -/
def key (cs : List Char) : Option (List String × List Char) := keyParts (nestingLimit - 1) cs

/-! ### Numbers, dates and words -/

def isTokenChar (c : Char) : Bool :=
  c.isAlphanum || c == '_' || c == '+' || c == '-' || c == '.' || c == ':'

/-- Digits that may have single underscores between them. -/
def digitsOf (isDigit : Char → Bool) : List Char → Option (List Char)
  | [] => none
  | c :: cs => if isDigit c then (c :: ·) <$> go cs else none
where
  go : List Char → Option (List Char)
    | [] => some []
    | '_' :: c :: cs => if isDigit c then (c :: ·) <$> go cs else none
    | c :: cs => if isDigit c then (c :: ·) <$> go cs else none

def valueIn (base : Nat) (ds : List Char) : Nat :=
  ds.foldl (fun n c => base * n + (hexValue? c).getD 0) 0

def sign : List Char → Bool × List Char
  | '-' :: cs => (true, cs)
  | '+' :: cs => (false, cs)
  | cs => (false, cs)

def wholeOf (cs : List Char) : Option (List Char) := do
  let ds ← digitsOf Char.isDigit cs
  if ds.head? = some '0' ∧ 1 < cs.length then none else some ds

def basedOf : List Char → Option (Nat × List Char)
  | '0' :: 'x' :: cs => do return (16, ← digitsOf (fun c => (hexValue? c).isSome) cs)
  | '0' :: 'o' :: cs => do return (8, ← digitsOf (fun c => '0' ≤ c && c ≤ '7') cs)
  | '0' :: 'b' :: cs => do return (2, ← digitsOf (fun c => c == '0' || c == '1') cs)
  | _ => none

/-- An integer of a signed 64-bit word. -/
def intOf (token : List Char) : Option Int := do
  let n : Int ← match basedOf token with
    | some (base, ds) => some ((valueIn base ds : Nat) : Int)
    | none =>
      let (negative, cs) := sign token
      let ds ← wholeOf cs
      some (if negative then -(valueIn 10 ds : Int) else valueIn 10 ds)
  if -0x8000000000000000 ≤ n ∧ n < 0x8000000000000000 then some n else none

/-- Whether a magnitude is too large to be a finite number. -/
def overflows (ds : List Char) (exponent : Int) : Bool :=
  let ds := ds.dropWhile (· = '0')
  let top : Int := exponent + ds.length
  if ds.isEmpty ∨ top < 300 then false
  else if 400 < top then true
  else
    let n := valueIn 10 ds
    (if 0 ≤ exponent then Binary64.nearest false (n * Nat.pow 10 exponent.toNat) 1
      else Binary64.nearest false n (Nat.pow 10 (-exponent).toNat)).isNone

def exponentOf (cs : List Char) : Option Int := do
  let (negative, cs) := sign cs
  let ds ← digitsOf Char.isDigit cs
  return if negative then -(valueIn 10 ds : Int) else valueIn 10 ds

def isExponentMark (c : Char) : Bool := c == 'e' || c == 'E'

/-- Whether a token is a floating-point number; a positive one must be finite. -/
def isFloat (token : List Char) : Bool :=
  let (negative, cs) := sign token
  if cs = ['i', 'n', 'f'] ∨ cs = ['n', 'a', 'n'] then true
  else
    let mantissa := cs.takeWhile fun c => !isExponentMark c
    let tail := cs.drop mantissa.length
    let whole := mantissa.takeWhile (· ≠ '.')
    let point := mantissa.drop whole.length
    let checked : Option Bool := do
      let ds ← wholeOf whole
      let fraction ← match point with
        | [] => some []
        | _ :: fs => digitsOf Char.isDigit fs
      let exponent ← match tail with
        | [] => some 0
        | _ :: es => exponentOf es
      if point.isEmpty ∧ tail.isEmpty then none
      return negative || !overflows (ds ++ fraction) (exponent - fraction.length)
    checked.getD false

def two (low high : Nat) : List Char → Option (Nat × List Char)
  | a :: b :: rest =>
    if a.isDigit ∧ b.isDigit then
      let n := valueIn 10 [a, b]
      if low ≤ n ∧ n ≤ high then some (n, rest) else none
    else none
  | _ => none

def expect (c : Char) : List Char → Option (List Char)
  | x :: rest => if x = c then some rest else none
  | [] => none

def date (cs : List Char) : Option (List Char) := do
  let ys := cs.take 4
  if ys.length < 4 ∨ !ys.all Char.isDigit then none
  let rest ← expect '-' (cs.drop 4)
  let (month, rest) ← two 1 12 rest
  let rest ← expect '-' rest
  let (day, rest) ← two 1 31 rest
  if day ≤ Time.daysInMonth (valueIn 10 ys) month then some rest else none

def timeOfDay (cs : List Char) : Option (List Char) := do
  let (_, rest) ← two 0 23 cs
  let (_, rest) ← two 0 59 (← expect ':' rest)
  let (_, rest) ← two 0 60 (← expect ':' rest)
  match rest with
  | '.' :: fs =>
    let ds := fs.takeWhile Char.isDigit
    if ds.isEmpty then none else some (fs.drop ds.length)
  | rest => some rest

def zone : List Char → Option (List Char)
  | 'Z' :: rest => some rest
  | 'z' :: rest => some rest
  | '+' :: rest => hours rest
  | '-' :: rest => hours rest
  | rest => some rest
where
  hours (cs : List Char) : Option (List Char) := do
    let (_, rest) ← two 0 23 cs
    let (_, rest) ← two 0 59 (← expect ':' rest)
    return rest

/-- A date, a time of day, or both with an optional offset: what is left after it. -/
def moment (cs : List Char) : Option (List Char) :=
  match date cs with
  | some rest =>
    let later : Option (List Char) := do
      match rest with
      | c :: r => if c = 'T' ∨ c = 't' ∨ c = ' ' then zone (← timeOfDay r) else none
      | [] => none
    some (later.getD rest)
  | none => timeOfDay cs

def plainValue (cs : List Char) : Option (Value × List Char) :=
  match moment cs with
  | some rest => some (.moment, rest)
  | none =>
    let token := cs.takeWhile isTokenChar
    let rest := cs.drop token.length
    if token = ['t', 'r', 'u', 'e'] then some (.bool true, rest)
    else if token = ['f', 'a', 'l', 's', 'e'] then some (.bool false, rest)
    else if isFloat token then some (.float, rest)
    else (intOf token).map fun n => (.int n, rest)

/-! ### Values -/

mutual

/-- A value. `n` bounds the steps; every step takes at least one character. -/
def value (n depth : Nat) (cs : List Char) : Option (Value × List Char) :=
  match n with
  | 0 => none
  | n + 1 =>
    match cs with
    | [] => none
    | '[' :: rest => if depth + 1 < nestingLimit then items n (depth + 1) [] rest else none
    | '{' :: rest =>
      if depth + 1 < nestingLimit then
        match skipSpace rest with
        | '}' :: rest => some (.table [], rest)
        | rest => fields n (depth + 1) [] rest
      else none
    | c :: rest =>
      if c = '"' ∨ c = '\'' then (text (c :: rest)).map fun r => (.text r.1, r.2)
      else plainValue (c :: rest)

/-- The rest of a list whose items so far are `read`, last first. -/
def items (n depth : Nat) (read : List Value) (cs : List Char) : Option (Value × List Char) :=
  match n with
  | 0 => none
  | n + 1 =>
    match skipFill cs.length cs with
    | ']' :: rest => some (.list read.reverse, rest)
    | cs => do
      let (v, rest) ← value n depth cs
      match skipFill rest.length rest with
      | ',' :: rest => items n depth (v :: read) rest
      | ']' :: rest => some (.list (v :: read).reverse, rest)
      | _ => none

/-- The rest of an inline table with the fields so far. -/
def fields (n depth : Nat) (read : Items) (cs : List Char) : Option (Value × List Char) :=
  match n with
  | 0 => none
  | n + 1 => do
    let (k, rest) ← key cs
    let rest ← expect '=' rest
    let (v, rest) ← value n depth (skipSpace rest)
    let read ← read.addValue k v
    match skipSpace rest with
    | ',' :: rest => fields n depth read rest
    | '}' :: rest => some (.table (Item.fieldValues read), rest)
    | _ => none

end

/-! ### Documents -/

/-- The tables read so far, and the one that is being filled. -/
structure State where
  root : Items := []
  current : Items := []
  path : List String := []
  isElement : Bool := false

def State.close (s : State) : Option Items :=
  match s.path.getLast? with
  | none => some s.current
  | some last =>
    let put := fun (_ : Bool) (items : Items) =>
      if s.isElement then
        match items.lookup last with
        | none => some (items ++ [(last, Item.tables [s.current])], ())
        | some (.tables elements) =>
          some (items.replace last (.tables (elements ++ [s.current])), ())
        | some _ => none
      else if (items.lookup last).isSome then none
      else some (items ++ [(last, Item.table false false s.current)], ())
    do return (← Items.descend false put s.path.dropLast false s.root).1

/-- Starts the table of a header. One that so far was only passed through is gone on with. -/
def State.openTable (s : State) (path : List String) : Option State := do
  let last ← path.getLast?
  let take := fun (_ : Bool) (items : Items) =>
    match items.lookup last with
    | none => some (items, [])
    | some (.table true false inner) => some (items.filter (·.1 ≠ last), inner)
    | some _ => none
  let (root, current) ← Items.descend false take path.dropLast false (← s.close)
  return { root, current, path }

def State.openElement (s : State) (path : List String) : Option State := do
  let last ← path.getLast?
  let check := fun (_ : Bool) (items : Items) =>
    match items.lookup last with
    | none => some (items, ())
    | some (.tables _) => some (items, ())
    | some _ => none
  let (root, _) ← Items.descend false check path.dropLast false (← s.close)
  return { root, path, isElement := true }

/-- One line, or one key with a value of several lines. -/
def line (s : State) (cs : List Char) : Option (State × List Char) :=
  match skipSpace cs with
  | '[' :: '[' :: rest => do
    let (path, rest) ← key rest
    let rest ← endOfLine (← expect ']' (← expect ']' rest))
    return (← s.openElement path, rest)
  | '[' :: rest => do
    let (path, rest) ← key rest
    let rest ← endOfLine (← expect ']' rest)
    return (← s.openTable path, rest)
  | cs =>
    match endOfLine cs with
    | some rest => some (s, rest)
    | none => do
      let (k, rest) ← key cs
      let rest := skipSpace (← expect '=' rest)
      let (v, rest) ← value (rest.length + 1) 0 rest
      let current ← s.current.addValue k v
      return ({ s with current }, ← endOfLine rest)

def lines (n : Nat) (s : State) (cs : List Char) : Option State :=
  match n, cs with
  | _, [] => some s
  | 0, _ => none
  | n + 1, cs => do
    let (s, rest) ← line s cs
    lines n s rest

end Reader

/-- The fields of a document. A byte order mark may come first. -/
def ofText? (s : String) : Option (List (String × Value)) := do
  let cs := match s.toList with
    | '\ufeff' :: cs => cs
    | cs => cs
  let state ← Reader.lines (cs.length + 1) {} cs
  return Item.fieldValues (← state.close)

end WorkQueue.Toml
