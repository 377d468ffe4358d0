import WorkQueue.Text.Quoted
import WorkQueue.Work.Priority
import WorkQueue.Work.Status

/-!
# Command lines

A command line is read word by word. A word names a part of the command, starts an option, gives
the value of the option before it, or is the operand. The value of an option is checked when the
next option or operand is met, or at the end; what follows the name of a part is read before the
options that stand in front of the name are checked.
-/

namespace WorkQueue.Cli

open Text

/-- Why a command line is not carried out, or what is shown in its place. -/
inductive Refusal where
  | help
  | version
  | helpInsteadOfPart
  | missingPart
  | unknownPart
  | unknownWord
  | missingOperand
  | missingValue
  | surplusValue
  | repeated
  | badValue (reason : String)
  deriving DecidableEq, Repr

namespace Refusal

def exitNumber : Refusal → Nat
  | help | version => 0
  | _ => 2

/-- What the reader of a value found wrong with it. -/
def reason? : Refusal → Option String
  | badValue reason => some reason
  | _ => none

def message : Refusal → String
  | help => "usage: workloop [--data-dir <DIR>] [--json] <work|role|autorun> ..."
  | version => "workloop 0.1.0"
  | helpInsteadOfPart | missingPart => "a subcommand is missing"
  | unknownPart => "there is no such subcommand"
  | unknownWord => "there is no such argument"
  | missingOperand => "a required argument is missing"
  | missingValue => "an option needs a value"
  | surplusValue => "an option takes no value"
  | repeated => "an option is given more than once"
  | badValue reason => "invalid value: " ++ reason

end Refusal

/-! ### Values -/

inductive Value where
  | text (s : String)
  | priority (p : Priority)
  | status (s : Status)
  | kind (k : Kind)
  /-- an option without a value was given -/
  | present
  deriving DecidableEq, Repr

inductive ValueType where
  | text
  | path
  | priority
  | status
  | kind
  deriving DecidableEq, Repr

/-- The number that decimal digits after an optional sign give. Digits that lead out of range count
before what follows them. -/
def readPriority (s : String) : Except String Priority :=
  let (negative, body) : Bool × List Char := match s.toList with
    | '+' :: c :: cs => (false, c :: cs)
    | '-' :: c :: cs => (true, c :: cs)
    | cs => (false, cs)
  let digits := body.takeWhile Char.isDigit
  let size := digits.foldl (fun n c => 10 * n + (c.toNat - '0'.toNat)) 0
  match Priority.ofInt? (if negative then -(size : Int) else size) with
  | none =>
    .error ("number too " ++ (if negative then "small" else "large") ++ " to fit in target type")
  | some p =>
    if body.isEmpty then .error "cannot parse integer from empty string"
    else if digits.length < body.length then .error "invalid digit found in string"
    else .ok p

def readStatus (s : String) : Except String Status :=
  match Status.ofName? s with
  | some status => .ok status
  | none => .error ("unknown status " ++ ticked s ++ " (open, in_progress, done, closed)")

def readKind (s : String) : Except String Kind :=
  match Kind.ofName? s with
  | some kind => .ok kind
  | none => .error ("unknown type " ++ ticked s ++ " (story, task, bug)")

def ValueType.read (t : ValueType) (s : String) : Except Refusal Value :=
  match t with
  | text => .ok (.text s)
  | path => if s = "" then .error .missingValue else .ok (.text s)
  | priority => ((readPriority s).map Value.priority).mapError .badValue
  | status => ((readStatus s).map Value.status).mapError .badValue
  | kind => ((readKind s).map Value.kind).mapError .badValue

/-! ### Grammars -/

/-- An option, with two dashes before its name. -/
structure Parameter where
  name : String
  /-- `none` takes no value -/
  valueType : Option ValueType
  deriving DecidableEq, Repr

/-- The values of the options given, the innermost part first. -/
abbrev Given := List (String × Value)

namespace Given

def text? (g : Given) (name : String) : Option String :=
  g.findSome? fun | (n, .text s) => if n = name then some s else none | _ => none

def priority? (g : Given) (name : String) : Option Priority :=
  g.findSome? fun | (n, .priority p) => if n = name then some p else none | _ => none

def status? (g : Given) (name : String) : Option Status :=
  g.findSome? fun | (n, .status s) => if n = name then some s else none | _ => none

def kind? (g : Given) (name : String) : Option Kind :=
  g.findSome? fun | (n, .kind k) => if n = name then some k else none | _ => none

def has (g : Given) (name : String) : Bool := g.any (·.1 == name)

end Given

/-- A command that consists of parts, or one that is carried out. -/
inductive Grammar (C : Type) where
  | parts (name : String) (options : List Parameter) (inner : List (Grammar C))
  | command (name : String) (options : List Parameter) (build : Given → C)
  /-- `build` gets the operand -/
  | commandOn (name : String) (options : List Parameter) (build : String → Given → C)

namespace Grammar

variable {C : Type}

def name : Grammar C → String
  | parts name _ _ | command name _ _ | commandOn name _ _ => name

def options : Grammar C → List Parameter
  | parts _ options _ | command _ options _ | commandOn _ options _ => options

def inner : Grammar C → List (Grammar C)
  | parts _ _ inner => inner
  | _ => []

def part? (g : Grammar C) (word : String) : Option (Grammar C) :=
  g.inner.find? (·.name = word)

def isHelp (g : Grammar C) (word : String) : Bool := !g.inner.isEmpty && word == "help"

/-- The answer to a request for help on the part that the words lead to. -/
def helpOn (g : Grammar C) : List String → Refusal
  | [] => .help
  | word :: words =>
    if g.isHelp word then (if words.isEmpty then .help else .unknownPart)
    else match g.part? word with
      | some part => helpOn part words
      | none => .unknownPart

def option? (g : Grammar C) (name : String) : Option Parameter :=
  g.options.find? (·.name = name)

end Grammar

/-! ### Reading -/

/-- What has been read of one part of a command line. -/
structure Level where
  given : Given := []
  operand : Option String := none
  /-- the option met last, and its value where that was read, while they wait for being checked -/
  pending : Option (Parameter × Option String) := none
  /-- after the word of two dashes -/
  onlyOperands : Bool := false

namespace Level

def has (l : Level) (p : Parameter) : Bool := l.given.has p.name

def accept (l : Level) (p : Parameter) (value : Option String) : Except Refusal Level := do
  match p.valueType, value with
  | none, _ =>
    if l.has p then throw .repeated
    return { l with given := (p.name, .present) :: l.given }
  | some _, none => throw .missingValue
  | some t, some s =>
    if l.has p then throw .repeated
    return { l with given := (p.name, ← t.read s) :: l.given }

def resolve (l : Level) : Except Refusal Level :=
  match l.pending with
  | none => .ok l
  | some (p, value) => { l with pending := none }.accept p value

/-- The option whose value the next word may be. -/
def awaiting? (l : Level) : Option Parameter :=
  match l.pending with
  | some (p, none) => if l.onlyOperands then none else some p
  | _ => none

def isUsed (l : Level) : Bool := !l.given.isEmpty || l.operand.isSome

end Level

/-- What a word of a command line does. -/
inductive Step (C : Type) where
  | stay (l : Level)
  | enter (part : Grammar C)
  | refuse (r : Refusal)

namespace Step

variable {C : Type}

def ofExcept : Except Refusal Level → Step C
  | .ok l => stay l
  | .error r => refuse r

end Step

section Words

variable {C : Type}

/-- Digits with at most one point and one exponent, which a number after a dash consists of. -/
def isNumberRest (cs : List Char) : Bool :=
  go true false false cs
where
  go (first point exponent : Bool) : List Char → Bool
    | [] => true
    | c :: cs =>
      if c.isDigit then go false point exponent cs
      else if c = '.' ∧ !first ∧ !point ∧ !exponent then go false true exponent cs
      else if c = 'e' ∧ !first ∧ !exponent ∧ !cs.isEmpty then go false point true cs
      else false

def showInstead (l : Level) (r : Refusal) : Step C :=
  match l.resolve with
  | .ok _ => .refuse r
  | .error e => .refuse e

/-- The rest of a word with two dashes: a name, and a value after an equals sign. -/
def longOption (g : Grammar C) (top : Bool) (l : Level) (rest : List Char) : Step C :=
  let name := String.ofList (rest.takeWhile (· ≠ '='))
  let value : Option String := match rest.dropWhile (· ≠ '=') with
    | _ :: cs => some (String.ofList cs)
    | [] => none
  match g.option? name with
  | some p =>
    match p.valueType, value with
    | none, some _ => .refuse .surplusValue
    | none, none => .ofExcept do (← l.resolve).accept p none
    | some _, some s => .ofExcept do (← l.resolve).accept p (some s)
    | some _, none => .ofExcept do return { (← l.resolve) with pending := some (p, none) }
  | none =>
    if name = "help" ∨ (name = "version" ∧ top) then
      if value.isSome then .refuse .surplusValue
      else showInstead l (if name = "help" then .help else .version)
    else .refuse .unknownWord

def shortOption (top : Bool) (l : Level) : List Char → Step C
  | 'h' :: _ => showInstead l .help
  | 'V' :: _ => if top then showInstead l .version else .refuse .unknownWord
  | _ => .refuse .unknownWord

def operandWord (g : Grammar C) (l : Level) (word : String) : Step C :=
  match g with
  | .parts _ _ _ =>
    if l.onlyOperands ∧ ((g.part? word).isSome ∨ g.isHelp word) then .refuse .unknownWord
    else .refuse .unknownPart
  | .command _ _ _ => .refuse .unknownWord
  | .commandOn _ _ _ =>
    if l.operand.isSome then .refuse .unknownWord
    else .ofExcept do return { (← l.resolve) with operand := some word }

/-- The value of an option that takes a number may start with a dash. -/
def takesNumber (p : Parameter) : Bool := p.valueType == some .priority

/-- One word, at a level of the grammar; `words` are those after it. -/
def step (g : Grammar C) (top : Bool) (l : Level) (word : String) (words : List String) :
    Step C :=
  if l.onlyOperands then operandWord g l word
  else
    let part := if l.awaiting?.isSome then none else g.part? word
    match part with
    | some part => .enter part
    | none =>
      if l.awaiting?.isNone && g.isHelp word then .refuse (g.helpOn words)
      else
        let plain : Step C := match l.awaiting? with
          | some p => .stay { l with pending := some (p, some word) }
          | none => operandWord g l word
        match word.toList with
        | ['-', '-'] => .stay { l with onlyOperands := true }
        | '-' :: '-' :: rest => longOption g top l rest
        | ['-'] => plain
        | '-' :: rest =>
          if l.awaiting?.any takesNumber && isNumberRest rest then plain
          else shortOption top l rest
        | _ => plain

def finish (g : Grammar C) (l : Level) : Except Refusal (C × Given) := do
  let l ← l.resolve
  match g with
  | .parts _ _ _ => throw (if l.isUsed then .missingPart else .helpInsteadOfPart)
  | .command _ _ build => return (build l.given, l.given)
  | .commandOn _ _ build =>
    match l.operand with
    | some word => return (build word l.given, l.given)
    | none => throw .missingOperand

/-- Reads the words of a level. An option given at an inner level counts before the same one at an
outer level. -/
def readLevel (g : Grammar C) (top : Bool) (l : Level) :
    List String → Except Refusal (C × Given)
  | [] => finish g l
  | word :: words =>
    match step g top l word words with
    | .refuse r => .error r
    | .stay l => readLevel g top l words
    | .enter part => do
      let (c, given) ← readLevel part false {} words
      return (c, given ++ (← l.resolve).given)

def readWords (g : Grammar C) (words : List String) : Except Refusal (C × Given) :=
  readLevel g true {} words

end Words

end WorkQueue.Cli
