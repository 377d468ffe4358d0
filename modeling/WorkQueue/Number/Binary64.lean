/-!
# Binary64 numbers

The finite numbers of the binary64 format, as sign, significand and exponent. Arithmetic is exact
on natural numbers and rounds once, to nearest, a tie to the even significand; a result beyond the
format is `none`.
-/

namespace WorkQueue.Number

/-- The number `± significand · 2 ^ exponent`. Built by `Binary64.nearest`, a significand has 53
bits unless the exponent is the least one. -/
structure Binary64 where
  negative : Bool
  significand : Nat
  exponent : Int
  deriving DecidableEq, Repr

namespace Binary64

def leastExponent : Int := -1074

def greatestExponent : Int := 971

def zero (negative : Bool) : Binary64 := ⟨negative, 0, leastExponent⟩

def isZero (x : Binary64) : Bool := x.significand == 0

/-- The quotient rounded to a natural number, a tie to the even one. -/
def roundQuotient (num den : Nat) : Nat :=
  let q := num / den
  let twice := 2 * (num % den)
  if twice < den then q else if den < twice then q + 1 else q + q % 2

/-- The exponent that gives `num / den` a significand of 53 bits, or the least one. -/
def exponentFor (num den : Nat) : Int :=
  let guess : Int := (Nat.log2 num : Int) - Nat.log2 den - 53
  let scaled :=
    if guess < 0 then num * Nat.pow 2 (-guess).toNat / den
    else num / (den * Nat.pow 2 guess.toNat)
  max leastExponent (if scaled < 0x20000000000000 then guess else guess + 1)

/-- The binary64 number nearest to `± num / den`. -/
def nearest (negative : Bool) (num den : Nat) : Option Binary64 :=
  if num = 0 then some (zero negative)
  else
    let e := exponentFor num den
    let m := if e < 0 then roundQuotient (num * Nat.pow 2 (-e).toNat) den
      else roundQuotient num (den * Nat.pow 2 e.toNat)
    let r : Nat × Int := if m = 0x20000000000000 then (0x10000000000000, e + 1) else (m, e)
    if greatestExponent < r.2 then none else some ⟨negative, r.1, r.2⟩

def ratio (x : Binary64) : Nat × Nat :=
  if x.exponent < 0 then (x.significand, Nat.pow 2 (-x.exponent).toNat)
  else (x.significand * Nat.pow 2 x.exponent.toNat, 1)

/-- The power of ten nearest in the format, for exponents up to 308. -/
def powerOfTen (k : Nat) : Binary64 :=
  (nearest false (Nat.pow 10 k) 1).getD (zero false)

def mul (x y : Binary64) : Option Binary64 :=
  nearest (x.negative != y.negative) (x.ratio.1 * y.ratio.1) (x.ratio.2 * y.ratio.2)

def div (x y : Binary64) : Option Binary64 :=
  nearest (x.negative != y.negative) (x.ratio.1 * y.ratio.2) (x.ratio.2 * y.ratio.1)

/-- The number read from `significand · 10 ^ exponent`, with one rounding for the significand and
one for each scaling by a power of ten of at most 308; `none` when it is too large. -/
def ofScaled (significand : Nat) (exponent : Int) : Option Binary64 :=
  go ((nearest false significand 1).getD (zero false)) exponent
where
  go (x : Binary64) (exponent : Int) : Option Binary64 :=
    if x.isZero then some x
    else if 308 < exponent then none
    else if 0 ≤ exponent then x.mul (powerOfTen exponent.toNat)
    else if -308 ≤ exponent then x.div (powerOfTen (-exponent).toNat)
    else (x.div (powerOfTen 308)).bind fun y => go y (exponent + 308)
  termination_by (-exponent).toNat

/-- Twice the ends of the interval of magnitudes that round to `x`, over `2 · 2 ^ k`: numerators of
the lower end, of `x` itself and of the upper end, and their common denominator. -/
def interval (x : Binary64) : Nat × Nat × Nat × Nat :=
  let atPower := x.significand == 0x10000000000000 && x.exponent > leastExponent
  let m := 4 * x.significand
  let low := m - (if atPower then 1 else 2)
  let high := m + 2
  let e := x.exponent - 2
  if e < 0 then (low, m, high, Nat.pow 2 (-e).toNat)
  else
    let scale := Nat.pow 2 e.toNat
    (low * scale, m * scale, high * scale, 1)

/-- Whether `d · 10 ^ p` reads back as `x`. -/
def readsBack (x : Binary64) (d : Nat) (p : Int) : Bool :=
  let (low, _, high, den) := x.interval
  let num := if p < 0 then d else d * Nat.pow 10 p.toNat
  let scale := if p < 0 then Nat.pow 10 (-p).toNat else 1
  let value := num * den
  let closed := x.significand % 2 == 0
  let above := if closed then low * scale ≤ value else low * scale < value
  let below := if closed then value ≤ high * scale else value < high * scale
  above && below

/-- The power of ten of the first digit of the magnitude `num / den`. -/
def leadingPower (num den : Nat) : Int :=
  if den ≤ num then ((Nat.toDigits 10 (num / den)).length : Int) - 1
  else
    let k := (Nat.toDigits 10 (den / num)).length
    -- `10 ^ (k - 1) ≤ den / num < 10 ^ k`
    if den ≤ num * Nat.pow 10 (k - 1) then 1 - (k : Int) else -(k : Int)

/-- Of the two neighbours of `x` on the grid of multiples of `10 ^ p`, the nearer one that reads
back. -/
def onGrid (x : Binary64) (p : Int) : Option Nat :=
  let (num, den) := x.ratio
  let n := if p < 0 then num * Nat.pow 10 (-p).toNat else num
  let d := if p < 0 then den else den * Nat.pow 10 p.toNat
  let low := n / d
  let twice := 2 * (n % d)
  let near := if twice < d then low else if d < twice then low + 1 else low + low % 2
  let far := if near = low then low + 1 else low
  if x.readsBack near p then some near else if x.readsBack far p then some far else none

/-- The fewest digits that read back, as an integer and a power of ten. -/
def shortest (x : Binary64) : Nat × Int :=
  let (num, den) := x.ratio
  let top := leadingPower num den
  let found := (List.range 17).findSome? fun (k : Nat) =>
    (x.onGrid (top - k)).map fun d => (d, top - k)
  found.getD (0, 0)

/-- An integer without its trailing zeros, and the power of ten that makes up for them. -/
def stripZeros (d : Nat) (p : Int) : Nat × Int :=
  if d = 0 then (0, p)
  else if d % 10 = 0 then stripZeros (d / 10) (p + 1) else (d, p)
termination_by d

/-- Positional with at least one decimal from `1e-5` up to `1e16`, otherwise one digit before the
point and an exponent with a sign and at least two digits. -/
def text (x : Binary64) : String :=
  let sign := if x.negative then "-" else ""
  if x.isZero then sign ++ "0.0"
  else
    let raw := x.shortest
    let (d, p) := stripZeros raw.1 raw.2
    let digits := Nat.toDigits 10 d
    let top : Int := p + digits.length - 1
    let body : List Char :=
      if top < -5 || 15 < top then
        let tail := digits.drop 1
        let size := Nat.toDigits 10 top.natAbs
        digits.take 1 ++ (if tail.isEmpty then [] else '.' :: tail) ++
          ['e', if top < 0 then '-' else '+'] ++ (if size.length < 2 then '0' :: size else size)
      else if top < 0 then ['0', '.'] ++ List.replicate (-top - 1).toNat '0' ++ digits
      else if p < 0 then digits.take (top.toNat + 1) ++ '.' :: digits.drop (top.toNat + 1)
      else digits ++ List.replicate p.toNat '0' ++ ['.', '0']
    sign ++ String.ofList body

end Binary64

end WorkQueue.Number
