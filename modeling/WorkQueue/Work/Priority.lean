/-!
# Priorities

A priority is a signed 64-bit integer. Lower ones come first.
-/

namespace WorkQueue

/-- The bounds of a signed 64-bit integer. -/
def Priority.least : Int := -0x8000000000000000

def Priority.most : Int := 0x7fffffffffffffff

structure Priority where
  value : Int
  ge_min : Priority.least ≤ value := by decide
  le_max : value ≤ Priority.most := by decide
  deriving DecidableEq, Repr

namespace Priority

instance : Inhabited Priority := ⟨⟨0, by decide, by decide⟩⟩

def zero : Priority := ⟨0, by decide, by decide⟩

/-- The priority after this one; the greatest stays as it is. -/
def succ (p : Priority) : Priority :=
  if h : p.value < most then
    ⟨p.value + 1, by have := p.ge_min; omega, by omega⟩
  else p

def max (p q : Priority) : Priority := if p.value ≤ q.value then q else p

/-- The greatest of the priorities, or zero where there is none. -/
def greatest : List Priority → Priority
  | [] => zero
  | p :: ps => ps.foldl max p

def ofInt? (n : Int) : Option Priority :=
  if h : least ≤ n ∧ n ≤ most then some ⟨n, h.1, h.2⟩ else none

end Priority

end WorkQueue
