/-!
# Identities

An identity starts with the time at which it was made, so that texts of identities are in the order
of their times, and goes on with random digits.
-/

namespace WorkQueue.Identity

/-- The milliseconds since 1970, a version mark, 12 random bits, a variant mark and 62 random
bits. -/
def number (millis random : Nat) : Nat :=
  let high := (millis % 0x1000000000000) * 0x10000 + 0x7000 + random / 0x4000000000000000 % 0x1000
  high * 0x10000000000000000 + 0x8000000000000000 + random % 0x4000000000000000

def digits (n : Nat) : List Char :=
  (List.range 32).map fun i => Nat.digitChar ((n >>> (4 * (31 - i))) % 16)

/-- The written form, with dashes after 8, 12, 16 and 20 digits. -/
def text (millis random : Nat) : String :=
  let ds := digits (number millis random)
  let parts :=
    [ds.take 8, (ds.drop 8).take 4, (ds.drop 12).take 4, (ds.drop 16).take 4, ds.drop 20]
  "-".intercalate (parts.map String.ofList)

example : text 0x0190a6b20000 1 = "0190a6b2-0000-7000-8000-000000000001" := by decide

end WorkQueue.Identity
