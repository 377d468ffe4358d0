/-!
# Content digests

SHA-256 of a byte string, written as 64 lowercase hexadecimal digits. Two contents are taken to
be the same when their digests are.
-/

namespace WorkQueue

namespace Sha256

structure State where
  (a b c d e f g h : UInt32)

/-- First 32 bits of the fractional parts of the square roots of the first eight primes. -/
def State.initial : State :=
  ⟨0x6a09e667, 0xbb67ae85, 0x3c6ef372, 0xa54ff53a, 0x510e527f, 0x9b05688c, 0x1f83d9ab, 0x5be0cd19⟩

/-- First 32 bits of the fractional parts of the cube roots of the first 64 primes. -/
def roundConstants : List UInt32 :=
  [0x428a2f98, 0x71374491, 0xb5c0fbcf, 0xe9b5dba5, 0x3956c25b, 0x59f111f1, 0x923f82a4, 0xab1c5ed5,
   0xd807aa98, 0x12835b01, 0x243185be, 0x550c7dc3, 0x72be5d74, 0x80deb1fe, 0x9bdc06a7, 0xc19bf174,
   0xe49b69c1, 0xefbe4786, 0x0fc19dc6, 0x240ca1cc, 0x2de92c6f, 0x4a7484aa, 0x5cb0a9dc, 0x76f988da,
   0x983e5152, 0xa831c66d, 0xb00327c8, 0xbf597fc7, 0xc6e00bf3, 0xd5a79147, 0x06ca6351, 0x14292967,
   0x27b70a85, 0x2e1b2138, 0x4d2c6dfc, 0x53380d13, 0x650a7354, 0x766a0abb, 0x81c2c92e, 0x92722c85,
   0xa2bfe8a1, 0xa81a664b, 0xc24b8b70, 0xc76c51a3, 0xd192e819, 0xd6990624, 0xf40e3585, 0x106aa070,
   0x19a4c116, 0x1e376c08, 0x2748774c, 0x34b0bcb5, 0x391c0cb3, 0x4ed8aa4a, 0x5b9cca4f, 0x682e6ff3,
   0x748f82ee, 0x78a5636f, 0x84c87814, 0x8cc70208, 0x90befffa, 0xa4506ceb, 0xbef9a3f7, 0xc67178f2]

def rotateRight (x n : UInt32) : UInt32 :=
  (x >>> n) ||| (x <<< (32 - n))

/-- A block's sixteen words followed by the 48 words derived from them. -/
def schedule (block : Array UInt32) : Array UInt32 :=
  (List.range' 16 48).foldl (fun w t =>
    let x := w.getD (t - 15) 0
    let y := w.getD (t - 2) 0
    let s0 := rotateRight x 7 ^^^ rotateRight x 18 ^^^ (x >>> 3)
    let s1 := rotateRight y 17 ^^^ rotateRight y 19 ^^^ (y >>> 10)
    w.push (w.getD (t - 16) 0 + s0 + w.getD (t - 7) 0 + s1)) block

def State.round (s : State) (k w : UInt32) : State :=
  let s1 := rotateRight s.e 6 ^^^ rotateRight s.e 11 ^^^ rotateRight s.e 25
  let choice := (s.e &&& s.f) ^^^ (~~~ s.e &&& s.g)
  let t1 := s.h + s1 + choice + k + w
  let s0 := rotateRight s.a 2 ^^^ rotateRight s.a 13 ^^^ rotateRight s.a 22
  let majority := (s.a &&& s.b) ^^^ (s.a &&& s.c) ^^^ (s.b &&& s.c)
  ⟨t1 + (s0 + majority), s.a, s.b, s.c, s.d + t1, s.e, s.f, s.g⟩

def State.add (s t : State) : State :=
  ⟨s.a + t.a, s.b + t.b, s.c + t.c, s.d + t.d, s.e + t.e, s.f + t.f, s.g + t.g, s.h + t.h⟩

def State.block (s : State) (block : Array UInt32) : State :=
  s.add <| (roundConstants.zip (schedule block).toList).foldl (fun s kw => s.round kw.1 kw.2) s

/-- The content, a one bit, zeros up to eight bytes short of a block, and the length in bits. -/
def padded (content : ByteArray) : ByteArray :=
  let zeros := (119 - content.size % 64) % 64
  let length := 8 * content.size
  let filled := (List.range zeros).foldl (fun bytes _ => bytes.push 0) (content.push 0x80)
  (List.range 8).foldl (fun bytes i => bytes.push (length >>> (8 * (7 - i))).toUInt8) filled

def wordAt (bytes : ByteArray) (i : Nat) : UInt32 :=
  (List.range 4).foldl (fun w k => (w <<< 8) ||| ((bytes.data.getD (i + k) 0).toUInt32)) 0

def blockAt (bytes : ByteArray) (i : Nat) : Array UInt32 :=
  ((List.range 16).map fun k => wordAt bytes (i + 4 * k)).toArray

def State.words (s : State) : List UInt32 :=
  [s.a, s.b, s.c, s.d, s.e, s.f, s.g, s.h]

def digestState (content : ByteArray) : State :=
  let bytes := padded content
  (List.range (bytes.size / 64)).foldl (fun s i => s.block (blockAt bytes (64 * i))) State.initial

end Sha256

/-- A lowercase hexadecimal SHA-256 digest. -/
abbrev Digest := String

namespace Digest

def hexDigits (w : UInt32) : List Char :=
  (List.range 8).map fun i => Nat.digitChar ((w.toNat >>> (4 * (7 - i))) % 16)

def ofBytes (content : ByteArray) : Digest :=
  String.ofList ((Sha256.digestState content).words.flatMap hexDigits)

end Digest

end WorkQueue
