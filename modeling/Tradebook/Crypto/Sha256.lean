import Tradebook.Text.Utf8

/-!
# SHA-256

The hash of a byte string: the string is padded to whole blocks of 64 bytes with
its length at the end, and each block stirs eight words of state in 64 rounds.
-/

namespace Tradebook.Crypto

/-- The first 32 bits of the fractional parts of the cube roots of the first 64 primes. -/
def roundConstants : List UInt32 :=
  [0x428a2f98, 0x71374491, 0xb5c0fbcf, 0xe9b5dba5, 0x3956c25b, 0x59f111f1, 0x923f82a4, 0xab1c5ed5,
   0xd807aa98, 0x12835b01, 0x243185be, 0x550c7dc3, 0x72be5d74, 0x80deb1fe, 0x9bdc06a7, 0xc19bf174,
   0xe49b69c1, 0xefbe4786, 0x0fc19dc6, 0x240ca1cc, 0x2de92c6f, 0x4a7484aa, 0x5cb0a9dc, 0x76f988da,
   0x983e5152, 0xa831c66d, 0xb00327c8, 0xbf597fc7, 0xc6e00bf3, 0xd5a79147, 0x06ca6351, 0x14292967,
   0x27b70a85, 0x2e1b2138, 0x4d2c6dfc, 0x53380d13, 0x650a7354, 0x766a0abb, 0x81c2c92e, 0x92722c85,
   0xa2bfe8a1, 0xa81a664b, 0xc24b8b70, 0xc76c51a3, 0xd192e819, 0xd6990624, 0xf40e3585, 0x106aa070,
   0x19a4c116, 0x1e376c08, 0x2748774c, 0x34b0bcb5, 0x391c0cb3, 0x4ed8aa4a, 0x5b9cca4f, 0x682e6ff3,
   0x748f82ee, 0x78a5636f, 0x84c87814, 0x8cc70208, 0x90befffa, 0xa4506ceb, 0xbef9a3f7, 0xc67178f2]

/-- The first 32 bits of the fractional parts of the square roots of the first 8 primes. -/
def initialState : List UInt32 :=
  [0x6a09e667, 0xbb67ae85, 0x3c6ef372, 0xa54ff53a, 0x510e527f, 0x9b05688c, 0x1f83d9ab, 0x5be0cd19]

/-- A word turned to the right. -/
def rotate (w n : UInt32) : UInt32 :=
  (w >>> n) ||| (w <<< (32 - n))

/-- Four bytes as a word, the most significant one first. -/
def wordOfBytes (bytes : List UInt8) : UInt32 :=
  bytes.foldl (fun w b => (w <<< 8) ||| b.toUInt32) 0

/-- A number as so many bytes, the most significant one first. -/
def bytesOf (n : Nat) : Nat → List UInt8
  | 0 => []
  | count + 1 => bytesOf (n / 256) count ++ [UInt8.ofNat (n % 256)]

/-- A list cut into pieces of a length above zero; the last one may be shorter. -/
def pieces {α : Type} (length : Nat) (xs : List α) : List (List α) :=
  if _h : xs = [] ∨ length = 0 then []
  else xs.take length :: pieces length (xs.drop length)
termination_by xs.length
decreasing_by
  have : 0 < xs.length := List.length_pos_iff.2 (fun e => _h (Or.inl e))
  simp only [List.length_drop]
  omega

/-- The bytes with what fills up their last block. -/
def padded (bytes : List UInt8) : List UInt8 :=
  bytes ++ 0x80 :: List.replicate ((119 - bytes.length % 64) % 64) 0 ++ bytesOf (8 * bytes.length) 8

/-- The word that follows sixteen words of the schedule, the latest one first. -/
def nextWord (latest : List UInt32) : UInt32 :=
  let w := fun i => latest.getD (i - 1) 0
  let s0 := rotate (w 15) 7 ^^^ rotate (w 15) 18 ^^^ (w 15 >>> 3)
  let s1 := rotate (w 2) 17 ^^^ rotate (w 2) 19 ^^^ (w 2 >>> 10)
  w 16 + s0 + w 7 + s1

/-- So many more words of the schedule, the latest one first. -/
def extendSchedule : Nat → List UInt32 → List UInt32
  | 0, latest => latest
  | steps + 1, latest => extendSchedule steps (nextWord latest :: latest)

/-- The words of the 64 rounds of a block. -/
def schedule (block : List UInt8) : List UInt32 :=
  (extendSchedule 48 ((pieces 4 block).map wordOfBytes).reverse).reverse

/-- One round, with its constant added to its word. -/
def round (state : List UInt32) (input : UInt32) : List UInt32 :=
  match state with
  | [a, b, c, d, e, f, g, h] =>
    let s1 := rotate e 6 ^^^ rotate e 11 ^^^ rotate e 25
    let choice := (e &&& f) ^^^ (~~~e &&& g)
    let t1 := h + s1 + choice + input
    let s0 := rotate a 2 ^^^ rotate a 13 ^^^ rotate a 22
    let majority := (a &&& b) ^^^ (a &&& c) ^^^ (b &&& c)
    [t1 + s0 + majority, a, b, c, d + t1, e, f, g]
  | other => other

/-- The state after a block. -/
def stir (state : List UInt32) (block : List UInt8) : List UInt32 :=
  let inputs := List.zipWith (· + ·) roundConstants (schedule block)
  List.zipWith (· + ·) state (inputs.foldl round state)

/-- The hash of a byte string. -/
def sha256 (bytes : List UInt8) : List UInt8 :=
  ((pieces 64 (padded bytes)).foldl stir initialState).flatMap fun w => bytesOf w.toNat 4

end Tradebook.Crypto
