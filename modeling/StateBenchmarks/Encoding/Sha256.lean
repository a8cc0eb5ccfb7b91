/-
# SHA-256 and HMAC

`hashlib.sha256` and `hmac.new(key, message, hashlib.sha256)` on byte strings.  The
message is padded to blocks of sixty-four bytes, each block is spread over sixty-four
words, and the state of eight words takes one round for each of them.
-/

import StateBenchmarks.Python.Bytes

namespace StateBenchmarks.Encoding.Sha256

open Python

/-- The round constants. -/
def constants : List UInt32 :=
  [0x428a2f98, 0x71374491, 0xb5c0fbcf, 0xe9b5dba5, 0x3956c25b, 0x59f111f1, 0x923f82a4, 0xab1c5ed5,
    0xd807aa98, 0x12835b01, 0x243185be, 0x550c7dc3, 0x72be5d74, 0x80deb1fe, 0x9bdc06a7, 0xc19bf174,
    0xe49b69c1, 0xefbe4786, 0x0fc19dc6, 0x240ca1cc, 0x2de92c6f, 0x4a7484aa, 0x5cb0a9dc, 0x76f988da,
    0x983e5152, 0xa831c66d, 0xb00327c8, 0xbf597fc7, 0xc6e00bf3, 0xd5a79147, 0x06ca6351, 0x14292967,
    0x27b70a85, 0x2e1b2138, 0x4d2c6dfc, 0x53380d13, 0x650a7354, 0x766a0abb, 0x81c2c92e, 0x92722c85,
    0xa2bfe8a1, 0xa81a664b, 0xc24b8b70, 0xc76c51a3, 0xd192e819, 0xd6990624, 0xf40e3585, 0x106aa070,
    0x19a4c116, 0x1e376c08, 0x2748774c, 0x34b0bcb5, 0x391c0cb3, 0x4ed8aa4a, 0x5b9cca4f, 0x682e6ff3,
    0x748f82ee, 0x78a5636f, 0x84c87814, 0x8cc70208, 0x90befffa, 0xa4506ceb, 0xbef9a3f7, 0xc67178f2]

/-- The eight words of the state. -/
structure State where
  a : UInt32
  b : UInt32
  c : UInt32
  d : UInt32
  e : UInt32
  f : UInt32
  g : UInt32
  h : UInt32

def State.init : State :=
  ⟨0x6a09e667, 0xbb67ae85, 0x3c6ef372, 0xa54ff53a, 0x510e527f, 0x9b05688c, 0x1f83d9ab, 0x5be0cd19⟩

def State.add (s t : State) : State :=
  ⟨s.a + t.a, s.b + t.b, s.c + t.c, s.d + t.d, s.e + t.e, s.f + t.f, s.g + t.g, s.h + t.h⟩

def State.words (s : State) : List UInt32 := [s.a, s.b, s.c, s.d, s.e, s.f, s.g, s.h]

def rotate (x n : UInt32) : UInt32 := (x >>> n) ||| (x <<< (32 - n))

/-- One round, with a constant and a word of the schedule. -/
def State.round (s : State) (constant word : UInt32) : State :=
  let choice := (s.e &&& s.f) ^^^ (~~~s.e &&& s.g)
  let majority := (s.a &&& s.b) ^^^ (s.a &&& s.c) ^^^ (s.b &&& s.c)
  let first := s.h + (rotate s.e 6 ^^^ rotate s.e 11 ^^^ rotate s.e 25) + choice + constant + word
  let second := (rotate s.a 2 ^^^ rotate s.a 13 ^^^ rotate s.a 22) + majority
  ⟨first + second, s.a, s.b, s.c, s.d + first, s.e, s.f, s.g⟩

/-- More words of the schedule, the last one first. -/
def extend : ℕ → List UInt32 → List UInt32
  | 0, words => words
  | n + 1, words =>
      let x := words.getD 1 0
      let y := words.getD 14 0
      let next := (rotate x 17 ^^^ rotate x 19 ^^^ (x >>> 10)) + words.getD 6 0 +
        (rotate y 7 ^^^ rotate y 18 ^^^ (y >>> 3)) + words.getD 15 0
      extend n (next :: words)

/-- The sixteen words of a block. -/
def blockWords (block : Bytes) : List UInt32 :=
  (List.range 16).map fun i => UInt32.ofNat (fromBytes (slice block (4 * i) (4 * i + 4)))

/-- The state after a block. -/
def compress (s : State) (block : Bytes) : State :=
  let schedule := (extend 48 (blockWords block).reverse).reverse
  s.add ((constants.zip schedule).foldl (fun s round => s.round round.1 round.2) s)

/-- The message up to a full number of blocks, its length at the end. -/
def padded (message : Bytes) : Bytes :=
  message ++ 0x80 :: List.replicate ((119 - message.length % 64) % 64) 0 ++
    toBytes 8 (8 * message.length)

/-- `hashlib.sha256(message).digest()`. -/
def digest (message : Bytes) : Bytes :=
  let blocks := (List.range ((padded message).length / 64)).map fun i =>
    slice (padded message) (64 * i) (64 * i + 64)
  (blocks.foldl compress .init).words.flatMap fun word => toBytes 4 word.toNat

/-- The key of a MAC, as long as a block. -/
def blockKey (key : Bytes) : Bytes :=
  let key := if 64 < key.length then digest key else key
  key ++ List.replicate (64 - key.length) 0

/-- `hmac.new(key, message, hashlib.sha256).digest()`. -/
def hmac (key message : Bytes) : Bytes :=
  digest ((blockKey key).map (· ^^^ 0x5c) ++
    digest ((blockKey key).map (· ^^^ 0x36) ++ message))

example :
    (hmac (List.replicate 20 0x0b) [0x48, 0x69, 0x20, 0x54, 0x68, 0x65, 0x72, 0x65]).take 4 =
      [0xb0, 0x34, 0x4c, 0x61] := by
  decide +kernel

end StateBenchmarks.Encoding.Sha256
