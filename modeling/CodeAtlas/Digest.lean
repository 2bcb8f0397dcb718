/-!
# SHA-256

The digest of the Secure Hash Standard with 256 bits, on 32-bit words.
-/

namespace CodeAtlas.Digest

/-- The first 32 bits of the fractional parts of the cube roots of the first 64 primes. -/
def roundConstants : List UInt32 := [
  0x428a2f98, 0x71374491, 0xb5c0fbcf, 0xe9b5dba5, 0x3956c25b, 0x59f111f1, 0x923f82a4, 0xab1c5ed5,
  0xd807aa98, 0x12835b01, 0x243185be, 0x550c7dc3, 0x72be5d74, 0x80deb1fe, 0x9bdc06a7, 0xc19bf174,
  0xe49b69c1, 0xefbe4786, 0x0fc19dc6, 0x240ca1cc, 0x2de92c6f, 0x4a7484aa, 0x5cb0a9dc, 0x76f988da,
  0x983e5152, 0xa831c66d, 0xb00327c8, 0xbf597fc7, 0xc6e00bf3, 0xd5a79147, 0x06ca6351, 0x14292967,
  0x27b70a85, 0x2e1b2138, 0x4d2c6dfc, 0x53380d13, 0x650a7354, 0x766a0abb, 0x81c2c92e, 0x92722c85,
  0xa2bfe8a1, 0xa81a664b, 0xc24b8b70, 0xc76c51a3, 0xd192e819, 0xd6990624, 0xf40e3585, 0x106aa070,
  0x19a4c116, 0x1e376c08, 0x2748774c, 0x34b0bcb5, 0x391c0cb3, 0x4ed8aa4a, 0x5b9cca4f, 0x682e6ff3,
  0x748f82ee, 0x78a5636f, 0x84c87814, 0x8cc70208, 0x90befffa, 0xa4506ceb, 0xbef9a3f7, 0xc67178f2]

/-- The eight words of a state. -/
structure State where
  a : UInt32
  b : UInt32
  c : UInt32
  d : UInt32
  e : UInt32
  f : UInt32
  g : UInt32
  h : UInt32
deriving DecidableEq, Repr

/-- The first 32 bits of the fractional parts of the square roots of the first eight primes. -/
def initial : State :=
  ⟨0x6a09e667, 0xbb67ae85, 0x3c6ef372, 0xa54ff53a, 0x510e527f, 0x9b05688c, 0x1f83d9ab, 0x5be0cd19⟩

def rotateRight (word : UInt32) (count : UInt32) : UInt32 :=
  (word >>> count) ||| (word <<< (32 - count))

/-- One round with its constant and its word of the schedule. -/
def round (state : State) (constant word : UInt32) : State :=
  let sum1 := rotateRight state.e 6 ^^^ rotateRight state.e 11 ^^^ rotateRight state.e 25
  let choice := (state.e &&& state.f) ^^^ (~~~state.e &&& state.g)
  let first := state.h + sum1 + choice + constant + word
  let sum0 := rotateRight state.a 2 ^^^ rotateRight state.a 13 ^^^ rotateRight state.a 22
  let majority := (state.a &&& state.b) ^^^ (state.a &&& state.c) ^^^ (state.b &&& state.c)
  ⟨first + sum0 + majority, state.a, state.b, state.c, state.d + first, state.e, state.f, state.g⟩

/-- The word that follows sixteen words of the schedule. -/
def nextWord (window : Array UInt32) : UInt32 :=
  let w15 := window.getD 1 0
  let w2 := window.getD 14 0
  let small0 := rotateRight w15 7 ^^^ rotateRight w15 18 ^^^ (w15 >>> 3)
  let small1 := rotateRight w2 17 ^^^ rotateRight w2 19 ^^^ (w2 >>> 10)
  window.getD 0 0 + small0 + window.getD 9 0 + small1

/-- Go through the rounds.  The window holds the sixteen words that begin with the current. -/
def rounds (state : State) (window : Array UInt32) : List UInt32 → State
  | [] => state
  | constant :: rest =>
      rounds (round state constant (window.getD 0 0))
        ((window.extract 1 16).push (nextWord window)) rest

/-- The state after one block of sixteen words. -/
def block (state : State) (words : Array UInt32) : State :=
  let mixed := rounds state words roundConstants
  ⟨state.a + mixed.a, state.b + mixed.b, state.c + mixed.c, state.d + mixed.d,
    state.e + mixed.e, state.f + mixed.f, state.g + mixed.g, state.h + mixed.h⟩

/-- The byte at a position of the padded message: the message, a one bit, zeros, and the length
in bits in the last eight bytes. -/
def paddedByte (message : ByteArray) (total position : Nat) : UInt32 :=
  if inside : position < message.size then message[position].toUInt32
  else if position = message.size then 0x80
  else if total - 8 ≤ position then
    (message.size * 8 / Nat.pow 256 (total - 1 - position) % 256).toUInt32
  else 0

/-- The big-endian word at a position of the padded message. -/
def wordAt (message : ByteArray) (total position : Nat) : UInt32 :=
  let byte (offset : Nat) := paddedByte message total (position + offset)
  (byte 0 <<< 24) ||| (byte 1 <<< 16) ||| (byte 2 <<< 8) ||| byte 3

/-- The state after the whole message. -/
def digest (message : ByteArray) : State :=
  let blocks := (message.size + 8) / 64 + 1
  (List.range blocks).foldl (fun state index =>
    block state (Array.ofFn fun word : Fin 16 =>
      wordAt message (blocks * 64) (index * 64 + word * 4))) initial

/-- A word as eight hexadecimal digits. -/
def hexWord (word : UInt32) : List Char :=
  let digits := Nat.toDigits 16 word.toNat
  List.replicate (8 - digits.length) '0' ++ digits

/-- The digest of a message as 64 hexadecimal digits. -/
def sha256 (message : ByteArray) : String :=
  let state := digest message
  String.ofList ([state.a, state.b, state.c, state.d, state.e, state.f, state.g, state.h].flatMap
    hexWord)

end CodeAtlas.Digest
