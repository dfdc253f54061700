import TilePuzzle.Board

/-!
# The digest of a board

Two hosts compare boards by a digest: the hash of the bytes that stand for a board.

## The bytes

The width, the height and, cell by cell and layer by layer, the object there; intents and the number
of the level are left out. Numbers are written with the low byte first, the sizes in eight bytes and
the objects in two; an empty slot is written as the largest two-byte number.

## The hash

The hash function SHA-256 of FIPS 180-4. The message is padded with a one bit, zeros and its length
in bits so that it fills whole blocks of sixty-four bytes, and each block is mixed into a state of
eight words.
-/

namespace TilePuzzle

/-! ## The hash -/

namespace Sha256

/-! ### Constants -/

/-- The state before the first block: fractions of the square roots of the first eight primes. -/
def initialState : Array UInt32 := #[
  0x6a09e667, 0xbb67ae85, 0x3c6ef372, 0xa54ff53a, 0x510e527f, 0x9b05688c, 0x1f83d9ab, 0x5be0cd19]

/-- One constant per round: fractions of the cube roots of the first sixty-four primes. -/
def roundConstants : Array UInt32 := #[
  0x428a2f98, 0x71374491, 0xb5c0fbcf, 0xe9b5dba5, 0x3956c25b, 0x59f111f1, 0x923f82a4, 0xab1c5ed5,
  0xd807aa98, 0x12835b01, 0x243185be, 0x550c7dc3, 0x72be5d74, 0x80deb1fe, 0x9bdc06a7, 0xc19bf174,
  0xe49b69c1, 0xefbe4786, 0x0fc19dc6, 0x240ca1cc, 0x2de92c6f, 0x4a7484aa, 0x5cb0a9dc, 0x76f988da,
  0x983e5152, 0xa831c66d, 0xb00327c8, 0xbf597fc7, 0xc6e00bf3, 0xd5a79147, 0x06ca6351, 0x14292967,
  0x27b70a85, 0x2e1b2138, 0x4d2c6dfc, 0x53380d13, 0x650a7354, 0x766a0abb, 0x81c2c92e, 0x92722c85,
  0xa2bfe8a1, 0xa81a664b, 0xc24b8b70, 0xc76c51a3, 0xd192e819, 0xd6990624, 0xf40e3585, 0x106aa070,
  0x19a4c116, 0x1e376c08, 0x2748774c, 0x34b0bcb5, 0x391c0cb3, 0x4ed8aa4a, 0x5b9cca4f, 0x682e6ff3,
  0x748f82ee, 0x78a5636f, 0x84c87814, 0x8cc70208, 0x90befffa, 0xa4506ceb, 0xbef9a3f7, 0xc67178f2]

/-! ### Padding -/

/-- The message followed by a one bit, zeros and its length, filling whole blocks. -/
def pad (message : Array UInt8) : Array UInt8 :=
  let zeros := (119 - message.size % 64) % 64
  let bits := 8 * message.size
  let length := (List.range 8).map fun i ↦ UInt8.ofNat (bits >>> (8 * (7 - i)))
  (message.push 0x80) ++ Array.replicate zeros (0 : UInt8) ++ length.toArray

/-! ### Mixing one block -/

/-- A rotation of a word to the right. -/
def rotate (x : UInt32) (n : UInt32) : UInt32 := (x >>> n) ||| (x <<< (32 - n))

/-- The sixteen words of the block that starts at a byte, big-endian. -/
def blockWords (bytes : Array UInt8) (start : Nat) : Array UInt32 :=
  (Array.range 16).map fun i ↦
    let byte (k : Nat) : UInt32 := (bytes.getD (start + 4 * i + k) 0).toUInt32
    (byte 0 <<< 24) ||| (byte 1 <<< 16) ||| (byte 2 <<< 8) ||| byte 3

/-- The sixty-four words that the rounds use. -/
def schedule (words : Array UInt32) : Array UInt32 :=
  (List.range 48).foldl (fun w i ↦
    let a := w.getD (i + 1) 0
    let b := w.getD (i + 14) 0
    let s₀ := rotate a 7 ^^^ rotate a 18 ^^^ (a >>> 3)
    let s₁ := rotate b 17 ^^^ rotate b 19 ^^^ (b >>> 10)
    w.push (w.getD i 0 + s₀ + w.getD (i + 9) 0 + s₁)) words

/-- The eight words of the state while a block is mixed in. -/
structure Working where
  a : UInt32
  b : UInt32
  c : UInt32
  d : UInt32
  e : UInt32
  f : UInt32
  g : UInt32
  h : UInt32

/-- One round, with its word and its constant added. -/
def Working.round (s : Working) (word : UInt32) : Working :=
  let s₁ := rotate s.e 6 ^^^ rotate s.e 11 ^^^ rotate s.e 25
  let choice := (s.e &&& s.f) ^^^ (~~~s.e &&& s.g)
  let t₁ := s.h + s₁ + choice + word
  let s₀ := rotate s.a 2 ^^^ rotate s.a 13 ^^^ rotate s.a 22
  let majority := (s.a &&& s.b) ^^^ (s.a &&& s.c) ^^^ (s.b &&& s.c)
  ⟨t₁ + s₀ + majority, s.a, s.b, s.c, s.d + t₁, s.e, s.f, s.g⟩

/-- Mixes the block that starts at a byte into the state. -/
def mix (bytes : Array UInt8) (state : Array UInt32) (start : Nat) : Array UInt32 :=
  let words := schedule (blockWords bytes start)
  let word (i : Nat) : UInt32 := state.getD i 0
  let before : Working := ⟨word 0, word 1, word 2, word 3, word 4, word 5, word 6, word 7⟩
  let after := (List.range 64).foldl
    (fun s i ↦ s.round (roundConstants.getD i 0 + words.getD i 0)) before
  #[word 0 + after.a, word 1 + after.b, word 2 + after.c, word 3 + after.d,
    word 4 + after.e, word 5 + after.f, word 6 + after.g, word 7 + after.h]

/-! ### The digest -/

/-- The digest of a message: thirty-two bytes. -/
def digest (message : List UInt8) : List UInt8 :=
  let bytes := pad message.toArray
  let state := (List.range (bytes.size / 64)).foldl (fun s k ↦ mix bytes s (64 * k)) initialState
  state.toList.flatMap fun (word : UInt32) ↦
    [(word >>> 24).toUInt8, (word >>> 16).toUInt8, (word >>> 8).toUInt8, word.toUInt8]

/-- Bytes written as lower-case hexadecimal digits, two each. -/
def hex (bytes : List UInt8) : String :=
  .ofList (bytes.flatMap fun byte ↦
    [Nat.digitChar (byte.toNat / 16), Nat.digitChar (byte.toNat % 16)])

end Sha256

/-! ## Bytes and digest of a board -/

/-- A number in a fixed count of bytes, the low byte first. -/
def littleEndian (count n : Nat) : List UInt8 :=
  (List.range count).map fun i ↦ .ofNat (n >>> (8 * i))

/-- The two-byte number of a slot: its object, or 65535 where there is none. -/
def Cell.slotCode : Option Occupant → Nat
  | none => 65535
  | some occupant => occupant.object.index

namespace Board

/-- The bytes that stand for the board. -/
def bytes (board : Board) : List UInt8 :=
  littleEndian 8 board.width ++ littleEndian 8 board.height ++
    board.cells.toList.flatMap fun cell ↦
      cell.slots.flatMap fun slot ↦ littleEndian 2 (Cell.slotCode slot)

/-- The digest of the board, in hexadecimal. -/
def digest (board : Board) : String := Sha256.hex (Sha256.digest board.bytes)

end Board

end TilePuzzle
