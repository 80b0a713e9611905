/-
Provision.Keccak — the Keccak-256 digest.

The state is a square of five by five lanes of 64 bits, lane `(x, y)` at
index `x + 5 * y`. A round is the composition of its five steps, written
lane by lane; a digest absorbs the padded message in blocks of 136 bytes
and reads the first 32 bytes of the state.
-/
import Provision.FixedBytes

namespace Provision.Keccak

/-- The lanes of the sponge. -/
abbrev State := Vector UInt64 25

/-- The lane of a column and a row, both counted modulo five. -/
def State.lane (a : State) (x y : Nat) : UInt64 :=
  a.get ⟨x % 5 + 5 * (y % 5), by omega⟩

/-- The state whose lanes are given by column and row. -/
def State.ofLanes (f : Nat → Nat → UInt64) : State :=
  Vector.ofFn fun i => f (i.val % 5) (i.val / 5)

/-- Rotation of a lane to the left. -/
def rotate (w : UInt64) (k : UInt64) : UInt64 :=
  if k = 0 then w else (w <<< k) ||| (w >>> (64 - k))

/-- How far each lane is rotated. -/
def rotations : Vector UInt64 25 :=
  #v[0, 1, 62, 28, 27, 36, 44, 6, 55, 20, 3, 10, 43, 25, 39, 41, 45, 15, 21, 8, 18, 2, 61, 56, 14]

/-- What each round adds to the first lane. -/
def roundConstants : List UInt64 :=
  [0x0000000000000001, 0x0000000000008082, 0x800000000000808a, 0x8000000080008000,
   0x000000000000808b, 0x0000000080000001, 0x8000000080008081, 0x8000000000008009,
   0x000000000000008a, 0x0000000000000088, 0x0000000080008009, 0x000000008000000a,
   0x000000008000808b, 0x800000000000008b, 0x8000000000008089, 0x8000000000008003,
   0x8000000000008002, 0x8000000000000080, 0x000000000000800a, 0x800000008000000a,
   0x8000000080008081, 0x8000000000008080, 0x0000000080000001, 0x8000000080008008]

/-! ## The steps of a round -/

/-- The parity of each column, by column. -/
def parities (a : State) : Vector UInt64 5 :=
  Vector.ofFn fun x =>
    a.lane x 0 ^^^ a.lane x 1 ^^^ a.lane x 2 ^^^ a.lane x 3 ^^^ a.lane x 4

/-- Adds to each lane the parities of the columns beside it. -/
def mixColumns (a : State) : State :=
  let c := parities a
  .ofLanes fun x y =>
    a.lane x y ^^^ c.get ⟨(x + 4) % 5, by omega⟩ ^^^ rotate (c.get ⟨(x + 1) % 5, by omega⟩) 1

/-- Rotates every lane and moves it to its new place. -/
def moveLanes (a : State) : State :=
  .ofLanes fun x y => rotate (a.lane (x + 3 * y) x) (State.lane rotations (x + 3 * y) x)

/-- Combines each lane with the next two of its row. -/
def mixRows (b : State) : State :=
  .ofLanes fun x y => b.lane x y ^^^ (~~~ b.lane (x + 1) y &&& b.lane (x + 2) y)

/-- One round with its constant. -/
def round (a : State) (constant : UInt64) : State :=
  let b := mixRows (moveLanes (mixColumns a))
  b.set 0 (b[0] ^^^ constant)

/-- The permutation of the state. -/
def permute (a : State) : State :=
  roundConstants.foldl round a

/-! ## The sponge -/

/-- The number of message bytes a block holds. -/
def rate : Nat := 136

/-- A number from its bytes, the least significant first. -/
def wordOfBytes (bytes : List UInt8) : UInt64 :=
  bytes.foldr (fun b w => (w <<< 8) ||| b.toUInt64) 0

/-- The bytes of a word, the least significant first. -/
def bytesOfWord (w : UInt64) : List UInt8 :=
  (List.range 8).map fun i => (w >>> (8 * i.toUInt64)).toUInt8

/-- Adds a block to the state and permutes it. -/
def absorb (a : State) (block : List UInt8) : State :=
  permute <| Vector.ofFn fun i => a[i] ^^^ wordOfBytes ((block.drop (8 * i)).take 8)

/-- Fills the message up to whole blocks: a one bit, zeros, a one bit. -/
def pad (message : List UInt8) : List UInt8 :=
  let room := rate - message.length % rate
  message ++
    if room = 1 then [0x81] else 0x01 :: List.replicate (room - 2) 0 ++ [0x80]

/-- The message in blocks. -/
def blocks (message : List UInt8) : List (List UInt8) :=
  (List.range (message.length / rate)).map fun i => (message.drop (rate * i)).take rate

/-- The 32 bytes of the Keccak-256 digest. -/
def digest (message : List UInt8) : List UInt8 :=
  let final := (blocks (pad message)).foldl absorb (Vector.replicate 25 0)
  (final.toList.take 4).flatMap bytesOfWord

end Provision.Keccak
