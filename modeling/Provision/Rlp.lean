/-
Provision.Rlp — the recursive length encoding of byte strings and lists.

An item is a byte string or a list of items. It is written as a header
that tells its kind and length, followed by its content; a single byte
below 128 stands for itself. There is one way to write an item, and
`decode` accepts no other: every header is the shortest one, and nothing
follows the item.
-/

namespace Provision

/-- A byte string or a list of items. -/
inductive Rlp where
  | bytes (b : List UInt8)
  | list (items : List Rlp)
deriving Repr

namespace Rlp

/-! ## Writing -/

/-- The bytes of a number, the most significant first. -/
def bigEndian (n : Nat) : List UInt8 :=
  if n < 256 then [UInt8.ofNat n] else bigEndian (n / 256) ++ [UInt8.ofNat (n % 256)]
termination_by n

/-- The header of a content of so many bytes. The kind is told by `base`. -/
def header (base length : Nat) : List UInt8 :=
  if length < 56 then [UInt8.ofNat (base + length)]
  else
    let digits := bigEndian length
    UInt8.ofNat (base + 55 + digits.length) :: digits

/-- What the header of a byte string starts from. -/
def bytesBase : Nat := 0x80

/-- What the header of a list starts from. -/
def listBase : Nat := 0xC0

/-- A byte string with its header, unless it is a byte that stands for itself. -/
def encodeBytes (b : List UInt8) : List UInt8 :=
  match b with
  | [x] => if x < 0x80 then [x] else header bytesBase 1 ++ [x]
  | b => header bytesBase b.length ++ b

mutual
/-- The bytes of an item. -/
def encode : Rlp → List UInt8
  | .bytes b => encodeBytes b
  | .list items =>
    let content := encodeItems items
    header listBase content.length ++ content
/-- The bytes of items, one after the other. -/
def encodeItems : List Rlp → List UInt8
  | [] => []
  | item :: items => encode item ++ encodeItems items
end

/-! ## Reading -/

/-- The number that bytes spell, the most significant first. -/
def number (b : List UInt8) : Nat :=
  b.foldl (fun n x => 256 * n + x.toNat) 0

/-- So many bytes, and what follows them. -/
def take? (n : Nat) (b : List UInt8) : Option (List UInt8 × List UInt8) :=
  if n ≤ b.length then some (b.take n, b.drop n) else none

/-- The content behind a header of `k` digits of length, and what follows
it. The first digit must not be zero, nor the length one of the short kind. -/
def takeLong? (k : Nat) (b : List UInt8) : Option (List UInt8 × List UInt8) := do
  let (digits, b) ← take? k b
  if digits.head? = some 0 ∨ number digits < 56 then none
  else take? (number digits) b

/-- The content of an item, and what follows the item. A list has the
bytes of its items for content. -/
inductive Piece where
  | bytes (content rest : List UInt8)
  | list (content rest : List UInt8)

/-- Takes the first item of bytes apart. -/
def piece? : List UInt8 → Option Piece
  | [] => none
  | x :: b =>
    let n := x.toNat
    if n < 0x80 then some (.bytes [x] b)
    else if n < 0xB8 then do
      let (content, rest) ← take? (n - 0x80) b
      match content with
      | [y] => if y < 0x80 then none else some (.bytes [y] rest)
      | content => some (.bytes content rest)
    else if n < 0xC0 then do
      let (content, rest) ← takeLong? (n - 0xB7) b
      some (.bytes content rest)
    else if n < 0xF8 then do
      let (content, rest) ← take? (n - 0xC0) b
      some (.list content rest)
    else do
      let (content, rest) ← takeLong? (n - 0xF7) b
      some (.list content rest)

mutual
/-- Reads an item within a bound on its depth; returns what follows it. -/
def readItem : Nat → List UInt8 → Option (Rlp × List UInt8)
  | 0, _ => none
  | fuel + 1, b =>
    match piece? b with
    | none => none
    | some (.bytes content rest) => some (.bytes content, rest)
    | some (.list content rest) => (readItems fuel content).map fun items => (.list items, rest)
/-- Reads items until the bytes end. -/
def readItems : Nat → List UInt8 → Option (List Rlp)
  | _, [] => some []
  | 0, _ :: _ => none
  | fuel + 1, b =>
    match readItem fuel b with
    | none => none
    | some (item, rest) => (readItems fuel rest).map (item :: ·)
end

/-- The item that the bytes are. Reading a byte takes two steps at most. -/
def decode (b : List UInt8) : Option Rlp :=
  match readItem (2 * b.length) b with
  | some (item, []) => some item
  | _ => none

end Rlp

end Provision
