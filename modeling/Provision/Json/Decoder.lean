/-
Provision.Json.Decoder — reading values of a type from a tree.

A decoder walks a tree in the order of its text and reports the first
thing that is wrong: a flaw, a break, or a value that does not fit. Where
a value of another type is found, a text or a number is still read in full
before it is named, but an array or an object is named by its opening
bracket.

There is one reader that does not mind a flaw. After the last byte of an
address or a hash it tries to read one byte more, and when that fails it
goes on from where the attempt stopped. What follows there is not what
the tree has, so the decoder halts, and `decodeDocument` has it read the
text in which `null`, which the attempt would have taken in full, stands
for what it took.
-/
import Provision.Json.Misfit
import Provision.Json.Reader
import Provision.HexText

namespace Provision.Json

/-- Why a decoder goes no further. -/
inductive Halt where
  /-- The text is not the description it should be. -/
  | failed (f : Failure)
  /-- A flawed part is to be passed over from where its reader stopped. -/
  | skipped (f : Flaw)

/-- Reads a value of a type from a tree. -/
abbrev Decoder (α : Type) := Source → Except Halt α

/-- Stops at a fault. -/
def fail {α : Type} (f : Fault) : Except Halt α := .error (.failed (.fault f))

/-- Stops at a value that does not fit. -/
def refuse {α : Type} (m : Misfit) : Except Halt α := .error (.failed (.misfit m))

/-- Goes on unless there is a fault. -/
def proceed : Option Fault → Except Halt Unit
  | some f => fail f
  | none => .ok ()

/-- Stops at a value that is of another type than expected. -/
def mismatch {α : Type} (expected : String) : Source → Except Halt α
  | .flawed f => fail f.stop.fault
  | .null => refuse (.wrongType .null expected)
  | .bool b => refuse (.wrongType (.boolean b) expected)
  | .number (.natural n) => refuse (.wrongType (.integer n.toNat) expected)
  | .number (.negative n) => refuse (.wrongType (.integer (-(n : Int))) expected)
  | .number (.real x) => refuse (.wrongType (.real x) expected)
  | .text s => refuse (.wrongType (.string s) expected)
  | .array .. => refuse (.wrongType .sequence expected)
  | .object .. => refuse (.wrongType .map expected)

/-! ## Scalars -/

/-- Reads the key of a member. -/
def readKey : Key → Except Halt String
  | some key => .ok key
  | none => fail .malformed

/-- Reads a text. -/
def decodeText : Decoder String
  | .text s => .ok s
  | s => mismatch "a string" s

/-- Reads a boolean. -/
def decodeBool : Decoder Bool
  | .bool b => .ok b
  | s => mismatch "a boolean" s

/-- Reads a natural number below `2 ^ width`, of the type called `name`. -/
def decodeNat (width : Nat) (name : String) : Decoder Nat
  | .number (.natural n) =>
    if n.toNat < 2 ^ width then .ok n.toNat
    else refuse (.wrongInteger n.toNat name)
  | .number (.negative n) => refuse (.wrongInteger (-(n : Int)) name)
  | s => mismatch name s

/-- Reads a number of 64 bits. -/
def decodeUInt64 : Decoder UInt64 := fun s => (decodeNat 64 "u64" s).map Nat.toUInt64

/-- Reads a number of 16 bits. -/
def decodeUInt16 : Decoder UInt16 := fun s => (decodeNat 16 "u16" s).map Nat.toUInt16

/-- Reads a byte. -/
def decodeByte : Decoder UInt8 := fun s => (decodeNat 8 "u8" s).map Nat.toUInt8

/-- Reads a value that may be absent: `null` says that it is, and what
begins like it must be it. -/
def decodeOption {α : Type} (decode : Decoder α) : Decoder (Option α)
  | .null => .ok none
  | .flawed f =>
    if f.start.head? = some 'n' then fail f.stop.fault else (decode (.flawed f)).map some
  | s => (decode s).map some

/-- Reads verbatim hexadecimal text. -/
def readHexText (s : String) : Except Halt HexText :=
  match HexText.ofText? s with
  | some h => .ok h
  | none => refuse (.refused (.invalidHex s))

/-- Reads verbatim hexadecimal text. -/
def decodeHexText : Decoder HexText := fun s => decodeText s >>= readHexText

/-! ## Sequences -/

/-- Reads the elements of an array in order. -/
def decodeItems {α : Type} (decode : Decoder α) : List Source → Except Halt (List α)
  | [] => .ok []
  | s :: ss => do
    let a ← decode s
    let as ← decodeItems decode ss
    .ok (a :: as)

/-- Reads an array of any length. -/
def decodeList {α : Type} (decode : Decoder α) : Decoder (List α)
  | .array items closing => do
    let as ← decodeItems decode items
    proceed closing.wanted
    .ok as
  | s => mismatch "a sequence" s

/-- `1 element`, `2 elements` and so on. -/
def elementCount (n : Nat) : String :=
  Decimal.text n ++ if n = 1 then " element" else " elements"

/-- Goes on when an array or object ends after `count` parts, where `items`
are those that are left. An array in memory is refused for its length; in
a text the comma is what is wrong. -/
def finish (count : Nat) (items : List Source) (closing : Closing) : Except Halt Unit :=
  match items, closing with
  | [], .dangling _ => fail .malformed
  | [], closing => proceed closing.wanted
  | _ :: _, .held =>
    refuse (.wrongLength (count + items.length) (elementCount count ++ " in sequence"))
  | _ :: _, _ => fail .malformed

/-! ## Bytes -/

/-- What a value of fixed length may be. -/
def bytesExpectation (n : Nat) : String :=
  Decimal.text n ++ " bytes, represented as a hex string of length " ++ Decimal.text (2 * n) ++
    ", an array of u8, or raw bytes"

/-- Reads `n` more bytes, of which `i` have been read; what follows them
is left. -/
def decodeBytes (total : Nat) (closing : Closing) :
    Nat → Nat → List Source → Except Halt (List UInt8 × List Source)
  | 0, _, items => .ok ([], items)
  | _ + 1, i, [] => do
    proceed closing.wanted
    refuse (.wrongLength i ("exactly " ++ Decimal.text total ++ " bytes"))
  | n + 1, i, s :: ss => do
    let b ← decodeByte s
    let (bs, rest) ← decodeBytes total closing n (i + 1) ss
    .ok (b :: bs, rest)

/-- Goes on when an array of `n` bytes ends. One more byte is too many;
one more scalar of another kind is passed over, even a flawed one, and so
is a comma. Brackets are passed over in memory only: in a text the attempt
to read a byte takes nothing of them. -/
def finishBytes (n : Nat) (items : List Source) (closing : Closing) : Except Halt Unit :=
  match items with
  | [] =>
    match closing with
    | .dangling _ => .ok ()
    | closing => proceed closing.wanted
  | .flawed f :: _ => .error (.skipped f)
  | .array .. :: rest | .object .. :: rest =>
    if closing = .held then finish (n + 1) rest closing else fail .malformed
  | s :: rest =>
    match decodeByte s with
    | .ok _ => refuse (.wrongLength (n + 1) ("exactly " ++ Decimal.text n ++ " bytes"))
    | .error _ => finish (n + 1) rest closing

/-- Reads bytes: hexadecimal text or an array of numbers. -/
def decodeFixedBytes (n : Nat) : Decoder (FixedBytes n)
  | .text s =>
    match FixedBytes.ofText n s with
    | .ok b => .ok b
    | .error fault => refuse (.badBytes fault)
  | .array items closing => do
    let (bytes, rest) ← decodeBytes n closing n 0 items
    finishBytes n rest closing
    match FixedBytes.ofBytes? n bytes with
    | some b => .ok b
    | none => refuse (.wrongLength bytes.length (bytesExpectation n))
  | s => mismatch (bytesExpectation n) s

/-! ## Names -/

/-- The value a name stands for. -/
def readName {α : Type} (names : List (String × α)) (name : String) : Except Halt α :=
  match names.lookup name with
  | some a => .ok a
  | none => refuse (.unknownVariant name (names.map Prod.fst))

/-- The fault that a reader of a name meets at a flaw: unless a text
begins there, it looks no further than the first character. -/
def Flaw.asName (f : Flaw) : Fault :=
  if f.start.head? = some '"' then f.stop.fault else (Stop.before f.start).fault

/-- Reads one of several names: as a text, or as the only key of an object
whose value is `null`. Anything else is malformed, not of a wrong type. -/
def decodeVariant {α : Type} (names : List (String × α)) : Decoder α
  | .text name => readName names name
  | .object [] closing => fail (closing.wanted.getD .malformed)
  | .object ((key, value) :: more) closing => do
    let a ← readKey key >>= readName names
    match value with
    | .null => .ok ()
    | value => mismatch "unit" value
    match more with
    | [] => finish 1 [] closing
    | _ :: _ => fail .malformed
    .ok a
  | .flawed f => fail f.asName
  | _ => fail .malformed

/-! ## Whole texts -/

/-- Reads a text that holds one value and nothing after it, passing over
at most so many flaws. -/
def decodeChars {α : Type} (decode : Decoder α) : Nat → List Char → Except Failure α
  | 0, _ => .error (.fault .malformed)
  | flaws + 1, s =>
    let d := Document.ofChars s
    match decode d.value with
    | .ok a => if d.trailing then .error (.fault .malformed) else .ok a
    | .error (.failed f) => .error f
    | .error (.skipped f) => decodeChars decode flaws (f.mend s)

/-- Reads a text that holds one value and nothing after it. A flaw that is
passed over stands after all those before it, so there are fewer than the
text has characters. -/
def decodeDocument {α : Type} (decode : Decoder α) (text : String) : Except Failure α :=
  decodeChars decode (text.length + 1) text.toList

end Provision.Json
