/-
Provision.Json.Number — number literals and what they stand for.

A literal that is a plain run of digits stands for a natural or a negative
integer where it fits 64 bits. Every other literal, and `-0`, stands for a
double, computed in this way: the digits are gathered into a 64 bit
significand until one does not fit, later digits of the whole part only
raise the exponent and later digits of the fraction are dropped; the
significand is rounded to a double and multiplied or divided by a power of
ten. A literal whose double would be infinite stands for nothing.
-/
import Provision.Decimal.Basic

namespace Provision.Json

/-- A number as it is written. -/
structure NumberLiteral where
  negative : Bool
  /-- The digits before the point: at least one. -/
  whole : List Char
  /-- The digits after the point; none when there is no point. -/
  fraction : List Char
  /-- The sign and digits after the `e`. -/
  exponent : Option (Bool × List Char)
deriving DecidableEq, Repr

/-- What a literal stands for. -/
inductive Number where
  | natural (n : UInt64)
  /-- The negative integer of this magnitude, which is from 1 to 2 ^ 63. -/
  | negative (magnitude : Nat)
  | real (x : Float)

namespace NumberLiteral

/-- The literal of a natural number. -/
def ofNat (n : Nat) : NumberLiteral := ⟨false, Decimal.digits n, [], none⟩

/-- Gathers digits while the result fits 64 bits, and leaves the others. -/
def gather (significand : Nat) : List Char → Nat × List Char
  | [] => (significand, [])
  | d :: ds =>
    let next := 10 * significand + (d.toNat - 48)
    if next < 2 ^ 64 then gather next ds else (significand, d :: ds)

/-- `10 ^ k` as a double. -/
def powerOfTen (k : Nat) : Float :=
  Float.ofScientific 1 false k

/-- `x · 10 ^ exponent`, in steps that a double can hold; nothing if the
result is infinite. A number that has become zero stays zero. -/
def scale (x : Float) (exponent : Int) : Nat → Option Float
  | 0 => some x
  | steps + 1 =>
    if exponent.natAbs ≤ 308 then
      if 0 ≤ exponent then
        let y := x * powerOfTen exponent.natAbs
        if y.isInf then none else some y
      else some (x / powerOfTen exponent.natAbs)
    else if x == 0 then some x
    else if 0 ≤ exponent then none
    else scale (x / powerOfTen 308) (exponent + 308) steps

/-- The double a literal stands for. -/
def toReal? (l : NumberLiteral) : Option Float :=
  let (wholeSignificand, wholeLeft) := gather 0 l.whole
  let (significand, fractionLeft) := gather wholeSignificand l.fraction
  let start : Int := (wholeLeft.length : Int) - ((l.fraction.length - fractionLeft.length : Nat) : Int)
  let x := significand.toUInt64.toFloat
  let magnitude :=
    match l.exponent with
    | none => scale x start 8
    | some (down, ds) =>
      let e := Decimal.value ds
      if e < 2 ^ 31 then scale x (if down then start - e else start + e) 8
      else if significand ≠ 0 ∧ down = false then none
      else some 0
  magnitude.map fun x => if l.negative then -x else x

/-- What a literal stands for, if its value is finite. -/
def read (l : NumberLiteral) : Option Number :=
  let n := Decimal.value l.whole
  if l.fraction = [] ∧ l.exponent = none ∧ n < 2 ^ 64 then
    if l.negative = false then some (.natural n.toUInt64)
    else if 0 < n ∧ n ≤ 2 ^ 63 then some (.negative n)
    else some (.real (-(n.toUInt64.toFloat)))
  else l.toReal?.map .real

/-- The digits that are left once a number has grown to `2 ^ 31`. -/
def afterOverflow (n : Nat) : List Char → List Char
  | [] => []
  | d :: ds =>
    let next := 10 * n + (d.toNat - 48)
    if next < 2 ^ 31 then afterOverflow next ds else ds

/-- The digits that are left when it shows that the literal stands for
nothing: an exponent that is too large is not read to its end. -/
def unread (l : NumberLiteral) : List Char :=
  match l.exponent with
  | some (_, ds) => afterOverflow 0 ds
  | none => []

/-- The literal of a number below 2 ^ 64 stands for it. -/
theorem read_ofNat (n : UInt64) : (ofNat n.toNat).read = some (.natural n) := by
  have h : n.toNat < 2 ^ 64 := n.toNat_lt
  simp only [read, ofNat, Decimal.value_digits]
  rw [if_pos ⟨trivial, trivial, h⟩, if_pos trivial, Nat.toUInt64_eq, UInt64.ofNat_toNat]

end NumberLiteral

end Provision.Json
