/-
Provision.Decimal.Shortest — the shortest decimal text of a floating point
number.

A finite positive double is `mantissa · 2 ^ exponent`. The reals that
round to it form an interval, closed when the mantissa is even.
`shortest` looks for the fewest decimal digits that name a point of that
interval, trying one digit, two digits and so on up to seventeen; on the
grid of a given number of digits only the two neighbours of the value can
be nearest, so only they are tested. `FloatStyle` says how the digits are
laid out.
-/
import Provision.Decimal.Basic

namespace Provision.Decimal

/-! ## The value of a double -/

/-- A positive double taken apart: `mantissa · 2 ^ exponent`, and whether
the gap below it is half the gap above (at a power of two). -/
structure Binary where
  mantissa : Nat
  exponent : Int
  narrowBelow : Bool
deriving Repr, DecidableEq

/-- Takes apart the bits of a finite double, its sign apart. -/
def Binary.ofBits (bits : UInt64) : Binary :=
  let fraction := bits.toNat % 2 ^ 52
  let exponent := bits.toNat / 2 ^ 52 % 2 ^ 11
  if exponent = 0 then ⟨fraction, -1074, false⟩
  else ⟨2 ^ 52 + fraction, Int.ofNat exponent - 1075, fraction = 0 && 1 < exponent⟩

/-- The ends of the interval that rounds to the number and the number
itself, over a common denominator. -/
structure Interval where
  low : Nat
  mid : Nat
  high : Nat
  den : Nat
  closed : Bool
deriving Repr, DecidableEq

/-- The interval of reals that round to a double. -/
def Binary.interval (b : Binary) : Interval :=
  let scale := b.exponent - 2
  let up := 2 ^ scale.toNat
  let m := 4 * b.mantissa
  ⟨(m - if b.narrowBelow then 1 else 2) * up, m * up, (m + 2) * up,
    2 ^ (-scale).toNat, b.mantissa % 2 = 0⟩

/-! ## The fewest digits -/

/-- A decimal number `digits · 10 ^ exponent`. -/
structure Scaled where
  digits : Nat
  exponent : Int
deriving Repr, DecidableEq

/-- Whether `n · 10 ^ k` lies in the interval. -/
def Interval.holds (i : Interval) (n : Nat) (k : Int) : Bool :=
  let x := n * 10 ^ k.toNat * i.den
  let unit := 10 ^ (-k).toNat
  if i.closed then i.low * unit ≤ x && x ≤ i.high * unit
  else i.low * unit < x && x < i.high * unit

/-- The nearest point of the grid of step `10 ^ k` that lies in the
interval; of two equally near ones the even. -/
def Interval.onGrid? (i : Interval) (k : Int) : Option Scaled :=
  let num := i.mid * 10 ^ (-k).toNat
  let den := i.den * 10 ^ k.toNat
  let below := num / den
  let rest := num % den
  let upFirst := den < 2 * rest || (2 * rest = den && below % 2 = 1)
  let first := if upFirst then below + 1 else below
  let second := if upFirst then below else below + 1
  if 0 < first && i.holds first k then some ⟨first, k⟩
  else if 0 < second && i.holds second k then some ⟨second, k⟩
  else none

/-- The decimal exponent of the leading digit of `num / den`. -/
def leadingExponent (num den : Nat) : Int :=
  if den ≤ num then (digits (num / den)).length - 1
  else
    let shift := ((List.range 400).find? fun k => den ≤ num * 10 ^ k).getD 400
    0 - (shift : Int)

/-- The decimal of the fewest digits in the interval, and of those the
nearest to the number. -/
def Interval.shortest (i : Interval) : Scaled :=
  let lead := leadingExponent i.mid i.den
  ((List.range 17).findSome? fun n => i.onGrid? (lead - Int.ofNat n)).getD
    ⟨i.mid / i.den, 0⟩

/-! ## Layout -/

/-- How a shortest decimal is laid out. -/
structure FloatStyle where
  /-- The least exponent of the leading digit that is written positionally. -/
  least : Int
  /-- The greatest such exponent. -/
  greatest : Int

/-- The layout of numbers in messages: positional from `1e-5` up to below
`1e16`, and with an exponent elsewhere. -/
def FloatStyle.message : FloatStyle := ⟨-5, 15⟩

/-- Lays out a decimal. A positional number always has a point, and an
exponent always has a sign. -/
def FloatStyle.layOut (style : FloatStyle) (d : Scaled) : List Char :=
  let trailing := (digits d.digits).reverse.takeWhile (· == '0')
  let ds := (digits d.digits).take ((digits d.digits).length - trailing.length)
  let lead : Int := d.exponent + trailing.length + (ds.length - 1)
  if style.least ≤ lead ∧ lead ≤ style.greatest then
    if lead < 0 then
      ['0', '.'] ++ List.replicate (-lead - 1).toNat '0' ++ ds
    else
      let whole := lead.toNat + 1
      let padded := ds ++ List.replicate (whole - ds.length) '0'
      padded.take whole ++ ['.'] ++
        (if ds.length ≤ whole then ['0'] else padded.drop whole)
  else
    ds.take 1 ++ (if ds.length ≤ 1 then [] else '.' :: ds.drop 1) ++
      ['e', if lead < 0 then '-' else '+'] ++ digits lead.natAbs

/-- The text of a finite double. -/
def FloatStyle.text (style : FloatStyle) (x : Float) : String :=
  let bits := x.toBits
  let negative := 2 ^ 63 ≤ bits.toNat
  let body := Binary.ofBits bits
  String.ofList <| (if negative then ['-'] else []) ++
    if body.mantissa = 0 then ['0', '.', '0'] else style.layOut body.interval.shortest

end Provision.Decimal
