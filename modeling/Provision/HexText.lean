/-
Provision.HexText — hexadecimal text that is carried verbatim.

Balances, difficulties and bytecode are kept as they were written, with
their leading zeros and the case of their letters, because a genesis
document repeats them as they are. Two texts are equal when they are
spelled alike; `toNat` is the number they stand for.

The main statements are `ofText?_text`, reading undoes writing, and
`fixedWidth?_isSome_iff`, a text fits a width exactly when it has no more
significant digits.
-/
import Provision.EncodingError
import Provision.Hex

namespace Provision

/-- Text of the form `0x` and any number of hexadecimal digits. -/
structure HexText where
  digits : List Char
  digits_valid : digits.all Hex.isDigit = true
deriving DecidableEq

namespace HexText

theorem ext_digits {a b : HexText} (h : a.digits = b.digits) : a = b := by
  cases a; cases b; cases h; rfl

/-! ## Order

The order of two texts is that of their characters, and so of their bytes.
-/

instance : Ord HexText := ⟨fun a b => compare a.digits b.digits⟩

instance : Std.TransOrd HexText where
  eq_swap {a b} :=
    show compare a.digits b.digits = (compare b.digits a.digits).swap from Std.OrientedCmp.eq_swap
  isLE_trans {a b c} (h₁ : (compare a.digits b.digits).isLE) (h₂ : (compare b.digits c.digits).isLE) :=
    show (compare a.digits c.digits).isLE from Std.TransCmp.isLE_trans h₁ h₂

instance : Std.LawfulEqOrd HexText where
  compare_self {a} := show compare a.digits a.digits = .eq from Std.ReflCmp.compare_self
  eq_of_compare {a b} (h : compare a.digits b.digits = .eq) :=
    ext_digits (Std.LawfulEqCmp.eq_of_compare h)

/-! ## Text and number -/

/-- The text as it was written. -/
def text (h : HexText) : String :=
  String.ofList ('0' :: 'x' :: h.digits)

/-- The number the digits spell; no digits spell zero. -/
def toNat (h : HexText) : Nat :=
  Hex.value h.digits

/-- Reads `0x` and hexadecimal digits of either case. -/
def ofChars? : List Char → Option HexText
  | '0' :: 'x' :: ds => if h : ds.all Hex.isDigit = true then some ⟨ds, h⟩ else none
  | _ => none

/-- Reads `0x` and hexadecimal digits of either case. -/
def ofText? (s : String) : Option HexText :=
  ofChars? s.toList

/-- The text of a number, without redundant zeros. -/
def ofNat (n : Nat) : HexText :=
  ⟨Hex.digits n, Hex.digits_all n⟩

/-- **Round trip**: a text reads back as itself. -/
theorem ofText?_text (h : HexText) : ofText? h.text = some h := by
  simp [ofText?, text, ofChars?, h.digits_valid]

theorem text_injective {a b : HexText} (h : a.text = b.text) : a = b := by
  have := ofText?_text a
  rw [h, ofText?_text] at this
  exact (Option.some.inj this).symm

/-- A number is the number of its text. -/
theorem toNat_ofNat (n : Nat) : (ofNat n).toNat = n :=
  Hex.value_digits n

/-! ## Fixed width -/

/-- The digits after the leading zeros. -/
def significant (h : HexText) : List Char :=
  h.digits.dropWhile (· == '0')

/-- `0x` and exactly `width` digits of the same value, where the value
needs no more. -/
def fixedWidth? (h : HexText) (width : Nat) : Option String :=
  let ds := h.significant
  if ds.length ≤ width then
    some (String.ofList ('0' :: 'x' :: (List.replicate (width - ds.length) '0' ++ ds)))
  else none

/-- The same, or the complaint that the text is too wide. -/
def fixedWidth (h : HexText) (width : Nat) : Except EncodingError String :=
  match h.fixedWidth? width with
  | some s => .ok s
  | none => .error (.hexTooWide h.text width)

/-- The significant digits fit the width or there is no such text. -/
theorem fixedWidth?_isSome_iff (h : HexText) (width : Nat) :
    (h.fixedWidth? width).isSome ↔ h.significant.length ≤ width := by
  simp only [fixedWidth?]
  split <;> simp_all

end HexText

end Provision
