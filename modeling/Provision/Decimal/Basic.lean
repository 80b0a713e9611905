/-
Provision.Decimal.Basic — natural numbers in decimal.

`digits` writes a number without redundant zeros and `value` reads a run
of digits; `value_digits` says that reading undoes writing. `readBelow`
is the reader of small unsigned numbers such as ports.
-/

-- A power of naturals is that of the core library also beside Mathlib, which
-- would read it as the power of a monoid.
attribute [instance (high + 1), default_instance high + 1] instPowNat

namespace Provision.Decimal

/-! ## Writing and reading -/

/-- The decimal digits of a number, without redundant zeros. -/
def digits (n : Nat) : List Char :=
  Nat.toDigits 10 n

/-- The decimal text of a number. -/
def text (n : Nat) : String :=
  String.ofList (digits n)

/-- The decimal text of an integer, with a hyphen before a negative one. -/
def signedText (n : Int) : String :=
  (if n < 0 then "-" else "") ++ text n.natAbs

/-- The number a run of decimal digits spells. -/
def value (ds : List Char) : Nat :=
  Nat.ofDigitChars 10 ds 0

/-- Reading the digits of a number gives the number back. -/
theorem value_digits (n : Nat) : value (digits n) = n :=
  Nat.ofDigitChars_toDigits (by decide) (by decide)

theorem isDigit_of_mem_digits {n : Nat} {c : Char} (h : c ∈ digits n) : c.isDigit = true :=
  Nat.isDigit_of_mem_toDigits (by decide) (by decide) h

/-- Distinct numbers have distinct texts. -/
theorem digits_injective {m n : Nat} (h : digits m = digits n) : m = n := by
  rw [← value_digits m, h, value_digits]

/-! ## Bounded unsigned numbers -/

/-- Drops one leading plus sign. -/
def dropPlus : List Char → List Char
  | '+' :: rest => rest
  | s => s

/-- Reads an unsigned number below `bound`: digits, leading zeros allowed,
after an optional plus sign. -/
def readBelow (bound : Nat) (s : List Char) : Option Nat :=
  let ds := dropPlus s
  if ds ≠ [] ∧ ds.all Char.isDigit ∧ value ds < bound then some (value ds) else none

theorem readBelow_eq_some_iff {bound : Nat} {s : List Char} {n : Nat} :
    readBelow bound s = some n ↔
      dropPlus s ≠ [] ∧ (dropPlus s).all Char.isDigit ∧ value (dropPlus s) = n ∧ n < bound := by
  simp only [readBelow]
  split
  · rename_i h
    obtain ⟨hne, hall, hlt⟩ := h
    simp only [Option.some.injEq]
    exact ⟨fun h => ⟨hne, hall, h, h ▸ hlt⟩, fun h => h.2.2.1⟩
  · rename_i h
    simp only [reduceCtorEq, false_iff]
    rintro ⟨hne, hall, rfl, hlt⟩
    exact h ⟨hne, hall, hlt⟩

end Provision.Decimal
