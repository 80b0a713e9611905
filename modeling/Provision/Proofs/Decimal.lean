/-
Provision.Proofs.Decimal — the runs of digits that numbers are written as.

A number is written with at least one digit, and with a zero in front only
if it is zero. No other run of digits is left out: one that keeps these two
rules is what its number is written as (`digits_value_eq_iff`).
-/
import Mathlib.Data.List.Induction
import Provision.Decimal.Basic
import Provision.Proofs.Hex

namespace Provision.Decimal

theorem digits_ne_nil (n : Nat) : digits n ≠ [] := by
  rw [digits, Nat.toDigits_eq_if (by decide)]
  split <;> simp

/-- Only zero is written with a zero in front. -/
theorem eq_nil_of_digits_eq_zero_cons {n : Nat} {ds : List Char}
    (h : digits n = '0' :: ds) : ds = [] := by
  induction n using Nat.strongRecOn generalizing ds with
  | ind n ih =>
    rw [digits, Nat.toDigits_eq_if (by decide)] at h
    split at h
    · simp only [List.cons.injEq] at h
      exact h.2.symm
    · rename_i hn
      cases hq : digits (n / 10) with
      | nil => exact absurd hq (digits_ne_nil _)
      | cons d ds' =>
        rw [show Nat.toDigits 10 (n / 10) = d :: ds' from hq, List.cons_append,
          List.cons.injEq] at h
        obtain ⟨rfl, -⟩ := h
        have hnil := ih (n / 10) (by omega) hq
        have hzero : n / 10 = 0 := by
          rw [← value_digits (n / 10), hq, hnil]
          decide
        omega

/-! ## Reading a run of digits -/

theorem digitChar_sub {c : Char} (h : c.isDigit = true) :
    c.toNat - '0'.toNat < 10 ∧ (c.toNat - '0'.toNat).digitChar = c := by
  revert h
  refine Hex.forall_char
    (P := fun c => c.isDigit = true → c.toNat - '0'.toNat < 10 ∧
      (c.toNat - '0'.toNat).digitChar = c) (by decide) (fun c hc h => ?_) c
  have hle : c.toNat ≤ 57 := (Char.isDigit_iff_toNat.mp h).2
  omega

theorem value_concat (ds : List Char) (c : Char) :
    value (ds ++ [c]) = 10 * value ds + (c.toNat - '0'.toNat) := by
  rw [value, Nat.ofDigitChars_append, Nat.ofDigitChars_cons, Nat.ofDigitChars_nil, value]

/-- **Written numbers**: a run of digits is what its number is written as
when there is no zero in front of another digit, and in no other case. -/
theorem digits_value_eq_iff {ds : List Char} :
    digits (value ds) = ds ↔
      ds ≠ [] ∧ (∀ c ∈ ds, c.isDigit = true) ∧ (ds.head? = some '0' → ds.length = 1) := by
  constructor
  · intro h
    refine ⟨h ▸ digits_ne_nil _, fun c hc => isDigit_of_mem_digits (h.symm ▸ hc), fun hhead => ?_⟩
    obtain ⟨ds', rfl⟩ := List.head?_eq_some_iff.mp hhead
    rw [eq_nil_of_digits_eq_zero_cons h, List.length_singleton]
  · rintro ⟨hne, hdigits, hzero⟩
    induction ds using List.reverseRecOn with
    | nil => exact absurd rfl hne
    | append_singleton ds c ih =>
      obtain ⟨hlt, hchar⟩ := digitChar_sub (hdigits c (by simp))
      rw [value_concat]
      cases ds with
      | nil =>
        rw [value, Nat.ofDigitChars_nil, Nat.mul_zero, Nat.zero_add, digits,
          Nat.toDigits_of_lt_base hlt, hchar, List.nil_append]
      | cons d ds =>
        have hhead : d ≠ '0' := by
          rintro rfl
          simp at hzero
        have hread : digits (value (d :: ds)) = d :: ds :=
          ih (List.cons_ne_nil d ds) (fun c hc => hdigits c (List.mem_append_left _ hc))
            fun h => absurd (Option.some.inj h) hhead
        have hpos : 0 < value (d :: ds) := by
          refine Nat.pos_of_ne_zero fun h => hhead ?_
          rw [h] at hread
          exact (List.cons.inj hread).1.symm
        calc digits (10 * value (d :: ds) + (c.toNat - '0'.toNat))
            = digits (value (d :: ds)) ++ digits (c.toNat - '0'.toNat) :=
              (Nat.toDigits_append_toDigits (by decide) hpos hlt).symm
          _ = (d :: ds) ++ [c] := by
              rw [hread, digits, Nat.toDigits_of_lt_base hlt, hchar]

end Provision.Decimal
