/-
Provision.Proofs.Json.Scalar — quoted texts and numbers are read back.

A written part is followed by the rest of the document, so every statement
is about the part with something behind it, and says that the reader stops
exactly where the part ends. After the quotation mark of a text anything
may follow (`readText_quoted`); a number must not run on (`Ends`), which no
comma, bracket or blank makes it do (`readNumber_digits`).
-/
import Provision.Json.Printer
import Provision.Json.Reader
import Provision.Proofs.Decimal

namespace Provision.Json

/-! ## Quoted texts -/

theorem takeUnits_plain {c : Char} (acc : List TextUnit) (s : List Char) (hmark : c ≠ '"')
    (hslash : c ≠ '\\') (hcontrol : ¬ c.toNat < 0x20) :
    takeUnits acc (c :: s) = takeUnits (.char c :: acc) s := by
  rw [takeUnits.eq_def]
  split
  case h_7 c' rest _ _ _ _ _ heq =>
    obtain ⟨rfl, rfl⟩ := List.cons.inj heq
    rw [if_neg hcontrol]
  all_goals simp_all

/-- A control character that has no letter is written by its code. -/
theorem takeUnits_code {c : Char} (acc : List TextUnit) (s : List Char) (h : c.toNat < 0x20) :
    takeUnits acc ('\\' :: 'u' :: (codeDigits c.toNat ++ s)) = takeUnits (.char c :: acc) s := by
  have hhi : c.toNat / 16 < 16 := by omega
  have hlo : c.toNat % 16 < 16 := Nat.mod_lt _ (by decide)
  have hdigits : ['0', '0', (c.toNat / 16).digitChar, (c.toNat % 16).digitChar].all
      Hex.isDigit = true := by
    simp only [List.all_cons, List.all_nil, Hex.isDigit_digitChar hhi, Hex.isDigit_digitChar hlo]
    decide
  have hvalue : Hex.value ['0', '0', (c.toNat / 16).digitChar, (c.toNat % 16).digitChar] =
      c.toNat := by
    simp only [Hex.value, List.foldl_cons, List.foldl_nil, Hex.digitValue_digitChar hhi,
      Hex.digitValue_digitChar hlo, show Hex.digitValue '0' = 0 from rfl]
    omega
  have hhigh : isHighSurrogate c.toNat = false := by
    simp only [isHighSurrogate, Bool.and_eq_false_iff, decide_eq_false_iff_not]
    omega
  have hlow : isLowSurrogate c.toNat = false := by
    simp only [isLowSurrogate, Bool.and_eq_false_iff, decide_eq_false_iff_not]
    omega
  simp only [codeDigits, List.cons_append, List.nil_append]
  rw [takeUnits, if_pos hdigits, hvalue, TextUnit.ofCode, hhigh, hlow, Bool.or_false,
    if_neg Bool.false_ne_true, Char.ofNat_toNat]

/-- A character is read back from what is written for it. -/
theorem takeUnits_escape (c : Char) (acc : List TextUnit) (s : List Char) :
    takeUnits acc (escape c ++ s) = takeUnits (.char c :: acc) s := by
  unfold escape
  split
  · subst c; rfl
  rename_i hmark
  split
  · subst c; rfl
  rename_i hslash
  split
  · subst c; rfl
  split
  · subst c; rfl
  split
  · subst c; rfl
  split
  · subst c; rfl
  split
  · subst c; rfl
  split
  · rename_i hcontrol
    exact takeUnits_code acc s hcontrol
  · rename_i hcontrol
    exact takeUnits_plain acc s hmark hslash hcontrol

theorem takeUnits_flatMap_escape (cs : List Char) (acc : List TextUnit) (rest : List Char) :
    takeUnits acc (cs.flatMap escape ++ '"' :: rest) =
      (acc.reverse ++ cs.map .char, .ok rest) := by
  induction cs generalizing acc with
  | nil => simp [takeUnits]
  | cons c cs ih =>
    rw [List.flatMap_cons, List.append_assoc, takeUnits_escape, ih]
    simp

/-- **A quoted text is read back**, whatever follows it. -/
theorem readText_quoted (s : String) (rest : List Char) :
    readText (s.toList.flatMap escape ++ '"' :: rest) = ⟨.ok s, .ok rest⟩ := by
  have hjoin := joinInto_map_char s.toList []
  simp only [List.reverse_nil, List.nil_append] at hjoin
  simp only [readText, takeUnits_flatMap_escape, List.reverse_nil, List.nil_append, hjoin, bind,
    Except.bind, String.ofList_toList]
  rfl

/-! ## Numbers -/

/-- What may follow a number so that it does not run on. -/
def Ends (rest : List Char) : Prop :=
  ∀ c ∈ rest.head?, c.isDigit = false ∧ c ≠ '.' ∧ c ≠ 'e' ∧ c ≠ 'E'

theorem ends_nil : Ends [] := by simp [Ends]

theorem ends_cons {c : Char} (s : List Char)
    (h : c.isDigit = false ∧ c ≠ '.' ∧ c ≠ 'e' ∧ c ≠ 'E') : Ends (c :: s) := by
  intro d hd
  obtain rfl : c = d := by simpa using hd
  exact h

theorem readDigits_digits (missing : List Char → Stop) (n : Nat) {rest : List Char}
    (h : Ends rest) : readDigits missing (Decimal.digits n ++ rest) = .ok (Decimal.digits n, rest) := by
  have hall : ∀ c ∈ Decimal.digits n, c.isDigit = true := fun c => Decimal.isDigit_of_mem_digits
  have hrest : rest.takeWhile Char.isDigit = [] ∧ rest.dropWhile Char.isDigit = rest := by
    cases rest with
    | nil => simp
    | cons c s =>
      have hc := (h c (by simp)).1
      simp [hc]
  simp only [readDigits, List.takeWhile_append_of_pos hall, List.dropWhile_append_of_pos hall,
    hrest.1, hrest.2, List.append_nil, if_neg (Decimal.digits_ne_nil n)]

/-- **A number is read back**, where it ends. -/
theorem readNumber_digits (n : Nat) {rest : List Char} (h : Ends rest) :
    readNumber (Decimal.digits n ++ rest) = .ok (.ofNat n, rest) := by
  have hminus : readMinus (Decimal.digits n ++ rest) = (false, Decimal.digits n ++ rest) := by
    cases hd : Decimal.digits n with
    | nil => exact absurd hd (Decimal.digits_ne_nil n)
    | cons d ds =>
      have hdigit : d.isDigit = true := Decimal.isDigit_of_mem_digits (hd ▸ List.mem_cons_self)
      rw [List.cons_append, readMinus.eq_def]
      split
      · rename_i heq
        obtain ⟨rfl, -⟩ := List.cons.inj heq
        exact absurd hdigit (by decide)
      · rfl
  have hzero : ¬ ((Decimal.digits n).head? = some '0' ∧ 1 < (Decimal.digits n).length) := by
    rintro ⟨hhead, hlen⟩
    obtain ⟨ds, hds⟩ := List.head?_eq_some_iff.mp hhead
    rw [hds, Decimal.eq_nil_of_digits_eq_zero_cons hds] at hlen
    exact absurd hlen (by decide)
  have hfraction : readFraction rest = .ok ([], rest) := by
    rw [readFraction.eq_def]
    split
    · exact absurd rfl (h '.' (by simp)).2.1
    · rfl
  have hexponent : readExponent rest = .ok (none, rest) := by
    cases rest with
    | nil => rfl
    | cons c s =>
      have hc := (h c (by simp)).2.2
      simp [readExponent, hc.1, hc.2]
  simp only [readNumber, hminus, readDigits_digits _ n h, hzero, hfraction, hexponent, if_false,
    bind, Except.bind, NumberLiteral.ofNat]

end Provision.Json
