/-
Provision.Hex — hexadecimal digits, numbers and bytes.

`digits` writes a number and `value` reads a run of digits;
`encode` writes bytes as two lowercase digits each and `decode` reads
pairs of digits of either case. The main statements are `value_digits`
and `decode_encode`: reading undoes writing.
-/

namespace Provision.Hex

/-! ## Digits -/

/-- A hexadecimal digit of either case. -/
def isDigit (c : Char) : Bool :=
  ('0' ≤ c && c ≤ '9') || ('a' ≤ c && c ≤ 'f') || ('A' ≤ c && c ≤ 'F')

/-- The number a hexadecimal digit stands for. -/
def digitValue (c : Char) : Nat :=
  if '0' ≤ c && c ≤ '9' then c.toNat - 48
  else if 'a' ≤ c && c ≤ 'f' then c.toNat - 87
  else if 'A' ≤ c && c ≤ 'F' then c.toNat - 55
  else 0

theorem isDigit_digitChar {n : Nat} (h : n < 16) : isDigit n.digitChar = true := by
  revert n
  decide

theorem toNat_lt_of_isDigit {c : Char} (h : isDigit c = true) : c.toNat < 0x80 := by
  simp only [isDigit, Bool.or_eq_true, Bool.and_eq_true, decide_eq_true_eq, Char.le_def,
    UInt32.le_iff_toNat_le] at h
  change c.val.toNat < 128
  rcases h with (h | h) | h <;> exact Nat.lt_of_le_of_lt h.2 (by decide)

theorem digitValue_digitChar {n : Nat} (h : n < 16) : digitValue n.digitChar = n := by
  revert n
  decide

/-! ## Numbers -/

/-- The digits of a number, lowercase and without redundant zeros. -/
def digits (n : Nat) : List Char :=
  Nat.toDigits 16 n

/-- The number a run of digits spells. -/
def value (ds : List Char) : Nat :=
  ds.foldl (fun n c => 16 * n + digitValue c) 0

theorem foldl_value (ds : List Char) (n : Nat) :
    ds.foldl (fun n c => 16 * n + digitValue c) n = 16 ^ ds.length * n + value ds := by
  induction ds generalizing n with
  | nil => simp [value]
  | cons c ds ih =>
    have h0 : value (c :: ds) = 16 ^ ds.length * (16 * 0 + digitValue c) + value ds :=
      ih (16 * 0 + digitValue c)
    rw [List.foldl_cons, ih, h0]
    simp only [List.length_cons, Nat.pow_succ, Nat.mul_zero, Nat.zero_add]
    rw [Nat.mul_add, ← Nat.mul_assoc, Nat.add_assoc]

theorem value_append (a b : List Char) : value (a ++ b) = 16 ^ b.length * value a + value b := by
  rw [value, List.foldl_append, foldl_value]
  rfl

theorem value_cons (c : Char) (ds : List Char) :
    value (c :: ds) = 16 ^ ds.length * digitValue c + value ds := by
  have h := value_append [c] ds
  have h1 : value [c] = digitValue c := by simp [value]
  rwa [h1] at h

/-- Reading the digits of a number gives the number back. -/
theorem value_digits (n : Nat) : value (digits n) = n := by
  induction n using Nat.strongRecOn with
  | ind n ih =>
    rw [digits, Nat.toDigits_eq_if (by decide)]
    split
    · rename_i h
      simp [value, digitValue_digitChar h]
    · rename_i h
      have hq := ih (n / 16) (by omega)
      rw [digits] at hq
      have h1 : value [(n % 16).digitChar] = n % 16 := by
        simp [value, digitValue_digitChar (Nat.mod_lt n (by decide : 0 < 16))]
      rw [value_append, hq, h1]
      simp only [List.length_singleton, Nat.pow_one]
      omega

theorem isDigit_of_mem_digits {n : Nat} {c : Char} (h : c ∈ digits n) : isDigit c = true := by
  induction n using Nat.strongRecOn with
  | ind n ih =>
    rw [digits, Nat.toDigits_eq_if (by decide)] at h
    split at h
    · rename_i hn
      simp only [List.mem_singleton] at h
      exact h ▸ isDigit_digitChar hn
    · rename_i hn
      rcases List.mem_append.mp h with h | h
      · exact ih (n / 16) (by omega) h
      · simp only [List.mem_singleton] at h
        exact h ▸ isDigit_digitChar (Nat.mod_lt n (by decide))

theorem digits_all (n : Nat) : (digits n).all isDigit = true :=
  List.all_eq_true.mpr fun _ h => isDigit_of_mem_digits h

/-- Distinct numbers have distinct digits. -/
theorem digits_injective {m n : Nat} (h : digits m = digits n) : m = n := by
  rw [← value_digits m, h, value_digits]

/-- A number written after `0x`. -/
def numberText (n : Nat) : String :=
  String.ofList ('0' :: 'x' :: digits n)

/-! ## Bytes -/

/-- The two digits of a byte. -/
def ofByte (b : UInt8) : List Char :=
  [(b.toNat / 16).digitChar, (b.toNat % 16).digitChar]

/-- Two lowercase digits for each byte. -/
def encode (bytes : List UInt8) : List Char :=
  bytes.flatMap ofByte

/-- Reads pairs of digits, gathering the bytes in reverse. -/
def decodeInto (acc : List UInt8) : List Char → Option (List UInt8)
  | [] => some acc.reverse
  | [_] => none
  | hi :: lo :: rest =>
    if isDigit hi && isDigit lo then
      decodeInto (UInt8.ofNat (16 * digitValue hi + digitValue lo) :: acc) rest
    else none

/-- The bytes an even number of digits spells, or nothing if there is a
character that is no digit or a digit too many. -/
def decode (ds : List Char) : Option (List UInt8) :=
  decodeInto [] ds

@[simp] theorem encode_nil : encode [] = [] := rfl

theorem encode_cons (b : UInt8) (bs : List UInt8) : encode (b :: bs) = ofByte b ++ encode bs := by
  simp [encode]

theorem length_encode (bs : List UInt8) : (encode bs).length = 2 * bs.length := by
  induction bs with
  | nil => rfl
  | cons b bs ih =>
    rw [encode_cons, List.length_append, ih, List.length_cons]
    simp [ofByte]
    omega

theorem decodeInto_encode (bs acc : List UInt8) :
    decodeInto acc (encode bs) = some (acc.reverse ++ bs) := by
  induction bs generalizing acc with
  | nil => simp [decodeInto]
  | cons b bs ih =>
    have hlt : b.toNat < 256 := b.toNat_lt
    have h1 : b.toNat / 16 < 16 := by omega
    have h2 : b.toNat % 16 < 16 := Nat.mod_lt _ (by decide)
    have hb : UInt8.ofNat (16 * (b.toNat / 16) + b.toNat % 16) = b := by
      rw [Nat.div_add_mod]
      simp
    simp only [encode_cons, ofByte, List.cons_append, List.nil_append, decodeInto,
      isDigit_digitChar h1, isDigit_digitChar h2, digitValue_digitChar h1,
      digitValue_digitChar h2, Bool.and_self, if_true, hb, ih]
    simp

/-- **Round trip**: the digits of bytes read back as the bytes. -/
theorem decode_encode (bs : List UInt8) : decode (encode bs) = some bs := by
  simp [decode, decodeInto_encode]

theorem encode_all (bs : List UInt8) : (encode bs).all isDigit = true := by
  induction bs with
  | nil => rfl
  | cons b bs ih =>
    have hlt : b.toNat < 256 := b.toNat_lt
    have h1 : b.toNat / 16 < 16 := by omega
    have h2 : b.toNat % 16 < 16 := Nat.mod_lt _ (by decide)
    simp [encode_cons, ofByte, isDigit_digitChar h1, isDigit_digitChar h2, ih]

/-- Distinct byte strings have distinct digits. -/
theorem encode_injective {a b : List UInt8} (h : encode a = encode b) : a = b := by
  have := decode_encode a
  rw [h, decode_encode] at this
  exact (Option.some.inj this).symm

/-! ## The mark of hexadecimal text -/

/-- Drops a leading `0x` or `0X`. -/
def dropMark : List Char → List Char
  | '0' :: 'x' :: rest => rest
  | '0' :: 'X' :: rest => rest
  | s => s

/-- Bytes written after `0x`. -/
def bytesText (bytes : List UInt8) : String :=
  String.ofList ('0' :: 'x' :: encode bytes)

end Provision.Hex
