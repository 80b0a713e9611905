/-
Provision.Proofs.Hex — hexadecimal digits of either case.

The case of a letter makes no difference to a reader. `decode_eq_some_iff`
says that digits spell the bytes whose own digits they are in lowercase,
and no others; `decode_eq_none_iff` says that the only texts without bytes
are those with an odd number of characters or with one that is no digit.
-/
import Provision.Hex

namespace Provision.Hex

/-! ## The case of a digit -/

theorem toLower_of_not_ascii {c : Char} (h : 0x80 ≤ c.toNat) : c.toLower = c := by
  have hz : ¬ (c.val ≥ 'A'.val ∧ c.val ≤ 'Z'.val) := by
    rintro ⟨-, hle⟩
    have hle' : c.toNat ≤ 90 := UInt32.le_iff_toNat_le.mp hle
    omega
  exact dif_neg hz

/-- What holds of the first 128 characters and of the others holds of all. -/
theorem forall_char {P : Char → Prop} (ascii : ∀ n < 0x80, P (Char.ofNat n))
    (others : ∀ c : Char, 0x80 ≤ c.toNat → P c) (c : Char) : P c := by
  rcases Nat.lt_or_ge c.toNat 0x80 with h | h
  · have := ascii c.toNat h
    rwa [Char.ofNat_toNat] at this
  · exact others c h

theorem isDigit_toLower (c : Char) : isDigit c.toLower = isDigit c :=
  forall_char (P := fun c => isDigit c.toLower = isDigit c) (by decide)
    (fun c h => by rw [toLower_of_not_ascii h]) c

/-- A digit in lowercase is the digit its number is written with. -/
theorem digitChar_digitValue {c : Char} (h : isDigit c = true) :
    (digitValue c).digitChar = c.toLower := by
  revert h
  refine forall_char (P := fun c => isDigit c = true → (digitValue c).digitChar = c.toLower)
    (by decide) (fun c hc h => ?_) c
  exact absurd (toNat_lt_of_isDigit h) (Nat.not_lt.mpr hc)

theorem isAlphanum_of_isDigit {c : Char} (h : isDigit c = true) : c.isAlphanum = true := by
  revert h
  refine forall_char (P := fun c => isDigit c = true → c.isAlphanum = true) (by decide)
    (fun c hc h => ?_) c
  exact absurd (toNat_lt_of_isDigit h) (Nat.not_lt.mpr hc)

theorem digitValue_lt (c : Char) : digitValue c < 16 := by
  refine forall_char (P := fun c => digitValue c < 16) (by decide) (fun c hc => ?_) c
  have h : isDigit c = false := by
    rw [← Bool.not_eq_true]
    exact fun h => absurd (toNat_lt_of_isDigit h) (Nat.not_lt.mpr hc)
  simp only [isDigit, Bool.or_eq_false_iff] at h
  simp [digitValue, h.1.1, h.1.2, h.2]

/-! ## Bytes -/

theorem ofByte_of_digits {hi lo : Char} (hhi : isDigit hi = true) (hlo : isDigit lo = true) :
    ofByte (UInt8.ofNat (16 * digitValue hi + digitValue lo)) = [hi.toLower, lo.toLower] := by
  have h₁ := digitValue_lt hi
  have h₂ := digitValue_lt lo
  have hb : (UInt8.ofNat (16 * digitValue hi + digitValue lo)).toNat =
      16 * digitValue hi + digitValue lo := by
    rw [UInt8.toNat_ofNat']
    omega
  have hq : (16 * digitValue hi + digitValue lo) / 16 = digitValue hi := by omega
  have hr : (16 * digitValue hi + digitValue lo) % 16 = digitValue lo := by omega
  rw [ofByte, hb, hq, hr, digitChar_digitValue hhi, digitChar_digitValue hlo]

/-- Two characters begin the text of some bytes in either case exactly when
they are the digits of the first of them. -/
theorem toLower_cons_cons_eq_encode_iff (hi lo : Char) (rest : List Char) (bytes : List UInt8) :
    (hi :: lo :: rest).map Char.toLower = encode bytes ↔
      (isDigit hi = true ∧ isDigit lo = true) ∧
        ∃ tail, bytes = UInt8.ofNat (16 * digitValue hi + digitValue lo) :: tail ∧
          rest.map Char.toLower = encode tail := by
  constructor
  · intro h
    cases bytes with
    | nil => simp at h
    | cons b tail =>
      have hb := b.toNat_lt
      simp only [List.map_cons, encode_cons, ofByte, List.cons_append, List.nil_append,
        List.cons.injEq] at h
      obtain ⟨hhi, hlo, hrest⟩ := h
      have dhi : isDigit hi = true := by
        rw [← isDigit_toLower, hhi]
        exact isDigit_digitChar (by omega)
      have dlo : isDigit lo = true := by
        rw [← isDigit_toLower, hlo]
        exact isDigit_digitChar (by omega)
      have hb' : encode [b] = encode [UInt8.ofNat (16 * digitValue hi + digitValue lo)] := by
        rw [encode_cons, encode_cons, ofByte_of_digits dhi dlo, hhi, hlo, ofByte]
      obtain ⟨rfl, -⟩ := List.cons.inj (encode_injective hb')
      exact ⟨⟨dhi, dlo⟩, tail, rfl, hrest⟩
  · rintro ⟨⟨dhi, dlo⟩, tail, rfl, hrest⟩
    rw [encode_cons, ofByte_of_digits dhi dlo, List.map_cons, List.map_cons, hrest]
    rfl

theorem decodeInto_eq_some_iff (acc : List UInt8) (ds : List Char) (bytes : List UInt8) :
    decodeInto acc ds = some bytes ↔
      ∃ tail, bytes = acc.reverse ++ tail ∧ ds.map Char.toLower = encode tail := by
  induction acc, ds using decodeInto.induct with
  | case1 acc =>
    simp only [decodeInto, Option.some.injEq, List.map_nil]
    constructor
    · rintro rfl
      exact ⟨[], by simp⟩
    · rintro ⟨tail, rfl, h⟩
      have hlen := length_encode tail
      rw [← h, List.length_nil] at hlen
      rw [List.eq_nil_of_length_eq_zero (l := tail) (by omega), List.append_nil]
  | case2 acc c =>
    simp only [decodeInto, reduceCtorEq, false_iff]
    rintro ⟨tail, -, h⟩
    have hlen := length_encode tail
    rw [← h, List.length_map, List.length_singleton] at hlen
    omega
  | case3 acc hi lo rest hd ih =>
    rw [decodeInto, if_pos hd, ih]
    simp only [toLower_cons_cons_eq_encode_iff]
    constructor
    · rintro ⟨tail, rfl, h⟩
      exact ⟨_, by simp, by simpa using hd, tail, rfl, h⟩
    · rintro ⟨_, rfl, -, tail, rfl, h⟩
      exact ⟨tail, by simp, h⟩
  | case4 acc hi lo rest hd =>
    rw [decodeInto, if_neg hd]
    simp only [toLower_cons_cons_eq_encode_iff, reduceCtorEq, false_iff]
    rintro ⟨_, -, hd', -⟩
    exact hd (by simpa using hd')

/-- **Spelling**: digits spell the bytes whose digits they are in lowercase. -/
theorem decode_eq_some_iff {ds : List Char} {bytes : List UInt8} :
    decode ds = some bytes ↔ ds.map Char.toLower = encode bytes := by
  simp [decode, decodeInto_eq_some_iff]

theorem decodeInto_isSome_iff (acc : List UInt8) (ds : List Char) :
    (decodeInto acc ds).isSome = true ↔ ds.length % 2 = 0 ∧ ds.all isDigit = true := by
  induction acc, ds using decodeInto.induct with
  | case1 acc => simp [decodeInto]
  | case2 acc c => simp [decodeInto]
  | case3 acc hi lo rest hd ih =>
    rw [decodeInto, if_pos hd, ih, List.length_cons, List.length_cons, List.all_cons,
      List.all_cons, ← Bool.and_assoc, hd, Bool.true_and, Nat.add_assoc, Nat.add_mod_right]
  | case4 acc hi lo rest hd =>
    have hf : (isDigit hi && isDigit lo) = false := Bool.not_eq_true _ ▸ hd
    rw [decodeInto, if_neg hd, List.all_cons, List.all_cons, ← Bool.and_assoc, hf]
    simp

/-- Only an odd number of characters, or one that is no digit, spells nothing. -/
theorem decode_eq_none_iff {ds : List Char} :
    decode ds = none ↔ ¬ (ds.length % 2 = 0 ∧ ds.all isDigit = true) := by
  rw [← decodeInto_isSome_iff [], Option.not_isSome_iff_eq_none]
  rfl

theorem toLower_encode (bytes : List UInt8) : (encode bytes).map Char.toLower = encode bytes :=
  decode_eq_some_iff.mp (decode_encode bytes)

theorem bytesText_injective {a b : List UInt8} (h : bytesText a = bytesText b) : a = b := by
  have h' := congrArg String.toList h
  simp only [bytesText, String.toList_ofList, List.cons.injEq, true_and] at h'
  exact encode_injective h'

end Provision.Hex
