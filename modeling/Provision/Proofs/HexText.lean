/-
Provision.Proofs.HexText — the number behind hexadecimal text.

Leading zeros do not count: dropping or adding them keeps the number
(`toNat_of_fixedWidth?`), and the digits that are left are as many as the
number needs, so a text fits a width exactly when its number does
(`fixedWidth?_isSome_iff_toNat_lt`). The form of a width tells the digits
that are left and nothing else (`significant_of_fixedWidth?`,
`fixedWidth?_congr`). What a width does to a text and to a number of 64 bits
is put together in `fixed_width_keeps_the_number`.
-/
import Provision.HexText
import Provision.Proofs.Hex

namespace Provision

namespace Hex

theorem value_zero_cons (ds : List Char) : value ('0' :: ds) = value ds := by
  rw [value_cons, show digitValue '0' = 0 from rfl, Nat.mul_zero, Nat.zero_add]

theorem value_dropWhile_zero (ds : List Char) : value (ds.dropWhile (· == '0')) = value ds := by
  induction ds with
  | nil => rfl
  | cons c ds ih =>
    rw [List.dropWhile_cons]
    split
    · rename_i hc
      rw [eq_of_beq hc, ih, value_zero_cons]
    · rfl

theorem value_lt_pow (ds : List Char) : value ds < 16 ^ ds.length := by
  induction ds with
  | nil => exact Nat.one_pos
  | cons c ds ih =>
    have hc := digitValue_lt c
    calc value (c :: ds) = 16 ^ ds.length * digitValue c + value ds := value_cons c ds
      _ < 16 ^ ds.length * digitValue c + 16 ^ ds.length := Nat.add_lt_add_left ih _
      _ = 16 ^ ds.length * (digitValue c + 1) := by rw [Nat.mul_succ]
      _ ≤ 16 ^ ds.length * 16 := Nat.mul_le_mul_left _ hc
      _ = 16 ^ (c :: ds).length := by rw [List.length_cons, Nat.pow_succ]

/-- Only the digit zero stands for zero. -/
theorem digitValue_pos {c : Char} (h : isDigit c = true) (hc : c ≠ '0') : 0 < digitValue c := by
  revert h hc
  refine forall_char (P := fun c => isDigit c = true → c ≠ '0' → 0 < digitValue c)
    (by decide) (fun c hge h => ?_) c
  exact absurd (toNat_lt_of_isDigit h) (Nat.not_lt.mpr hge)

/-- Only zero is written with a zero in front. -/
theorem eq_nil_of_digits_eq_zero_cons {n : Nat} {ds : List Char} (h : digits n = '0' :: ds) :
    ds = [] := by
  cases ds with
  | nil => rfl
  | cons d ds =>
    -- The digits behind the zero are enough for the number, so there is one too many.
    have hvalue : value (d :: ds) = n := by
      rw [← value_zero_cons, ← h, value_digits]
    have hfits : n < 16 ^ (d :: ds).length := hvalue ▸ value_lt_pow (d :: ds)
    have hlength : (digits n).length ≤ (d :: ds).length :=
      (Nat.length_toDigits_le_iff (by decide) (Nat.succ_pos _)).mpr hfits
    rw [h, List.length_cons] at hlength
    omega

end Hex

namespace HexText

open Hex

theorem value_significant (h : HexText) : value h.significant = h.toNat :=
  value_dropWhile_zero h.digits

/-- The significant digits tell the number. -/
theorem toNat_congr {h k : HexText} (hsame : h.significant = k.significant) :
    h.toNat = k.toNat := by
  rw [← value_significant, hsame, value_significant]

theorem head_significant_ne_zero {h : HexText} {c : Char} {ds : List Char}
    (hcons : h.significant = c :: ds) : c ≠ '0' := by
  have hhead := List.head?_dropWhile_not (· == '0') h.digits
  rw [show h.digits.dropWhile (· == '0') = c :: ds from hcons] at hhead
  simpa using hhead

/-- A number of so many significant digits is not below the power of its
first digit. -/
theorem pow_le_toNat (h : HexText) {n : Nat} (hn : h.significant.length = n + 1) :
    16 ^ n ≤ h.toNat := by
  obtain ⟨c, ds, hcons⟩ := List.exists_cons_of_length_eq_add_one hn
  have hlen : ds.length = n := by
    rw [hcons, List.length_cons] at hn
    omega
  have hmem : c ∈ h.digits := by
    have hsub : h.significant ⊆ h.digits := (List.dropWhile_sublist _).subset
    exact hsub (hcons ▸ List.mem_cons_self)
  have hdigit : isDigit c = true := List.all_eq_true.mp h.digits_valid c hmem
  have hpos := digitValue_pos hdigit (head_significant_ne_zero hcons)
  rw [← value_significant, hcons, value_cons, hlen]
  have := Nat.le_mul_of_pos_right (16 ^ n) hpos
  omega

theorem length_significant_le_iff (h : HexText) (width : Nat) :
    h.significant.length ≤ width ↔ h.toNat < 16 ^ width := by
  constructor
  · intro hle
    rw [← value_significant]
    exact Nat.lt_of_lt_of_le (value_lt_pow _) (Nat.pow_le_pow_right (by decide) hle)
  · intro hlt
    rcases Nat.lt_or_ge width h.significant.length with hgt | hle
    · obtain ⟨n, hn⟩ : ∃ n, h.significant.length = n + 1 := ⟨h.significant.length - 1, by omega⟩
      have hpow := h.pow_le_toNat hn
      have hmono := Nat.pow_le_pow_right (n := 16) (by decide) (show width ≤ n by omega)
      omega
    · exact hle

/-- **Width**: a text has a form of this width exactly when its number is
below that power of sixteen. -/
theorem fixedWidth?_isSome_iff_toNat_lt (h : HexText) (width : Nat) :
    (h.fixedWidth? width).isSome ↔ h.toNat < 16 ^ width := by
  rw [fixedWidth?_isSome_iff, length_significant_le_iff]

theorem dropWhile_replicate_append (n : Nat) (ds : List Char) :
    (List.replicate n '0' ++ ds).dropWhile (· == '0') = ds.dropWhile (· == '0') := by
  rw [List.dropWhile_append, List.dropWhile_replicate]
  rfl

theorem dropWhile_significant (h : HexText) :
    h.significant.dropWhile (· == '0') = h.significant := by
  cases hs : h.significant with
  | nil => rfl
  | cons c ds =>
    exact List.dropWhile_cons_of_neg (by simpa using head_significant_ne_zero hs)

/-- The form of a width is hexadecimal text of so many digits, of which the
significant ones are the same. -/
theorem exists_text_of_fixedWidth? {h : HexText} {width : Nat} {s : String}
    (hs : h.fixedWidth? width = some s) :
    ∃ h' : HexText, h'.text = s ∧ h'.digits.length = width ∧ h'.significant = h.significant := by
  simp only [fixedWidth?] at hs
  split at hs
  · rename_i hle
    have hsig : h.significant.all isDigit = true := List.all_eq_true.mpr fun c hc =>
      List.all_eq_true.mp h.digits_valid c ((List.dropWhile_sublist _).subset hc)
    have hvalid : (List.replicate (width - h.significant.length) '0' ++ h.significant).all
        isDigit = true := by
      rw [List.all_append, hsig, Bool.and_true, List.all_eq_true]
      intro c hc
      rw [List.eq_of_mem_replicate hc]
      rfl
    refine ⟨⟨_, hvalid⟩, Option.some.inj hs, ?_, ?_⟩
    · simp only [List.length_append, List.length_replicate]
      omega
    · exact (dropWhile_replicate_append _ _).trans h.dropWhile_significant
  · cases hs

/-- The form of a width is hexadecimal text of so many digits, with the
number unchanged. -/
theorem toNat_of_fixedWidth? {h : HexText} {width : Nat} {s : String}
    (hs : h.fixedWidth? width = some s) :
    ∃ h', ofText? s = some h' ∧ h'.digits.length = width ∧ h'.toNat = h.toNat := by
  obtain ⟨h', rfl, hlength, hsig⟩ := exists_text_of_fixedWidth? hs
  exact ⟨h', ofText?_text h', hlength, toNat_congr hsig⟩

/-- The form of a width tells the significant digits. -/
theorem significant_of_fixedWidth? {h k : HexText} {width : Nat} {s : String}
    (hh : h.fixedWidth? width = some s) (hk : k.fixedWidth? width = some s) :
    h.significant = k.significant := by
  obtain ⟨h', hh', -, hh⟩ := exists_text_of_fixedWidth? hh
  obtain ⟨k', hk', -, hk⟩ := exists_text_of_fixedWidth? hk
  rw [← hh, ← hk, text_injective (hh'.trans hk'.symm)]

/-- The form of a width tells nothing else. -/
theorem fixedWidth?_congr {h k : HexText} (hsame : h.significant = k.significant) (width : Nat) :
    h.fixedWidth? width = k.fixedWidth? width := by
  unfold fixedWidth?
  rw [hsame]

/-- A text that is read is kept as it was written. -/
theorem text_of_ofText? {s : String} {h : HexText} (hs : ofText? s = some h) : h.text = s := by
  unfold ofText? at hs
  unfold ofChars? at hs
  split at hs
  · rename_i ds hchars
    split at hs
    · cases hs
      rw [text, ← hchars, String.ofList_toList]
    · cases hs
  · cases hs

theorem ofText?_numberText (n : Nat) : ofText? (numberText n) = some (ofNat n) :=
  ofText?_text (ofNat n)

/-! ## What a width does -/

theorem fixedWidth_eq_ok_iff {h : HexText} {width : Nat} {s : String} :
    h.fixedWidth width = .ok s ↔ h.fixedWidth? width = some s := by
  unfold fixedWidth
  cases h.fixedWidth? width <;> simp

theorem exists_fixedWidth_iff (h : HexText) (width : Nat) :
    (∃ s, h.fixedWidth width = .ok s) ↔ h.toNat < 16 ^ width := by
  rw [← fixedWidth?_isSome_iff_toNat_lt, Option.isSome_iff_exists]
  exact exists_congr fun s => fixedWidth_eq_ok_iff

/-- Only a number that needs more digits is complained about, by its text. -/
theorem fixedWidth_eq_error_iff {h : HexText} {width : Nat} {e : EncodingError} :
    h.fixedWidth width = .error e ↔ 16 ^ width ≤ h.toNat ∧ e = .hexTooWide h.text width := by
  have hfits := fixedWidth?_isSome_iff_toNat_lt h width
  unfold fixedWidth
  cases hs : h.fixedWidth? width with
  | none =>
    have hwide : 16 ^ width ≤ h.toNat := by simpa [hs] using hfits
    simp [hwide, eq_comm]
  | some s =>
    have hlt : h.toNat < 16 ^ width := hfits.mp (by rw [hs]; rfl)
    simp [Nat.not_le.mpr hlt]

/-- The form of a width keeps the number and is its own form. -/
theorem fixedWidth_of_fixedWidth {h : HexText} {width : Nat} {s : String}
    (hs : h.fixedWidth width = .ok s) :
    ∃ h' : HexText, h'.text = s ∧ h'.digits.length = width ∧ h'.toNat = h.toNat ∧
      h'.fixedWidth width = .ok s := by
  have hform := fixedWidth_eq_ok_iff.mp hs
  obtain ⟨h', htext, hlength, hsig⟩ := exists_text_of_fixedWidth? hform
  refine ⟨h', htext, hlength, toNat_congr hsig, ?_⟩
  rw [fixedWidth_eq_ok_iff, fixedWidth?_congr hsig, hform]

/-- A number is written as a zero or without a zero in front. -/
theorem digits_ofNat (n : Nat) :
    (ofNat n).digits = ['0'] ∨ ∃ c ds, (ofNat n).digits = c :: ds ∧ c ≠ '0' := by
  show Hex.digits n = ['0'] ∨ ∃ c ds, Hex.digits n = c :: ds ∧ c ≠ '0'
  cases hn : Hex.digits n with
  | nil => exact absurd hn Nat.toDigits_ne_nil
  | cons c ds =>
    by_cases hc : c = '0'
    · subst hc
      rw [eq_nil_of_digits_eq_zero_cons hn]
      exact .inl rfl
    · exact .inr ⟨c, ds, rfl, hc⟩

/-- **Fixed width**: a text has a form of a width exactly when its number is
below that power of sixteen. The form is hexadecimal text of so many digits
for the same number, and its own form of that width; a number that does not
fit is refused with its text as it was written. A number of 64 bits is
written without redundant zeros, reads back as it is written and fits sixteen
digits. -/
theorem fixed_width_keeps_the_number :
    (∀ (h : HexText) (width : Nat),
      ((∃ s, h.fixedWidth width = .ok s) ↔ h.toNat < 16 ^ width) ∧
        (∀ s, h.fixedWidth width = .ok s →
          ∃ h' : HexText, h'.text = s ∧ h'.digits.length = width ∧ ofText? s = some h' ∧
            h'.toNat = h.toNat ∧ h'.fixedWidth width = .ok s) ∧
        ∀ e, h.fixedWidth width = .error e ↔
          16 ^ width ≤ h.toNat ∧ e = .hexTooWide h.text width) ∧
      ∀ n : UInt64,
        (ofNat n.toNat).toNat = n.toNat ∧
          ((ofNat n.toNat).digits = ['0'] ∨
            ∃ c ds, (ofNat n.toNat).digits = c :: ds ∧ c ≠ '0') ∧
          ofText? (ofNat n.toNat).text = some (ofNat n.toNat) ∧
          ∃ s, (ofNat n.toNat).fixedWidth 16 = .ok s := by
  refine ⟨fun h width => ⟨h.exists_fixedWidth_iff width, fun s hs => ?_, fun e =>
    fixedWidth_eq_error_iff⟩, fun n => ⟨toNat_ofNat n.toNat, digits_ofNat n.toNat,
    ofText?_text (ofNat n.toNat), ?_⟩⟩
  · obtain ⟨h', htext, hlength, hvalue, hagain⟩ := fixedWidth_of_fixedWidth hs
    exact ⟨h', htext, hlength, htext ▸ ofText?_text h', hvalue, hagain⟩
  · rw [exists_fixedWidth_iff, toNat_ofNat]
    exact n.toNat_lt

end HexText

end Provision
