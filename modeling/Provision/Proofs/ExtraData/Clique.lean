/-
Provision.Proofs.ExtraData.Clique — which texts name which signers.

A text spells bytes when its digits, in lowercase and without the mark, are
theirs (`Spells`). `cliqueSigners_eq_ok_iff` says which bytes name signers,
and `Hex.decode_eq_some_iff` which text spells bytes; together they say of
every text whether it names signers and, if not, what is wrong with it
(`signers_eq_ok_iff`, `signers_eq_error_iff`). Writing the signers again
gives the text back where vanity and seal are zeros
(`cliqueText_eq_lowerText_iff`).
-/
import Provision.ExtraData.Clique
import Provision.Proofs.Hex

namespace Provision.ExtraData

/-! ## Bytes -/

/-- Vanity, signers and seal, one after the other. -/
def assemble (vanity : List UInt8) (l : List Address) (signature : List UInt8) : List UInt8 :=
  vanity ++ l.flatMap FixedBytes.bytes ++ signature

theorem clique_eq_assemble (l : List Address) :
    clique l = assemble (List.replicate vanityLength 0) l (List.replicate sealLength 0) :=
  rfl

theorem length_assemble {vanity signature : List UInt8} (hv : vanity.length = vanityLength)
    (hs : signature.length = sealLength) (l : List Address) :
    (assemble vanity l signature).length = 97 + 20 * l.length := by
  rw [assemble, List.length_append, List.length_append, length_flatMap_bytes, hv, hs, vanityLength,
    sealLength, addressLength]
  omega

/-- The parts of extra data are where they are by their lengths. -/
theorem assemble_inj {v v' s s' : List UInt8} {l l' : List Address} (hv : v.length = v'.length)
    (hs : s.length = s'.length) (h : assemble v l s = assemble v' l' s') :
    v = v' ∧ l.flatMap FixedBytes.bytes = l'.flatMap FixedBytes.bytes ∧ s = s' := by
  obtain ⟨hleft, hsignature⟩ := List.append_inj' h hs
  obtain ⟨hvanity, hsigners⟩ := List.append_inj hleft hv
  exact ⟨hvanity, hsigners, hsignature⟩

theorem takeAddresses_succ (n : Nat) {b : List UInt8} (h : addressLength ≤ b.length) :
    ∃ a : Address, a.bytes = b.take addressLength ∧
      takeAddresses (n + 1) b = a :: takeAddresses n (b.drop addressLength) := by
  obtain ⟨a, ha⟩ : ∃ a : Address, a.bytes = b.take addressLength :=
    ⟨⟨b.take addressLength, List.length_take_of_le h⟩, rfl⟩
  have hread : FixedBytes.ofBytes? addressLength (b.take addressLength) = some a :=
    ha ▸ FixedBytes.ofBytes?_bytes a
  refine ⟨a, ha, ?_⟩
  rw [takeAddresses, hread]

theorem flatMap_takeAddresses (n : Nat) {b : List UInt8} (h : addressLength * n ≤ b.length) :
    (takeAddresses n b).flatMap FixedBytes.bytes = b.take (addressLength * n) := by
  induction n generalizing b with
  | zero => simp [takeAddresses]
  | succ n ih =>
    rw [Nat.mul_succ] at h ⊢
    have hrest : addressLength * n ≤ (b.drop addressLength).length := by
      rw [List.length_drop]
      omega
    obtain ⟨a, ha, htake⟩ := takeAddresses_succ n (b := b) (by omega)
    rw [htake, List.flatMap_cons, ha, ih hrest, Nat.add_comm, List.take_add]

/-- Bytes name signers when they are a vanity, the signers and a seal. -/
theorem cliqueSigners_eq_ok_iff {bytes : List UInt8} {l : List Address} :
    cliqueSigners bytes = .ok l ↔
      ∃ vanity signature, vanity.length = vanityLength ∧ signature.length = sealLength ∧
        bytes = assemble vanity l signature := by
  simp only [cliqueSigners]
  constructor
  · intro h
    split at h
    · cases h
    · rename_i hcond
      cases h
      rw [not_or, Nat.not_lt] at hcond
      obtain ⟨hlen, hmod⟩ := hcond
      rw [ne_eq, Decidable.not_not] at hmod
      -- The room between vanity and seal is cut into whole addresses.
      have hroom : addressLength * ((bytes.length - (vanityLength + sealLength)) / addressLength) =
          bytes.length - (vanityLength + sealLength) :=
        Nat.mul_div_cancel' (Nat.dvd_of_mod_eq_zero hmod)
      refine ⟨bytes.take vanityLength,
        (bytes.drop vanityLength).drop (bytes.length - (vanityLength + sealLength)), ?_, ?_, ?_⟩
      · exact List.length_take_of_le (by omega)
      · rw [List.length_drop, List.length_drop]
        omega
      · rw [assemble, flatMap_takeAddresses _ (by rw [hroom, List.length_drop]; omega), hroom,
          List.append_assoc, List.take_append_drop, List.take_append_drop]
  · rintro ⟨vanity, signature, hv, hs, rfl⟩
    have hlen := length_assemble hv hs l
    have hdrop : (assemble vanity l signature).drop vanityLength =
        l.flatMap FixedBytes.bytes ++ signature := by
      rw [assemble, List.append_assoc, List.drop_left' hv]
    have hroom : (assemble vanity l signature).length - (vanityLength + sealLength) =
        addressLength * l.length := by
      rw [hlen, vanityLength, sealLength, addressLength]
      omega
    have hpos : 0 < addressLength := by decide
    rw [hroom, hdrop, Nat.mul_mod_right, Nat.mul_div_cancel_left _ hpos, takeAddresses_flatMap,
      if_neg]
    rw [hlen, vanityLength, sealLength]
    omega

theorem cliqueSigners_eq_error_iff {bytes : List UInt8} {e : EncodingError} :
    cliqueSigners bytes = .error e ↔
      e = .malformedExtraData bytes.length ∧
        (bytes.length < 97 ∨ (bytes.length - 97) % 20 ≠ 0) := by
  simp only [cliqueSigners]
  by_cases h : bytes.length < vanityLength + sealLength ∨
      (bytes.length - (vanityLength + sealLength)) % addressLength ≠ 0
  · rw [if_pos h]
    constructor
    · intro he
      cases he
      exact ⟨rfl, h⟩
    · rintro ⟨rfl, -⟩
      rfl
  · rw [if_neg h]
    constructor
    · intro he
      cases he
    · rintro ⟨-, h'⟩
      exact absurd h' h

/-! ## Text -/

/-- The digits of a text, without the mark and in lowercase. -/
def lowerDigits (s : String) : List Char :=
  (Hex.dropMark s.toList).map Char.toLower

/-- Whether a text is an even number of digits behind the mark. -/
def IsHex (s : String) : Prop :=
  (Hex.dropMark s.toList).length % 2 = 0 ∧ (Hex.dropMark s.toList).all Hex.isDigit = true

/-- Whether a text spells these bytes, in either case and with or without
the mark. -/
def Spells (s : String) (bytes : List UInt8) : Prop :=
  lowerDigits s = Hex.encode bytes

theorem decode_dropMark_eq_some_iff {s : String} {bytes : List UInt8} :
    Hex.decode (Hex.dropMark s.toList) = some bytes ↔ Spells s bytes :=
  Hex.decode_eq_some_iff

theorem isHex_iff_exists_spells {s : String} : IsHex s ↔ ∃ bytes, Spells s bytes := by
  simp only [← decode_dropMark_eq_some_iff, ← Option.isSome_iff_exists]
  rw [← Bool.not_eq_false, Option.isSome_eq_false_iff, Option.isNone_iff_eq_none,
    Hex.decode_eq_none_iff, Decidable.not_not, IsHex]

theorem Spells.unique {s : String} {a b : List UInt8} (ha : Spells s a) (hb : Spells s b) :
    a = b :=
  Hex.encode_injective (ha.symm.trans hb)

theorem signers_of_spells {s : String} {bytes : List UInt8} (h : Spells s bytes) :
    signers s = cliqueSigners bytes := by
  unfold signers
  rw [decode_dropMark_eq_some_iff.mpr h]

theorem signers_of_not_isHex {s : String} (h : ¬ IsHex s) : signers s = .error (.invalidHex s) := by
  unfold signers
  rw [Hex.decode_eq_none_iff.mpr h]

/-- A text names signers when it spells a vanity, the signers and a seal. -/
theorem signers_eq_ok_iff {s : String} {l : List Address} :
    signers s = .ok l ↔
      ∃ vanity signature, vanity.length = vanityLength ∧ signature.length = sealLength ∧
        Spells s (assemble vanity l signature) := by
  by_cases hex : IsHex s
  · obtain ⟨bytes, hb⟩ := isHex_iff_exists_spells.mp hex
    rw [signers_of_spells hb, cliqueSigners_eq_ok_iff]
    constructor
    · rintro ⟨vanity, signature, hv, hs, rfl⟩
      exact ⟨vanity, signature, hv, hs, hb⟩
    · rintro ⟨vanity, signature, hv, hs, h⟩
      exact ⟨vanity, signature, hv, hs, hb.unique h⟩
  · rw [signers_of_not_isHex hex]
    simp only [reduceCtorEq, false_iff]
    rintro ⟨vanity, signature, -, -, h⟩
    exact hex (isHex_iff_exists_spells.mpr ⟨_, h⟩)

theorem length_of_spells {s : String} {bytes : List UInt8} (h : Spells s bytes) :
    (Hex.dropMark s.toList).length = 2 * bytes.length := by
  have hlen := congrArg List.length h
  rwa [lowerDigits, List.length_map, Hex.length_encode] at hlen

/-- What is wrong with a text that names no signers. -/
theorem signers_eq_error_iff {s : String} {e : EncodingError} :
    signers s = .error e ↔
      ¬ IsHex s ∧ e = .invalidHex s ∨
      IsHex s ∧ ∃ n, (Hex.dropMark s.toList).length = 2 * n ∧ e = .malformedExtraData n ∧
        (n < 97 ∨ (n - 97) % 20 ≠ 0) := by
  by_cases hex : IsHex s
  · obtain ⟨bytes, hb⟩ := isHex_iff_exists_spells.mp hex
    rw [signers_of_spells hb, cliqueSigners_eq_error_iff]
    have hlen := length_of_spells hb
    constructor
    · rintro ⟨rfl, h⟩
      exact .inr ⟨hex, bytes.length, hlen, rfl, h⟩
    · rintro (⟨hno, -⟩ | ⟨-, n, hn, rfl, h⟩)
      · exact absurd hex hno
      · obtain rfl : n = bytes.length := by omega
        exact ⟨rfl, h⟩
  · rw [signers_of_not_isHex hex]
    constructor
    · intro h
      cases h
      exact .inl ⟨hex, rfl⟩
    · rintro (⟨-, rfl⟩ | ⟨hyes, -⟩)
      · rfl
      · exact absurd hyes hex

theorem cliqueText_injective {l m : List Address} (h : cliqueText l = cliqueText m) : l = m := by
  have hread := signers_cliqueText l
  rw [h, signers_cliqueText] at hread
  exact (Except.ok.inj hread).symm

/-! ## Spellings -/

theorem toLower_toUpper {c : Char} (h : Hex.isDigit c = true) : c.toUpper.toLower = c.toLower := by
  revert h
  refine Hex.forall_char (P := fun c => Hex.isDigit c = true → c.toUpper.toLower = c.toLower)
    (by decide) (fun c hc h => ?_) c
  exact absurd (Hex.toNat_lt_of_isDigit h) (Nat.not_lt.mpr hc)

theorem map_toLower_map_toUpper (bytes : List UInt8) :
    ((Hex.encode bytes).map Char.toUpper).map Char.toLower = Hex.encode bytes := by
  have hall := List.all_eq_true.mp (Hex.encode_all bytes)
  calc ((Hex.encode bytes).map Char.toUpper).map Char.toLower
    _ = (Hex.encode bytes).map Char.toLower := by
      rw [List.map_map]
      exact List.map_congr_left fun c hc => toLower_toUpper (hall c hc)
    _ = Hex.encode bytes := Hex.toLower_encode bytes

/-- Digits that begin with the zeros of a vanity do not begin with a mark. -/
theorem dropMark_of_clique {l : List Address} {ds : List Char}
    (h : ds.map Char.toLower = Hex.encode (clique l)) : Hex.dropMark ds = ds := by
  obtain ⟨rest, hrest⟩ : ∃ rest, Hex.encode (clique l) = '0' :: '0' :: rest := ⟨_, rfl⟩
  rw [hrest] at h
  rw [Hex.dropMark.eq_def]
  split
  · simp at h
  · simp at h
  · rfl

/-- The signers are read in either case and behind either mark or none. -/
theorem spells_of_marked {l : List Address} {mark ds : List Char}
    (hmark : mark ∈ [[], ['0', 'x'], ['0', 'X']])
    (h : ds.map Char.toLower = Hex.encode (clique l)) :
    Spells (String.ofList (mark ++ ds)) (clique l) := by
  rw [Spells, lowerDigits, String.toList_ofList, ← h]
  simp only [List.mem_cons, List.not_mem_nil, or_false] at hmark
  rcases hmark with rfl | rfl | rfl
  · rw [List.nil_append, dropMark_of_clique h]
  · rfl
  · rfl

/-- The lowercase form of a text, behind the mark. -/
def lowerText (s : String) : String :=
  String.ofList ('0' :: 'x' :: lowerDigits s)

theorem lowerText_of_spells {s : String} {bytes : List UInt8} (h : Spells s bytes) :
    lowerText s = Hex.bytesText bytes := by
  rw [lowerText, h, Hex.bytesText]

/-- Writing the signers of a text again gives the text where vanity and
seal are zeros. -/
theorem cliqueText_eq_lowerText_iff {s : String} {vanity signature : List UInt8}
    {l : List Address} (hv : vanity.length = vanityLength) (hs : signature.length = sealLength)
    (h : Spells s (assemble vanity l signature)) :
    cliqueText l = lowerText s ↔
      vanity = List.replicate vanityLength 0 ∧ signature = List.replicate sealLength 0 := by
  rw [lowerText_of_spells h, cliqueText, clique_eq_assemble]
  constructor
  · intro heq
    have hbytes := Hex.bytesText_injective heq
    obtain ⟨hvanity, -, hsignature⟩ := assemble_inj (by rw [List.length_replicate, hv])
      (by rw [List.length_replicate, hs]) hbytes
    exact ⟨hvanity.symm, hsignature.symm⟩
  · rintro ⟨rfl, rfl⟩
    rfl

/-- **The codec**: signers are read back from their text in every spelling
of it; a text is read as signers, refused as no hexadecimal text or refused
for its length as its digits tell; and the signers of a text spell the text
again just where its vanity and its seal are zeros. -/
theorem clique_codec_is_exact :
    (∀ l, signers (cliqueText l) = .ok l ∧
      ∀ mark ∈ [[], ['0', 'x'], ['0', 'X']],
        ∀ ds ∈ [Hex.encode (clique l), (Hex.encode (clique l)).map Char.toUpper],
          signers (String.ofList (mark ++ ds)) = .ok l) ∧
    (∀ s l, signers s = .ok l ↔
      ∃ vanity signature, vanity.length = 32 ∧ signature.length = 65 ∧
        Spells s (vanity ++ l.flatMap FixedBytes.bytes ++ signature)) ∧
    (∀ s e, signers s = .error e ↔
      ¬ IsHex s ∧ e = .invalidHex s ∨
      IsHex s ∧ ∃ n, (Hex.dropMark s.toList).length = 2 * n ∧ e = .malformedExtraData n ∧
        (n < 97 ∨ (n - 97) % 20 ≠ 0)) ∧
    ∀ s l vanity signature, vanity.length = 32 → signature.length = 65 →
      Spells s (vanity ++ l.flatMap FixedBytes.bytes ++ signature) →
        (cliqueText l = lowerText s ↔
          vanity = List.replicate 32 0 ∧ signature = List.replicate 65 0) := by
  refine ⟨fun l => ⟨signers_cliqueText l, fun mark hmark ds hds => ?_⟩,
    fun s l => signers_eq_ok_iff, fun s e => signers_eq_error_iff,
    fun s l vanity signature hv hs h => cliqueText_eq_lowerText_iff hv hs h⟩
  have hlower : ds.map Char.toLower = Hex.encode (clique l) := by
    simp only [List.mem_cons, List.not_mem_nil, or_false] at hds
    rcases hds with rfl | rfl
    · exact Hex.toLower_encode _
    · exact map_toLower_map_toUpper _
  rw [signers_of_spells (spells_of_marked hmark hlower), cliqueSigners_clique]

end Provision.ExtraData
