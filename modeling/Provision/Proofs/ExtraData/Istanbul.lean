/-
Provision.Proofs.ExtraData.Istanbul — the extra data of an Istanbul network
tells its validators.

The header of the list and that of the validators in it change their form
with the number of validators, at different numbers. A strict reader takes
both for what they are (`Rlp.decode_encode`), so no validator and no order
of validators is lost: `istanbulText_is_read_back`. Lists of other
validators have other texts also where they are too long for any reader
(`istanbulText_injective`).
-/
import Provision.ExtraData.Istanbul
import Provision.Proofs.Hex
import Provision.Proofs.Rlp

namespace Provision.ExtraData

theorem istanbulText_of_ne_nil {validators : List Address} (h : validators ≠ []) :
    istanbulText validators = .ok (Hex.bytesText (istanbulItem validators).encode) := by
  unfold istanbulText istanbul
  rw [if_neg h]
  rfl

theorem istanbulText_eq_error_iff {validators : List Address} {e : EncodingError} :
    istanbulText validators = .error e ↔ validators = [] ∧ e = .emptyValidatorSet := by
  by_cases h : validators = []
  · unfold istanbulText istanbul
    rw [if_pos h]
    constructor
    · intro he
      cases he
      exact ⟨h, rfl⟩
    · rintro ⟨-, rfl⟩
      rfl
  · rw [istanbulText_of_ne_nil h]
    simp [h]

theorem istanbulItem_injective {v w : List Address} (h : istanbulItem v = istanbulItem w) :
    v = w := by
  simp only [istanbulItem, Rlp.list.injEq, List.cons.injEq, true_and, and_true] at h
  have hinj (a b : Address) (hab : Rlp.bytes a.bytes = .bytes b.bytes) : a = b :=
    FixedBytes.ext_bytes (Rlp.bytes.inj hab)
  exact (List.map_inj_right hinj).mp h

/-! ## No bound on the number of validators -/

theorem encode_address (a : Address) :
    (Rlp.bytes a.bytes).encode = Rlp.header Rlp.bytesBase 20 ++ a.bytes := by
  have hlen := a.length_bytes
  rw [Rlp.encode, Rlp.encodeBytes_of_header, hlen]
  intro x hx
  rw [hx] at hlen
  cases hlen

/-- Addresses stand one after the other in pieces of one length. -/
theorem encodeItems_addresses_inj {v w : List Address}
    (h : Rlp.encodeItems (v.map fun a => .bytes a.bytes) =
      Rlp.encodeItems (w.map fun a => .bytes a.bytes)) : v = w := by
  induction v generalizing w with
  | nil =>
    cases w with
    | nil => rfl
    | cons b w =>
      simp only [List.map_nil, List.map_cons, Rlp.encodeItems] at h
      exact absurd (List.append_eq_nil_iff.mp h.symm).1 (Rlp.encode_ne_nil _)
  | cons a v ih =>
    cases w with
    | nil =>
      simp only [List.map_nil, List.map_cons, Rlp.encodeItems] at h
      exact absurd (List.append_eq_nil_iff.mp h).1 (Rlp.encode_ne_nil _)
    | cons b w =>
      simp only [List.map_cons, Rlp.encodeItems, encode_address, List.append_assoc] at h
      have hlen : a.bytes.length = b.bytes.length := by rw [a.length_bytes, b.length_bytes]
      obtain ⟨hhead, hrest⟩ := List.append_inj (List.append_cancel_left h) hlen
      rw [FixedBytes.ext_bytes hhead, ih hrest]

/-- No two lists of validators have one item's bytes, however many they are. -/
theorem encode_istanbulItem_inj {v w : List Address}
    (h : (istanbulItem v).encode = (istanbulItem w).encode) : v = w := by
  rw [istanbulItem, istanbulItem, Rlp.encode_list, Rlp.encode_list] at h
  have hitems := Rlp.header_append_inj h
  simp only [Rlp.encodeItems] at hitems
  -- The same bytes stand before and behind the list of validators.
  have hlist := List.append_cancel_right (List.append_cancel_left hitems)
  rw [Rlp.encode_list, Rlp.encode_list] at hlist
  exact encodeItems_addresses_inj (Rlp.header_append_inj hlist)

theorem istanbulText_injective {v w : List Address} {s : String}
    (hv : istanbulText v = .ok s) (hw : istanbulText w = .ok s) : v = w := by
  have hne : ∀ {u}, istanbulText u = .ok s → u ≠ [] := by
    rintro u hu rfl
    cases hu
  rw [istanbulText_of_ne_nil (hne hv)] at hv
  rw [istanbulText_of_ne_nil (hne hw)] at hw
  exact encode_istanbulItem_inj (Hex.bytesText_injective (Except.ok.inj (hv.trans hw.symm)))

/-- **Read back**: there is no extra data without validators. With some, the
strict reader takes its bytes, and no others, for the list of vanity,
validators, vote, round and seals; so no two lists of validators have one
text. -/
theorem istanbulText_is_read_back (validators : List Address) :
    (∀ e, istanbulText validators = .error e ↔ validators = [] ∧ e = .emptyValidatorSet) ∧
    (validators ≠ [] → (istanbulItem validators).encode.length < 2 ^ 64 →
      ∃ bytes, istanbulText validators = .ok (Hex.bytesText bytes) ∧
        (∀ b, Rlp.decode b = some (.list
            [.bytes (List.replicate 32 0),
             .list (validators.map fun v => .bytes v.bytes),
             .bytes [],
             .bytes [0, 0, 0, 0],
             .list []]) ↔ b = bytes) ∧
        ∀ others, istanbulText others = istanbulText validators → others = validators) := by
  refine ⟨fun e => istanbulText_eq_error_iff, fun hne hsize => ?_⟩
  have htext := istanbulText_of_ne_nil hne
  refine ⟨(istanbulItem validators).encode, htext, fun b => ?_, fun others h => ?_⟩
  · constructor
    · intro h
      exact Rlp.eq_encode_of_decode h
    · rintro rfl
      exact Rlp.decode_encode hsize
  · rw [htext] at h
    have hne' : others ≠ [] := by
      rintro rfl
      cases h
    rw [istanbulText_of_ne_nil hne'] at h
    have hbytes := Hex.bytesText_injective (Except.ok.inj h)
    have hread := Rlp.decode_encode hsize
    rw [← hbytes, Rlp.decode_encode (by rw [hbytes]; exact hsize)] at hread
    exact istanbulItem_injective (Option.some.inj hread)

theorem two_validators_are_read_back :
    ∃ bytes, istanbulText [.ofLastByte 1, .ofLastByte 2] = .ok (Hex.bytesText bytes) ∧
      (∀ b, Rlp.decode b = some (.list
          [.bytes (List.replicate 32 0),
           .list [.bytes (Address.ofLastByte 1).bytes, .bytes (Address.ofLastByte 2).bytes],
           .bytes [],
           .bytes [0, 0, 0, 0],
           .list []]) ↔ b = bytes) ∧
      ∀ others, istanbulText others = istanbulText [.ofLastByte 1, .ofLastByte 2] →
        others = [.ofLastByte 1, .ofLastByte 2] :=
  (istanbulText_is_read_back [.ofLastByte 1, .ofLastByte 2]).2 (by decide) (by decide +kernel)

end Provision.ExtraData
