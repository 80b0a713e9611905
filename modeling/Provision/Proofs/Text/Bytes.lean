/-
Provision.Proofs.Text.Bytes — the order of texts is that of their bytes.

UTF-8 gives a greater character a greater first byte or, behind the same
bits, a greater byte later on (`utf8EncodeChar_append_lt`). So texts are in
the same order by their characters and by their bytes (`utf8_lt_of_lt`).
-/
import Mathlib.Data.List.Lex
import Mathlib.Tactic.SplitIfs

namespace Provision.Text

/-- The bytes of a text. -/
def utf8 (s : String) : List UInt8 :=
  s.toUTF8.data.toList

theorem utf8_eq_flatMap (s : String) : utf8 s = s.toList.flatMap String.utf8EncodeChar := by
  rw [utf8, String.toUTF8_eq_toByteArray, ← String.utf8Encode_toList, List.utf8Encode]
  simp

/-! ## One character -/

/-- A byte comes before a greater one, whatever follows. -/
theorem byte_cons_lt {a b : Nat} (h : a < b) (hb : b < 256) (s t : List UInt8) :
    UInt8.ofNat a :: s < UInt8.ofNat b :: t :=
  List.Lex.rel ((UInt8.ofNat_lt_iff_lt (Nat.lt_trans h hb) hb).mpr h)

/-- Where the bits in front decide, six more bits change nothing; where they
are the same, the six bits decide. -/
theorem more_bits_lt (lead : Nat → List UInt8) {v w : Nat} (h : v < w)
    (hlead : v / 64 < w / 64 → ∀ s t, lead (v / 64) ++ s < lead (w / 64) ++ t) (s t : List UInt8) :
    lead (v / 64) ++ UInt8.ofNat (v % 64 + 128) :: s <
      lead (w / 64) ++ UInt8.ofNat (w % 64 + 128) :: t := by
  obtain hlt | heq : v / 64 < w / 64 ∨ v / 64 = w / 64 := by omega
  · exact hlead hlt _ _
  · rw [heq]
    exact List.append_left_lt (byte_cons_lt (by omega) (by omega) s t)

/-- The bytes of a smaller character come first, whatever follows. -/
theorem utf8EncodeChar_append_lt {c d : Char} (h : c < d) (s t : List UInt8) :
    String.utf8EncodeChar c ++ s < String.utf8EncodeChar d ++ t := by
  have hcd : c.val.toNat < d.val.toNat := h
  have hd : d.val.toNat < 0x110000 := by
    obtain h | ⟨-, h⟩ := d.valid
    · exact Nat.lt_trans h (by decide)
    · exact h
  unfold String.utf8EncodeChar
  generalize c.val.toNat = v at hcd ⊢
  generalize d.val.toNat = w at hcd hd ⊢
  have two (hw : w ≤ 0x7ff) := more_bits_lt (fun u => [UInt8.ofNat (u % 32 + 192)]) hcd
    fun _ => byte_cons_lt (by omega) (by omega)
  have three (hw : w ≤ 0xffff) := more_bits_lt
    (fun u => [UInt8.ofNat (u / 64 % 16 + 224), UInt8.ofNat (u % 64 + 128)]) hcd fun hlt =>
      more_bits_lt (fun u => [UInt8.ofNat (u % 16 + 224)]) hlt
        fun _ => byte_cons_lt (by omega) (by omega)
  have four := more_bits_lt
    (fun u => [UInt8.ofNat (u / 64 / 64 % 8 + 240), UInt8.ofNat (u / 64 % 64 + 128),
      UInt8.ofNat (u % 64 + 128)]) hcd fun hlt =>
      more_bits_lt (fun u => [UInt8.ofNat (u / 64 % 8 + 240), UInt8.ofNat (u % 64 + 128)]) hlt
        fun hlt => more_bits_lt (fun u => [UInt8.ofNat (u % 8 + 240)]) hlt
          fun _ => byte_cons_lt (by omega) (by omega)
  simp only [Nat.div_div_eq_div_mul, Nat.reduceMul, List.cons_append, List.nil_append]
    at two three four
  simp only
  split_ifs
  -- A character of more bytes than another is greater, and so is its first byte.
  all_goals
    first
      | exact byte_cons_lt (by omega) (by omega) _ _
      | exact two ‹_› s t
      | exact three ‹_› s t
      | exact four s t

/-! ## Texts -/

theorem flatMap_utf8EncodeChar_lt {l m : List Char} (h : l < m) :
    l.flatMap String.utf8EncodeChar < m.flatMap String.utf8EncodeChar := by
  induction h with
  | nil =>
    rename_i d m
    obtain ⟨b, rest, hd⟩ := List.exists_cons_of_ne_nil (String.utf8EncodeChar_ne_nil (c := d))
    rw [List.flatMap_cons, hd]
    exact List.Lex.nil
  | rel h =>
    rw [List.flatMap_cons, List.flatMap_cons]
    exact utf8EncodeChar_append_lt h _ _
  | cons _ ih =>
    rw [List.flatMap_cons, List.flatMap_cons]
    exact List.append_left_lt ih

/-- **Order**: a text that comes first by its characters comes first by its
bytes. -/
theorem utf8_lt_of_lt {a b : String} (h : a < b) : utf8 a < utf8 b := by
  rw [utf8_eq_flatMap, utf8_eq_flatMap]
  exact flatMap_utf8EncodeChar_lt h

end Provision.Text
