/-
Provision.FixedBytes — byte strings of a fixed length, such as addresses
and hashes.

They are written as `0x` and two lowercase digits a byte. Text is read in
either case, with or without the `0x`; what is wrong with a text that
does not fit is said by a `TextFault`, of which the first in the order of
its constructors is reported. The order of two byte strings is that of
their first differing byte, which is also the order of their texts.
-/
import Provision.Decimal.Basic
import Provision.Hex
import Provision.Text.Quoted

namespace Provision

/-- Byte strings of length `n`. -/
structure FixedBytes (n : Nat) where
  bytes : List UInt8
  length_bytes : bytes.length = n
deriving DecidableEq

/-- An account address. -/
abbrev Address := FixedBytes 20

/-- A hash or another word of 32 bytes. -/
abbrev Hash := FixedBytes 32

namespace FixedBytes

variable {n : Nat}

theorem ext_bytes {a b : FixedBytes n} (h : a.bytes = b.bytes) : a = b := by
  cases a; cases b; cases h; rfl

/-! ## Order -/

instance : Ord (FixedBytes n) := ⟨fun a b => compare a.bytes b.bytes⟩

instance : Std.TransOrd (FixedBytes n) where
  eq_swap {a b} :=
    show compare a.bytes b.bytes = (compare b.bytes a.bytes).swap from Std.OrientedCmp.eq_swap
  isLE_trans {a b c} (h₁ : (compare a.bytes b.bytes).isLE) (h₂ : (compare b.bytes c.bytes).isLE) :=
    show (compare a.bytes c.bytes).isLE from Std.TransCmp.isLE_trans h₁ h₂

instance : Std.LawfulEqOrd (FixedBytes n) where
  compare_self {a} := show compare a.bytes a.bytes = .eq from Std.ReflCmp.compare_self
  eq_of_compare {a b} (h : compare a.bytes b.bytes = .eq) :=
    ext_bytes (Std.LawfulEqCmp.eq_of_compare h)

/-! ## Values -/

/-- The byte string of zeros. -/
def zero (n : Nat) : FixedBytes n := ⟨List.replicate n 0, List.length_replicate⟩

/-- The byte string of these bytes, if their number is right. -/
def ofBytes? (n : Nat) (bytes : List UInt8) : Option (FixedBytes n) :=
  if h : bytes.length = n then some ⟨bytes, h⟩ else none

@[simp] theorem ofBytes?_bytes (b : FixedBytes n) : ofBytes? n b.bytes = some b := by
  simp [ofBytes?, b.length_bytes]

/-! ## Text -/

/-- `0x` and the lowercase digits. -/
def text (b : FixedBytes n) : String :=
  Hex.bytesText b.bytes

/-- Distinct byte strings have distinct texts. -/
theorem text_injective {a b : FixedBytes n} (h : a.text = b.text) : a = b := by
  have h' := congrArg String.toList h
  simp only [text, Hex.bytesText, String.toList_ofList, List.cons.injEq, true_and] at h'
  exact ext_bytes (Hex.encode_injective h')

/-- Why a text is no byte string of the wanted length. -/
inductive TextFault where
  /-- An odd number of digits. -/
  | oddDigits
  /-- An even number of digits, but not two a byte. -/
  | wrongLength
  /-- A character that is no digit, and its place after the `0x`. -/
  | badCharacter (c : Char) (position : Nat)
deriving DecidableEq, Repr

/-- What a message says about the fault. -/
def TextFault.message : TextFault → String
  | .oddDigits => "odd number of digits"
  | .wrongLength => "invalid string length"
  | .badCharacter c p =>
    "invalid character " ++ Text.quoteChar c ++ " at position " ++ Decimal.text p

/-- The UTF-8 bytes of a text, each as the character of its number:
positions and lengths of a text count bytes. -/
def utf8Characters (s : List Char) : List Char :=
  s.flatMap fun c => (String.utf8EncodeChar c).map fun b => Char.ofNat b.toNat

/-- The first character that is no hexadecimal digit, with its place. -/
def firstNonDigit (s : List Char) : Option (Char × Nat) :=
  s.zipIdx.find? fun c => !Hex.isDigit c.1

/-- Reads `2 * n` digits of either case after an optional `0x` or `0X`. -/
def ofText (n : Nat) (s : String) : Except TextFault (FixedBytes n) :=
  let ds := Hex.dropMark (utf8Characters s.toList)
  if ds.length % 2 = 1 then .error .oddDigits
  else if ds.length / 2 ≠ n then .error .wrongLength
  else match firstNonDigit ds with
    | some (c, p) => .error (.badCharacter c p)
    | none =>
      match (Hex.decode ds).bind (ofBytes? n) with
      | some b => .ok b
      | none => .error .wrongLength

/-! ## Round trip -/

theorem utf8Characters_ascii {s : List Char} (h : ∀ c ∈ s, c.toNat < 0x80) :
    utf8Characters s = s := by
  induction s with
  | nil => rfl
  | cons c s ih =>
    have hle : c.toNat ≤ 127 := Nat.le_of_lt_succ (h c List.mem_cons_self)
    have hb : (UInt8.ofNat c.toNat).toNat = c.toNat := by
      simp only [UInt8.toNat_ofNat']
      omega
    have h1 : String.utf8EncodeChar c = [UInt8.ofNat c.toNat] := by
      simp [String.utf8EncodeChar, hle]
    have ih' := ih fun x hx => h x (List.mem_cons_of_mem _ hx)
    simp only [utf8Characters] at ih' ⊢
    rw [List.flatMap_cons, ih', h1]
    simp only [List.map_cons, List.map_nil, hb, Char.ofNat_toNat, List.cons_append,
      List.nil_append]

theorem firstNonDigit_of_all {s : List Char} (h : s.all Hex.isDigit = true) :
    firstNonDigit s = none := by
  simp only [firstNonDigit, List.find?_eq_none, Bool.not_eq_true, Bool.not_eq_false']
  rintro ⟨c, i⟩ hc
  exact List.all_eq_true.mp h c (List.fst_mem_of_mem_zipIdx hc)

/-- **Round trip**: a text that was written reads back as its bytes. -/
theorem ofText_text (b : FixedBytes n) : ofText n b.text = .ok b := by
  have hascii : ∀ c ∈ '0' :: 'x' :: Hex.encode b.bytes, c.toNat < 0x80 := by
    intro c hc
    rcases List.mem_cons.mp hc with rfl | hc
    · decide
    rcases List.mem_cons.mp hc with rfl | hc
    · decide
    exact Hex.toNat_lt_of_isDigit (List.all_eq_true.mp (Hex.encode_all _) c hc)
  have hlen : (Hex.encode b.bytes).length = 2 * n := by
    rw [Hex.length_encode, b.length_bytes]
  have h1 : ¬ 2 * n % 2 = 1 := by omega
  have h2 : 2 * n / 2 = n := by omega
  simp only [ofText, text, Hex.bytesText, String.toList_ofList, utf8Characters_ascii hascii,
    Hex.dropMark, hlen, firstNonDigit_of_all (Hex.encode_all _), Hex.decode_encode,
    Option.bind_some, ofBytes?_bytes, h1, h2, if_false, ne_eq, not_true_eq_false]

end FixedBytes

instance : Std.TransOrd Address := inferInstanceAs (Std.TransOrd (FixedBytes 20))

instance : Std.LawfulEqOrd Address := inferInstanceAs (Std.LawfulEqOrd (FixedBytes 20))

/-- The address whose bytes are zeros before a last one. -/
def Address.ofLastByte (b : UInt8) : Address :=
  ⟨List.replicate 19 0 ++ [b], by simp⟩

end Provision
