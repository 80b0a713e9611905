/-
Provision.Json.Codec — values that are written as JSON and read back.

A codec writes the values of a type and reads them; it is lawful when
reading undoes writing. A slot does the same for the value of a member,
which may be left out. The codecs of texts, numbers, names, bytes and
lists are lawful (`Codec.text_lawful` and so on), and so is the slot of a
lawful codec.
-/
import Provision.Json.Decoder

namespace Provision.Json

/-! ## Codecs -/

/-- How the values of a type are written and read. -/
structure Codec (β : Type) where
  write : β → Json
  read : Decoder β

/-- Reading undoes writing, from a text as well as from memory. -/
def Codec.Lawful {β : Type} (c : Codec β) : Prop :=
  ∀ (e : Closing), e.IsWhole → ∀ v, c.read (.ofJson e (c.write v)) = .ok v

namespace Codec

variable {β : Type}

/-- Texts. -/
def text : Codec String := ⟨.str, decodeText⟩

/-- Booleans. -/
def bool : Codec Bool := ⟨.bool, decodeBool⟩

/-- Numbers of 64 bits. -/
def uint64 : Codec UInt64 := ⟨.nat, decodeUInt64⟩

/-- Numbers of 16 bits. -/
def uint16 : Codec UInt16 := ⟨fun n => .nat n.toUInt64, decodeUInt16⟩

/-- Hexadecimal text, verbatim. -/
def hexText : Codec HexText := ⟨fun h => .str h.text, decodeHexText⟩

/-- Bytes, written as hexadecimal text. -/
def fixedBytes (n : Nat) : Codec (FixedBytes n) := ⟨fun b => .str b.text, decodeFixedBytes n⟩

/-- Names. -/
def named (name : β → String) (all : List β) : Codec β :=
  ⟨fun b => .str (name b), decodeVariant (all.map fun b => (name b, b))⟩

/-- Lists, written as arrays. -/
def list (c : Codec β) : Codec (List β) :=
  ⟨fun vs => .arr (vs.map c.write), decodeList c.read⟩

/-! ## Laws of the codecs -/

theorem text_lawful : text.Lawful := fun _ _ s => by
  rfl

theorem bool_lawful : bool.Lawful := fun _ _ _ => rfl

theorem decodeNat_ofJson {width : Nat} (name : String) {n : UInt64} {e : Closing}
    (h : n.toNat < 2 ^ width) : decodeNat width name (.ofJson e (.nat n)) = .ok n.toNat := by
  simp [Source.ofJson, decodeNat, h]

theorem uint64_lawful : uint64.Lawful := fun e _ n => by
  have h := decodeNat_ofJson "u64" (e := e) n.toNat_lt
  simp only [uint64, decodeUInt64, h, Except.map]
  simp

theorem uint16_lawful : uint16.Lawful := fun e _ n => by
  have hlt : n.toUInt64.toNat < 2 ^ 16 := by simpa using n.toNat_lt
  have h := decodeNat_ofJson "u16" (e := e) hlt
  simp only [uint16, decodeUInt16, h, Except.map]
  simp

theorem hexText_lawful : hexText.Lawful := fun _ _ h => by
  simp [hexText, Source.ofJson, decodeHexText, decodeText, readHexText, HexText.ofText?_text,
    bind, Except.bind]

theorem fixedBytes_lawful (n : Nat) : (fixedBytes n).Lawful := fun _ _ b => by
  simp [fixedBytes, Source.ofJson, decodeFixedBytes, FixedBytes.ofText_text]

theorem named_lawful (name : β → String) (all : List β) (hall : ∀ b, b ∈ all)
    (hname : ∀ a b, name a = name b → a = b) : (named name all).Lawful := fun _ _ b => by
  have h : (all.map fun b => (name b, b)).lookup (name b) = some b := by
    have hmem := hall b
    clear hall
    induction all with
    | nil => simp at hmem
    | cons a all ih =>
      by_cases hab : name b = name a
      · have := hname b a hab
        subst this
        simp
      · have hne : b ≠ a := fun h => hab (h ▸ rfl)
        have hmem' : b ∈ all := (List.mem_cons.mp hmem).resolve_left hne
        have hbeq : (name b == name a) = false := by simpa using hab
        rw [List.map_cons, List.lookup_cons, hbeq]
        exact ih hmem'
  simp [named, Source.ofJson, decodeVariant, readName, h]

theorem decodeItems_write {c : Codec β} (hc : c.Lawful) {e : Closing} (he : e.IsWhole)
    (vs : List β) : decodeItems c.read (Source.ofItems e (vs.map c.write)) = .ok vs := by
  induction vs with
  | nil => rfl
  | cons v vs ih => simp [Source.ofItems, decodeItems, hc e he v, ih, bind, Except.bind]

theorem list_lawful {c : Codec β} (hc : c.Lawful) : c.list.Lawful := fun e he vs => by
  have hw : e.wanted = none := he
  simp [list, Source.ofJson, decodeList, decodeItems_write hc he, proceed, hw, bind, Except.bind]

end Codec

/-! ## Slots -/

/-- How the value of a member is written, unless it is left out, and read. -/
structure Slot (β : Type) where
  write : β → Option Json
  read : Decoder β

namespace Slot

variable {β : Type}

/-- A value that is always written. -/
def always (c : Codec β) : Slot β := ⟨fun v => some (c.write v), c.read⟩

/-- A value that is left out when it is absent. -/
def optional (c : Codec β) : Slot (Option β) :=
  ⟨fun v => v.map c.write, decodeOption c.read⟩

/-- Reading undoes writing, where the value is written. -/
def Lawful (s : Slot β) : Prop :=
  ∀ (e : Closing), e.IsWhole → ∀ v j, s.write v = some j → s.read (.ofJson e j) = .ok v

theorem always_lawful {c : Codec β} (hc : c.Lawful) : (always c).Lawful := fun e he v j h => by
  simp only [always, Option.some.injEq] at h
  exact h ▸ hc e he v

theorem optional_lawful {c : Codec β} (hc : c.Lawful) (hnull : ∀ v, c.write v ≠ .null) :
    (optional c).Lawful := fun e he v j h => by
  cases v with
  | none => simp [optional] at h
  | some v =>
    simp only [optional, Option.map_some, Option.some.injEq] at h
    subst h
    have hne := hnull v
    have hread := hc e he v
    simp only [optional, decodeOption]
    cases hw : c.write v with
    | null => exact absurd hw hne
    | _ => rw [hw] at hread; simp_all [Source.ofJson, Except.map]

theorem always_ne_none {c : Codec β} {v : β} : (always c).write v ≠ none := nofun

/-- An optional value is left out only when it is absent. -/
theorem eq_none_of_left_out {c : Codec β} {v : Option β} (h : (optional c).write v = none) :
    v = none := by
  simpa [optional] using h

end Slot

end Provision.Json
