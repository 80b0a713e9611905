/-
Provision.Account.Layout — genesis accounts as JSON.

Storage is an object of verbatim hexadecimal texts; of two members with
one slot the later wins, and it is written in the order of the slots.
-/
import Provision.Account
import Provision.Json.Layout

namespace Provision

open Json

/-! ## Storage -/

/-- The object of a storage. -/
def encodeStorage (s : Storage) : Json :=
  .obj (s.entries.map fun e => (e.1.text, .str e.2.text))

/-- Reads the slots of a storage in order. -/
def decodeSlots : List (Key × Source) → Storage → Except Halt Storage
  | [], s => .ok s
  | (key, value) :: rest, s => do
    let slot ← readKey key >>= readHexText
    let content ← decodeHexText value
    decodeSlots rest (s.insert slot content)

/-- Reads a storage. -/
def decodeStorage : Decoder Storage
  | .object members closing => do
    let s ← decodeSlots members .empty
    proceed closing.wanted
    .ok s
  | s => mismatch "a map" s

/-- The codec of storage. -/
def storageCodec : Codec Storage := ⟨encodeStorage, decodeStorage⟩

/-- Slots that were written are read into the storage one by one. -/
theorem decodeSlots_ofMembers {c : Closing} (hc : c.IsWhole) (l : List (HexText × HexText))
    (s : Storage) :
    decodeSlots (Source.ofMembers c (l.map fun e => (e.1.text, Json.str e.2.text))) s =
      .ok (s.insertAll l) := by
  induction l generalizing s with
  | nil => rfl
  | cons e l ih =>
    have hk : readHexText e.1.text = .ok e.1 := by simp [readHexText, HexText.ofText?_text]
    have hv : decodeHexText (Source.ofJson c (.str e.2.text)) = .ok e.2 :=
      Codec.hexText_lawful c hc e.2
    simp only [List.map_cons, Source.ofMembers, decodeSlots, readKey, bind, Except.bind, hk, hv, ih]
    rfl

theorem storageCodec_lawful : storageCodec.Lawful := fun c hc s => by
  have hw : c.wanted = none := hc
  simp only [storageCodec, encodeStorage, Source.ofJson, decodeStorage,
    decodeSlots_ofMembers hc, bind, Except.bind, proceed, hw]
  exact congrArg Except.ok (OrderedMap.ofList_entries s)

/-! ## Accounts -/

namespace Account

/-- The fields of an account. -/
inductive Field where
  | address
  | balance
  | code
  | storage
deriving DecidableEq, Repr

/-- The fields in their order. -/
def Field.all : List Field :=
  [.address, .balance, .code, .storage]

/-- The name of a field. -/
def Field.name : Field → String
  | .address => "address"
  | .balance => "balance"
  | .code => "code"
  | .storage => "storage"

/-- The type of the value of a field. -/
def Field.Value : Field → Type
  | .address => Address
  | .balance => HexText
  | .code => Option HexText
  | .storage => Option Storage

/-- How the value of a field is written and read. -/
def Field.slot : (f : Field) → Slot f.Value
  | .address => .always (.fixedBytes 20)
  | .balance => .always .hexText
  | .code => .optional .hexText
  | .storage => .optional storageCodec

/-- The fields that must be there. -/
def Field.required : Field → Bool
  | .address | .balance => true
  | _ => false

/-- The value of a field. -/
def get (x : Account) : (f : Field) → f.Value
  | .address => x.address
  | .balance => x.balance
  | .code => x.code
  | .storage => x.storage

/-- The account of these values. -/
def make (v : (f : Field) → f.Value) : Account where
  address := v .address
  balance := v .balance
  code := v .code
  storage := v .storage

/-- How an account is written and read. -/
def layout : Layout Account where
  Field := Field
  title := "struct Account"
  fields := Field.all
  name := Field.name
  Value := Field.Value
  slot := Field.slot
  get := get
  make := make
  required := Field.required
  template := { address := .zero 20, balance := .ofNat 0 }

theorem Field.find?_name (f : Field) : Field.all.find? (fun g => g.name = f.name) = some f := by
  cases f <;> decide

theorem layout_lawful : layout.Lawful where
  fields_nodup := (by decide : Field.all.Nodup)
  field?_name := Field.find?_name
  slot_lawful f := by
    cases f
    · exact Slot.always_lawful (Codec.fixedBytes_lawful 20)
    · exact Slot.always_lawful Codec.hexText_lawful
    · exact Slot.optional_lawful Codec.hexText_lawful fun _ => nofun
    · exact Slot.optional_lawful storageCodec_lawful fun _ => nofun
  left_out f v h := by
    cases f
    case code | storage => exact ⟨rfl, (Slot.eq_none_of_left_out h).symm⟩
    all_goals exact (Slot.always_ne_none h).elim
  make_get _ := rfl

/-- Reads the text of an account. -/
def ofText (text : String) : Except Failure Account :=
  decodeDocument layout.decode text

end Account

end Provision
