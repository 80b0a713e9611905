/-
Provision.Proofs.Genesis.Entries — the entries of the addresses.

A document has an entry for each address that holds something. Of an entry
it tells all but how it came about: one wei of an account is written like
the one wei of a low address. `flatEntry?` and `nestedEntry?` say what the
entry of an address is. Two documents have the same accounts just when every
address has the same entry in both (`entries_of_canonical`,
`encodeAllocation_congr`).
-/
import Provision.Proofs.Genesis.Allocation

namespace Provision.Genesis

open Json

/-! ## Entries -/

/-- What a document tells of an address. -/
@[ext]
structure Entry where
  balance : HexText
  code : Option HexText := none
  storage : Option Storage := none
  builtin : Option Builtin := none
deriving DecidableEq

namespace Entry

/-- One wei. -/
def wei : Entry where
  balance := .ofNat 1

/-- One wei and a builtin contract. -/
def ofBuiltin (b : Builtin) : Entry where
  balance := .ofNat 1
  builtin := some b

/-- An account of the description, but for its address. -/
def ofAccount (x : Account) : Entry where
  balance := x.balance
  code := x.code
  storage := x.storage

/-- An entry as a document spells it. -/
def encode (e : Entry) : Json :=
  .obj ([("balance", .str e.balance.text)] ++
    member? "code" (e.code.map fun c => .str c.text) ++
    member? "storage" (e.storage.map encodeStorage) ++
    member? "builtin" (e.builtin.map Builtin.encode))

theorem distinctKeys_encode (e : Entry) : e.encode.DistinctKeys := by
  obtain ⟨balance, code, storage, builtin⟩ := e
  cases code <;> cases storage <;> cases builtin <;>
    simp [encode, member?, distinctKeys_obj, distinctKeys_encodeStorage,
      Builtin.distinctKeys_encode]

theorem get?_encode_balance (e : Entry) : e.encode.get? "balance" = some (.str e.balance.text) :=
  rfl

theorem get?_encode_code (e : Entry) :
    e.encode.get? "code" = e.code.map fun c => .str c.text := by
  obtain ⟨balance, code, storage, builtin⟩ := e
  cases code <;> cases storage <;> cases builtin <;> rfl

theorem get?_encode_storage (e : Entry) :
    e.encode.get? "storage" = e.storage.map encodeStorage := by
  obtain ⟨balance, code, storage, builtin⟩ := e
  cases code <;> cases storage <;> cases builtin <;> rfl

theorem get?_encode_builtin (e : Entry) :
    e.encode.get? "builtin" = e.builtin.map Builtin.encode := by
  obtain ⟨balance, code, storage, builtin⟩ := e
  cases code <;> cases storage <;> cases builtin <;> rfl

/-- **An entry is told by what is written of it.** -/
theorem encode_inj {e f : Entry} (h : e.encode.canonical = f.encode.canonical) : e = f := by
  have hmember := get?_of_canonical_eq e.distinctKeys_encode f.distinctKeys_encode h
  have hbalance := hmember "balance"
  have hcode := hmember "code"
  have hstorage := hmember "storage"
  have hbuiltin := hmember "builtin"
  rw [get?_encode_balance, get?_encode_balance] at hbalance
  rw [get?_encode_code, get?_encode_code] at hcode
  rw [get?_encode_storage, get?_encode_storage] at hstorage
  rw [get?_encode_builtin, get?_encode_builtin] at hbuiltin
  have hbalance := hexText_canonical_inj (Option.some.inj hbalance)
  have hcode := map_canonical_inj (fun _ _ => hexText_canonical_inj) hcode
  have hstorage := map_canonical_inj (fun _ _ => encodeStorage_canonical_inj) hstorage
  have hbuiltin := map_canonical_inj (fun _ _ => Builtin.encode_inj) hbuiltin
  exact Entry.ext hbalance hcode hstorage hbuiltin

end Entry

/-! ## The entry of an address -/

/-- The entry of what an address holds. -/
def Holding.entry : Holding → Entry
  | .wei => .wei
  | .builtin b => .ofBuiltin b
  | .account x => .ofAccount x

theorem encode_entry (h : Holding) : h.entry.encode = h.encode := by
  cases h with
  | wei => rfl
  | builtin b => rfl
  | account x => simp [Holding.entry, Entry.ofAccount, Entry.encode, Holding.encode, member?]

/-- The entry of an address for a client that knows the builtin contracts:
the last account of the description there, or else one wei up to 0xff. -/
def flatEntry? (g : Genesis) (a : Address) : Option Entry :=
  ((lastAccount? g.accounts a).map Entry.ofAccount).or (if a.IsLow then some .wei else none)

/-- The entry of an address for a client that is told of the builtin
contracts: the last account of the description there, or else the contract
there, or else one wei up to 0xff. -/
def nestedEntry? (g : Genesis) (a : Address) : Option Entry :=
  ((lastAccount? g.accounts a).map Entry.ofAccount).or
    ((((Builtin.registry g.forks).get? a).map Entry.ofBuiltin).or
      (if a.IsLow then some .wei else none))

theorem get?_allocation_entry (g : Genesis) (a : Address) :
    (g.allocation.get? a).map Holding.entry = g.flatEntry? a := by
  rw [get?_allocation, flatEntry?]
  cases lastAccount? g.accounts a with
  | some x => rfl
  | none => by_cases h : a.IsLow <;> simp [h, Holding.entry]

theorem get?_builtinAllocation_entry (g : Genesis) (a : Address) :
    (g.builtinAllocation.get? a).map Holding.entry = g.nestedEntry? a := by
  rw [get?_builtinAllocation, nestedEntry?]
  cases lastAccount? g.accounts a with
  | some x => rfl
  | none =>
    cases (Builtin.registry g.forks).get? a with
    | some b => rfl
    | none => by_cases h : a.IsLow <;> simp [h, Holding.entry]

/-! ## The accounts of a document -/

theorem encodeAllocation_eq (m : Allocation) :
    encodeAllocation m = ofMap FixedBytes.text Entry.encode (m.mapValues Holding.entry) := by
  rw [encodeAllocation, ofMap, OrderedMap.mapValues, List.map_map]
  exact congrArg obj (List.map_congr_left fun e _ => by rw [Function.comp, encode_entry])

/-- The accounts of a document tell the entry of every address. -/
theorem entries_of_canonical {m n : Allocation}
    (h : (encodeAllocation m).canonical = (encodeAllocation n).canonical) (a : Address) :
    (m.get? a).map Holding.entry = (n.get? a).map Holding.entry := by
  rw [encodeAllocation_eq, encodeAllocation_eq] at h
  have hmap := ofMap_canonical_inj (fun _ _ => FixedBytes.text_injective)
    Entry.distinctKeys_encode (fun _ _ => Entry.encode_inj) h
  rw [← OrderedMap.get?_mapValues, hmap, OrderedMap.get?_mapValues]

/-- The accounts of a document tell nothing but the entries. -/
theorem encodeAllocation_congr {m n : Allocation}
    (h : ∀ a, (m.get? a).map Holding.entry = (n.get? a).map Holding.entry) :
    encodeAllocation m = encodeAllocation n := by
  have hmap : m.mapValues Holding.entry = n.mapValues Holding.entry :=
    OrderedMap.ext_get? fun a => by
      rw [OrderedMap.get?_mapValues, OrderedMap.get?_mapValues, h a]
  rw [encodeAllocation_eq, encodeAllocation_eq, hmap]

end Provision.Genesis
