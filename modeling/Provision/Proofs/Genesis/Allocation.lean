/-
Provision.Proofs.Genesis.Allocation — what an address holds after the
overlays.

Three layers are asked one after the other: the accounts of the
description, of which the last for an address counts, then the builtin
contracts where the client is told of them, and then the low addresses
(`get?_allocation`, `get?_builtinAllocation`). But for the builtin
contracts the two allocations are the same
(`withoutBuiltins_builtinAllocation`).
-/
import Provision.Genesis.Allocation
import Provision.Proofs.Builtin

namespace Provision

/-! ## Low addresses -/

/-- An address all of whose bytes but the last are zeros. -/
def Address.IsLow (a : Address) : Prop :=
  a.bytes.take 19 = List.replicate 19 0

instance (a : Address) : Decidable a.IsLow :=
  inferInstanceAs (Decidable (_ = _))

theorem Address.isLow_ofLastByte (b : UInt8) : (Address.ofLastByte b).IsLow := by
  simp [Address.IsLow, Address.ofLastByte]

theorem Address.exists_of_isLow {a : Address} (h : a.IsLow) : ∃ b, a = .ofLastByte b := by
  obtain ⟨bytes, hlen⟩ := a
  have hlast : (bytes.drop 19).length = 1 := by
    rw [List.length_drop, hlen]
  obtain ⟨b, hb⟩ := List.length_eq_one_iff.mp hlast
  refine ⟨b, FixedBytes.ext_bytes ?_⟩
  calc bytes = bytes.take 19 ++ bytes.drop 19 := (List.take_append_drop 19 bytes).symm
    _ = List.replicate 19 0 ++ [b] := by rw [show bytes.take 19 = _ from h, hb]

open Json

/-! ## Storage -/

theorem encodeStorage_eq (s : Storage) :
    encodeStorage s = ofMap HexText.text (fun v : HexText => .str v.text) s :=
  rfl

theorem distinctKeys_encodeStorage (s : Storage) : (encodeStorage s).DistinctKeys := by
  rw [encodeStorage_eq]
  exact distinctKeys_ofMap (fun _ _ => HexText.text_injective) (fun v => distinctKeys_str v.text) s

theorem hexText_canonical_inj {a b : HexText}
    (h : (Json.str a.text).canonical = (Json.str b.text).canonical) : a = b :=
  HexText.text_injective (canonical_str_inj h)

/-- A storage is told by what is written of it. -/
theorem encodeStorage_canonical_inj {s t : Storage}
    (h : (encodeStorage s).canonical = (encodeStorage t).canonical) : s = t := by
  rw [encodeStorage_eq, encodeStorage_eq] at h
  exact ofMap_canonical_inj (fun _ _ => HexText.text_injective) (fun v => distinctKeys_str v.text)
    (fun _ _ => hexText_canonical_inj) h

namespace Genesis

/-! ## The layers -/

/-- The account that counts for an address: the last of the description. -/
def lastAccount? (accounts : List Account) (a : Address) : Option Account :=
  accounts.reverse.find? fun x => x.address = a

theorem lastAccount?_eq_none_iff {accounts : List Account} {a : Address} :
    lastAccount? accounts a = none ↔ ∀ x ∈ accounts, x.address ≠ a := by
  simp [lastAccount?]

theorem mem_lowAddresses {a : Address} : a ∈ lowAddresses ↔ a.IsLow := by
  constructor
  · intro h
    obtain ⟨i, -, rfl⟩ := List.mem_map.mp h
    exact Address.isLow_ofLastByte _
  · intro hlow
    obtain ⟨b, rfl⟩ := Address.exists_of_isLow hlow
    refine List.mem_map.mpr ⟨b.toNat, List.mem_range.mpr b.toNat_lt, ?_⟩
    rw [UInt8.ofNat_toNat]

theorem mem_lowHoldings {e : Address × Holding} :
    e ∈ lowHoldings ↔ e.1.IsLow ∧ e.2 = .wei := by
  rw [lowHoldings, List.mem_map]
  constructor
  · rintro ⟨a, ha, rfl⟩
    exact ⟨mem_lowAddresses.mp ha, rfl⟩
  · rintro ⟨hlow, hwei⟩
    exact ⟨e.1, mem_lowAddresses.mpr hlow, by rw [← hwei]⟩

theorem get?_lowHoldings (a : Address) :
    (OrderedMap.ofList lowHoldings).get? a = if a.IsLow then some .wei else none := by
  rw [OrderedMap.get?_ofList]
  cases hf : lowHoldings.reverse.find? fun e => e.1 = a with
  | some e =>
    have hmem := mem_lowHoldings.mp (List.mem_reverse.mp (List.mem_of_find?_eq_some hf))
    have hkey : e.1 = a := by simpa using List.find?_some hf
    rw [Option.map_some, hmem.2, if_pos (hkey ▸ hmem.1)]
  | none =>
    rw [List.find?_eq_none] at hf
    rw [if_neg, Option.map_none]
    intro hlow
    exact hf (a, .wei) (List.mem_reverse.mpr (mem_lowHoldings.mpr ⟨hlow, rfl⟩)) (by simp)

theorem get?_accountHoldings (accounts : List Account) (a : Address) :
    (OrderedMap.ofList (accountHoldings accounts)).get? a =
      (lastAccount? accounts a).map .account := by
  rw [OrderedMap.get?_ofList, accountHoldings, ← List.map_reverse, List.find?_map, Option.map_map]
  rfl

theorem get?_builtinHoldings (s : ForkSchedule) (a : Address) :
    (OrderedMap.ofList ((Builtin.registry s).entries.map fun e => (e.1, Holding.builtin e.2))).get? a =
      ((Builtin.registry s).get? a).map .builtin := by
  rw [OrderedMap.ofList_entries_map, OrderedMap.get?_mapValues]

/-- **The allocation**: the last account for an address, or else one wei up
to 0xff. -/
theorem get?_allocation (g : Genesis) (a : Address) :
    g.allocation.get? a =
      ((lastAccount? g.accounts a).map .account).or (if a.IsLow then some .wei else none) := by
  rw [allocation, OrderedMap.get?_ofList_append, get?_accountHoldings, get?_lowHoldings]

/-- **The allocation with builtins**: the last account for an address, or
else the builtin contract there, or else one wei up to 0xff. -/
theorem get?_builtinAllocation (g : Genesis) (a : Address) :
    g.builtinAllocation.get? a =
      ((lastAccount? g.accounts a).map .account).or
        ((((Builtin.registry g.forks).get? a).map .builtin).or
          (if a.IsLow then some .wei else none)) := by
  rw [builtinAllocation, OrderedMap.get?_ofList_append, OrderedMap.get?_ofList_append,
    get?_accountHoldings, get?_builtinHoldings, get?_lowHoldings]

/-! ## Without the builtins -/

/-- What an address holds for a client that knows the builtin contracts. -/
def Holding.withoutBuiltin : Holding → Holding
  | .builtin _ => .wei
  | h => h

theorem isLow_of_registered {s : ForkSchedule} {a : Address} {b : Builtin}
    (h : (Builtin.registry s).get? a = some b) : a.IsLow := by
  obtain ⟨i, -, rfl⟩ := Builtin.get?_registry_eq_some_iff.mp h
  exact Address.isLow_ofLastByte _

/-- But for the builtin contracts the two allocations are the same. -/
theorem withoutBuiltins_builtinAllocation (g : Genesis) :
    g.builtinAllocation.mapValues Holding.withoutBuiltin = g.allocation := by
  refine OrderedMap.ext_get? fun a => ?_
  rw [OrderedMap.get?_mapValues, get?_builtinAllocation, get?_allocation]
  cases lastAccount? g.accounts a with
  | some x => rfl
  | none =>
    cases hr : (Builtin.registry g.forks).get? a with
    | some b => simp [isLow_of_registered hr, Holding.withoutBuiltin]
    | none => by_cases hl : a.IsLow <;> simp [hl, Holding.withoutBuiltin]

/-! ## Writing -/

theorem distinctKeys_encodeHolding (h : Holding) : h.encode.DistinctKeys := by
  cases h with
  | wei => simp [Holding.encode, distinctKeys_obj]
  | builtin b => simp [Holding.encode, distinctKeys_obj [_, _], b.distinctKeys_encode]
  | account a =>
    obtain ⟨address, balance, code, storage⟩ := a
    cases code <;> cases storage <;>
      simp [Holding.encode, member?, distinctKeys_obj, distinctKeys_encodeStorage]

theorem distinctKeys_encodeAllocation (m : Allocation) : (encodeAllocation m).DistinctKeys :=
  distinctKeys_ofMap (fun _ _ => FixedBytes.text_injective) distinctKeys_encodeHolding m

/-- The entry at an address is what the address holds. -/
theorem get?_encodeAllocation (m : Allocation) (a : Address) :
    (encodeAllocation m).get? a.text = (m.get? a).map Holding.encode :=
  get?_ofMap (fun _ _ => FixedBytes.text_injective) m a

theorem erase_builtin_encode (h : Holding) :
    h.encode.erase "builtin" = h.withoutBuiltin.encode := by
  cases h with
  | wei => simp [Holding.encode, Holding.withoutBuiltin, erase]
  | builtin b => simp [Holding.encode, Holding.withoutBuiltin, erase]
  | account a =>
    obtain ⟨address, balance, code, storage⟩ := a
    cases code <;> cases storage <;>
      simp [Holding.encode, Holding.withoutBuiltin, member?, erase]

/-- An allocation without its builtin members is the allocation without
builtin contracts. -/
theorem mapValues_erase_encodeAllocation (m : Allocation) :
    (encodeAllocation m).mapValues (erase "builtin") =
      encodeAllocation (m.mapValues Holding.withoutBuiltin) := by
  simp only [encodeAllocation, mapValues, OrderedMap.mapValues, List.map_map]
  exact congrArg obj (List.map_congr_left fun e _ => by simp [erase_builtin_encode])

end Genesis

end Provision
