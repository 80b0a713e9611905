/-
Provision.Proofs.Builtin — where the builtin contracts are registered, and
what a document tells of them.

The registry names the contracts of `Builtin.list` one after the other at
the addresses from one on (`get?_registry_eq_some_iff`). What a document
spells of a contract tells its name and all of its prices (`encode_inj`).
-/
import Provision.Builtin
import Provision.Proofs.Json.Object

namespace Provision

theorem Address.ofLastByte_injective {a b : UInt8} (h : Address.ofLastByte a = .ofLastByte b) :
    a = b := by
  have h' := congrArg FixedBytes.bytes h
  simpa [Address.ofLastByte] using h'

namespace Builtin

open Json

/-! ## Addresses -/

theorem length_list (s : ForkSchedule) : (list s).length = 9 := rfl

/-- The addresses ascend in the order of the list, which is therefore the
order of the registry. -/
theorem entries_registry (s : ForkSchedule) :
    (registry s).entries =
      (list s).zipIdx.map fun (b, i) => (Address.ofLastByte (UInt8.ofNat (i + 1)), b) := by
  have hascend : ((List.range' 0 9).map fun i =>
      Address.ofLastByte (UInt8.ofNat (i + 1))).Pairwise fun a b => compare a b = .lt := by
    decide
  have hz := List.zipIdx_map_snd 0 (list s)
  rw [length_list] at hz
  rw [← hz, List.map_map] at hascend
  exact OrderedMap.insertAll_entries .empty _ (List.pairwise_map.mpr (List.pairwise_map.mp hascend))

/-- **Registry**: the contract at an address is the one whose place in the
list comes just before the number of the address. -/
theorem get?_registry_eq_some_iff {s : ForkSchedule} {a : Address} {b : Builtin} :
    (registry s).get? a = some b ↔
      ∃ i, (list s)[i]? = some b ∧ a = .ofLastByte (UInt8.ofNat (i + 1)) := by
  rw [OrderedMap.get?_eq_some_iff, entries_registry]
  constructor
  · intro h
    obtain ⟨⟨b', i⟩, hmem, heq⟩ := List.mem_map.mp h
    cases heq
    exact ⟨i, List.mk_mem_zipIdx_iff_getElem?.mp hmem, rfl⟩
  · rintro ⟨i, hi, rfl⟩
    exact List.mem_map.mpr ⟨(b, i), List.mk_mem_zipIdx_iff_getElem?.mpr hi, rfl⟩

/-! ## Keys -/

theorem distinctKeys_encodePrice (p : Price) : (encodePrice p).DistinctKeys := by
  cases p <;> simp [encodePrice, distinctKeys_obj]

theorem distinctKeys_encodeEntry (e : PriceEntry) : (encodeEntry e).DistinctKeys := by
  obtain ⟨info, price⟩ := e
  have hp := distinctKeys_encodePrice price
  cases info <;> simp [encodeEntry, member?, distinctKeys_obj, hp]

theorem numberText_injective {m n : Nat} (h : Hex.numberText m = Hex.numberText n) : m = n := by
  have h' := congrArg String.toList h
  simp only [Hex.numberText, String.toList_ofList, List.cons.injEq, true_and] at h'
  exact Hex.digits_injective h'

/-- Distinct blocks have distinct keys. -/
theorem blockKey_injective (a b : UInt64) (h : Hex.numberText a.toNat = Hex.numberText b.toNat) :
    a = b :=
  UInt64.toNat_inj.mp (numberText_injective h)

/-- The prices of a contract by block. -/
theorem encode_eq (b : Builtin) :
    b.encode = .obj [("name", .str b.name),
      ("pricing", ofMap (fun n : UInt64 => Hex.numberText n.toNat) encodeEntry b.pricing)] :=
  rfl

theorem distinctKeys_encode (b : Builtin) : b.encode.DistinctKeys := by
  have hpricing := distinctKeys_ofMap blockKey_injective distinctKeys_encodeEntry b.pricing
  rw [encode_eq, distinctKeys_obj]
  simp only [List.map_cons, List.map_nil, List.mem_cons, List.not_mem_nil, or_false]
  exact ⟨by decide, by rintro e (rfl | rfl) <;> simp [hpricing]⟩

/-! ## What a document tells of a contract -/

theorem isCanonical_encodePrice (p : Price) : (encodePrice p).IsCanonical := by
  cases p <;> simp +decide [encodePrice, IsCanonical, MembersCanonical]

/-- The word of a price tells its kind, and the amounts stand beside it. -/
theorem encodePrice_injective {p q : Price} (h : encodePrice p = encodePrice q) : p = q := by
  cases p <;> cases q <;> simp [encodePrice] at h ⊢ <;> exact h

theorem encodePrice_inj {p q : Price} (h : (encodePrice p).canonical = (encodePrice q).canonical) :
    p = q := by
  rw [canonical_eq_self _ (isCanonical_encodePrice p),
    canonical_eq_self _ (isCanonical_encodePrice q)] at h
  exact encodePrice_injective h

theorem get?_encodeEntry_info (e : PriceEntry) :
    (encodeEntry e).get? "info" = e.info.map .str := by
  obtain ⟨info, price⟩ := e
  cases info <;> rfl

theorem get?_encodeEntry_price (e : PriceEntry) :
    (encodeEntry e).get? "price" = some (encodePrice e.price) := by
  obtain ⟨info, price⟩ := e
  cases info <;> rfl

theorem encodeEntry_inj {e f : PriceEntry}
    (h : (encodeEntry e).canonical = (encodeEntry f).canonical) : e = f := by
  have hmember := get?_of_canonical_eq (distinctKeys_encodeEntry e) (distinctKeys_encodeEntry f) h
  have hinfo := hmember "info"
  have hprice := hmember "price"
  rw [get?_encodeEntry_info, get?_encodeEntry_info] at hinfo
  rw [get?_encodeEntry_price, get?_encodeEntry_price] at hprice
  have hinfo := map_canonical_inj (fun _ _ => canonical_str_inj) hinfo
  have hprice := encodePrice_inj (Option.some.inj hprice)
  cases e
  cases f
  exact congr (congrArg PriceEntry.mk hinfo) hprice

/-- A contract is told by what a document spells of it. -/
theorem encode_inj {b c : Builtin} (h : b.encode.canonical = c.encode.canonical) : b = c := by
  have hmember := get?_of_canonical_eq b.distinctKeys_encode c.distinctKeys_encode h
  have hname := hmember "name"
  have hpricing := hmember "pricing"
  have hname := canonical_str_inj (Option.some.inj hname)
  have hpricing := ofMap_canonical_inj blockKey_injective distinctKeys_encodeEntry
    (fun _ _ => encodeEntry_inj) (Option.some.inj hpricing)
  cases b
  cases c
  exact congr (congrArg Builtin.mk hname) hpricing

end Builtin

end Provision
