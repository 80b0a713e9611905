/-
Provision.Proofs.Genesis.Overlay — the accounts of a document are an
overlay, in which the last account for an address counts.

Every document has an entry for each of the low addresses and for each
address of the description, once and in lowercase, and for no other. Of
several accounts for one address the last has the entry to itself, so that
nothing of an earlier one is told (`IsOverlay`). The text of a document is
therefore the same to the byte when accounts that do not count are left out
(`Thinned`), and when accounts change places but for those with one address
(`KeepsOrder`): both leave the last account for each address
(`accounts_are_overlay`).
-/
import Mathlib.Data.List.Dedup
import Provision.Proofs.Genesis.Builtins
import Provision.Proofs.Genesis.Entries

namespace Provision.Genesis

open Json

/-! ## The last account for an address -/

theorem lastAccount?_cons (x : Account) (accounts : List Account) (a : Address) :
    lastAccount? (x :: accounts) a =
      (lastAccount? accounts a).or (if x.address = a then some x else none) := by
  rw [lastAccount?, List.reverse_cons, List.find?_append]
  by_cases h : x.address = a <;> simp [lastAccount?, h]

/-- The last account is the one behind which no other has its address. -/
theorem lastAccount?_eq_some {accounts before after : List Account} {x : Account}
    (hsplit : accounts = before ++ x :: after) (hlast : ∀ y ∈ after, y.address ≠ x.address) :
    lastAccount? accounts x.address = some x := by
  have hnone := lastAccount?_eq_none_iff.mpr hlast
  induction before generalizing accounts with
  | nil => simp [hsplit, lastAccount?_cons, hnone]
  | cons z before ih => simp [hsplit, lastAccount?_cons, ih rfl]

theorem lastAccount?_eq_getLast? (accounts : List Account) (a : Address) :
    lastAccount? accounts a = (accounts.filter fun x => x.address = a).getLast? := by
  rw [lastAccount?, ← List.head?_filter, List.filter_reverse, List.head?_reverse]

/-- Some accounts are left out, each of which has one behind it with its
address. -/
inductive Thinned : List Account → List Account → Prop where
  | nil : Thinned [] []
  | keep (x : Account) {l l' : List Account} (h : Thinned l l') : Thinned (x :: l) (x :: l')
  | drop (x : Account) {l l' : List Account} (hlater : ∃ y ∈ l, y.address = x.address)
      (h : Thinned l l') : Thinned (x :: l) l'

/-- The accounts change places, but those with one address stay in their
order. -/
def KeepsOrder (l l' : List Account) : Prop :=
  ∀ a : Address, (l'.filter fun x => x.address = a) = l.filter fun x => x.address = a

theorem Thinned.lastAccount?_eq {l l' : List Account} (h : Thinned l l') (a : Address) :
    lastAccount? l' a = lastAccount? l a := by
  induction h with
  | nil => rfl
  | keep x _ ih => rw [lastAccount?_cons, lastAccount?_cons, ih]
  | drop x hlater _ ih =>
    obtain ⟨y, hy, haddress⟩ := hlater
    rw [lastAccount?_cons, ih]
    by_cases hx : x.address = a
    · -- There is a later account for this address, which counts.
      cases hl : lastAccount? _ a with
      | some z => rfl
      | none => exact absurd (haddress.trans hx) (lastAccount?_eq_none_iff.mp hl y hy)
    · rw [if_neg hx, Option.or_none]

theorem KeepsOrder.lastAccount?_eq {l l' : List Account} (h : KeepsOrder l l') (a : Address) :
    lastAccount? l' a = lastAccount? l a := by
  rw [lastAccount?_eq_getLast?, lastAccount?_eq_getLast?, h a]

/-! ## The overlay -/

/-- The distinct addresses of accounts that are above 0xff. -/
def highAddresses (accounts : List Account) : List Address :=
  ((accounts.map fun x => x.address).filter fun a => ¬ a.IsLow).dedup

theorem nodup_lowAddresses : lowAddresses.Nodup := by
  refine List.Nodup.map_on ?_ List.nodup_range
  intro i hi j hj heq
  have hbyte := congrArg UInt8.toNat (Address.ofLastByte_injective heq)
  rwa [UInt8.toNat_ofNat_of_lt' (List.mem_range.mp hi),
    UInt8.toNat_ofNat_of_lt' (List.mem_range.mp hj)] at hbyte

theorem mem_highAddresses {accounts : List Account} {a : Address} :
    a ∈ highAddresses accounts ↔ ¬ a.IsLow ∧ ∃ x ∈ accounts, x.address = a := by
  simp [highAddresses, and_comm]

theorem isLower_text (a : Address) : ∀ c ∈ a.text.toList, c.toLower = c := by
  have hdigits : ∀ c ∈ Hex.encode a.bytes, c.toLower = c := by
    have hmap := Hex.toLower_encode a.bytes
    nth_rewrite 2 [← List.map_id (Hex.encode a.bytes)] at hmap
    exact List.map_inj_left.mp hmap
  rw [FixedBytes.text, Hex.bytesText, String.toList_ofList]
  exact List.forall_mem_cons.mpr ⟨rfl, List.forall_mem_cons.mpr ⟨rfl, hdigits⟩⟩

/-- An object has an entry for each low address and for each address of an
account. -/
structure IsOverlay (accounts : List Account) (alloc : Json) : Prop where
  keys : ∀ key, key ∈ alloc.keys ↔
    (∃ b : UInt8, key = (Address.ofLastByte b).text) ∨ ∃ x ∈ accounts, key = x.address.text
  lowercase : ∀ key ∈ alloc.keys, ∀ c ∈ key.toList, c.toLower = c
  distinct : alloc.keys.Nodup
  size : alloc.members.length = 256 + (highAddresses accounts).length
  /-- The last account for an address has the entry to itself. -/
  last : ∀ before x after, accounts = before ++ x :: after →
    (∀ y ∈ after, y.address ≠ x.address) →
      alloc.at? [x.address.text, "balance"] = some (.str x.balance.text) ∧
      alloc.at? [x.address.text, "code"] = x.code.map (fun code => .str code.text) ∧
      alloc.at? [x.address.text, "storage"] =
        x.storage.map (fun slots => (encodeStorage slots).canonical) ∧
      ∀ key, key ∉ ["balance", "code", "storage"] → alloc.at? [x.address.text, key] = none
  /-- A low address without an account has one wei. -/
  low : ∀ b : UInt8, (∀ x ∈ accounts, x.address ≠ .ofLastByte b) →
    alloc.at? [(Address.ofLastByte b).text, "balance"] = some (.str "0x1") ∧
    alloc.at? [(Address.ofLastByte b).text, "code"] = none ∧
    alloc.at? [(Address.ofLastByte b).text, "storage"] = none

/-- The entry of an account has no more members than an account has parts. -/
theorem get?_encode_ofAccount (x : Account) {key : String}
    (hkey : key ∉ ["balance", "code", "storage"]) :
    (Entry.ofAccount x).encode.get? key = none := by
  obtain ⟨address, balance, code, storage⟩ := x
  have hmembers : ∀ e ∈ (Entry.ofAccount ⟨address, balance, code, storage⟩).encode.members,
      e.1 ∈ ["balance", "code", "storage"] := by
    cases code <;> cases storage <;> simp [Entry.ofAccount, Entry.encode, member?, members]
  refine List.lookup_eq_none_iff.mpr fun e he => ?_
  exact bne_iff_ne.mpr fun heq => hkey (heq ▸ hmembers e he)

theorem keys_encodeAllocation_perm (m : Allocation) :
    (encodeAllocation m).canonical.keys.Perm (m.keys.map FixedBytes.text) := by
  have hdistinct := ((distinctKeys_obj _).mp (distinctKeys_encodeAllocation m)).1
  refine (keys_canonical_perm hdistinct).trans (List.Perm.of_eq ?_)
  rw [OrderedMap.keys, List.map_map, List.map_map]
  rfl

theorem at?_encodeAllocation (m : Allocation) (a : Address) (path : List String) :
    (encodeAllocation m).canonical.at? (a.text :: path) =
      ((m.get? a).bind fun held => held.encode.at? path).map canonical := by
  rw [at?_canonical (distinctKeys_encodeAllocation m), at?, get?_encodeAllocation,
    Option.bind_map]
  rfl

/-- An allocation lays the last accounts over the low addresses. -/
def LaysOver (accounts : List Account) (m : Allocation) : Prop :=
  ∀ a, (m.get? a).map Holding.withoutBuiltin =
    ((lastAccount? accounts a).map .account).or (if a.IsLow then some .wei else none)

theorem laysOver_builtinAllocation (g : Genesis) : LaysOver g.accounts g.builtinAllocation := by
  intro a
  rw [← OrderedMap.get?_mapValues, withoutBuiltins_builtinAllocation, get?_allocation]

theorem laysOver_allocation (g : Genesis) : LaysOver g.accounts g.allocation := by
  intro a
  rw [get?_allocation]
  cases lastAccount? g.accounts a with
  | some x => rfl
  | none => by_cases h : a.IsLow <;> simp [h, Holding.withoutBuiltin]

namespace LaysOver

variable {accounts : List Account} {m : Allocation} (h : LaysOver accounts m)

include h

theorem get?_of_last {a : Address} {x : Account} (hx : lastAccount? accounts a = some x) :
    m.get? a = some (.account x) := by
  have ha := h a
  rw [hx, Option.map_some, Option.some_or] at ha
  obtain ⟨held, hget, hheld⟩ := Option.map_eq_some_iff.mp ha
  cases held with
  | wei | builtin b => cases hheld
  | account y =>
    cases hheld
    exact hget

theorem get?_of_low {a : Address} (hlow : a.IsLow) (hnone : ∀ x ∈ accounts, x.address ≠ a) :
    ∃ held, m.get? a = some held ∧ held.withoutBuiltin = .wei := by
  have ha := h a
  rw [lastAccount?_eq_none_iff.mpr hnone, if_pos hlow] at ha
  exact Option.map_eq_some_iff.mp ha

/-- What holds something is a low address or that of an account. -/
theorem mem_keys_iff {a : Address} : a ∈ m.keys ↔ a.IsLow ∨ ∃ x ∈ accounts, x.address = a := by
  rw [OrderedMap.mem_keys_iff, ← Option.isSome_map (f := Holding.withoutBuiltin), h a]
  cases hx : lastAccount? accounts a with
  | some x =>
    have hmem := List.mem_of_find?_eq_some hx
    have haddress : x.address = a := by simpa using List.find?_some hx
    exact iff_of_true rfl (.inr ⟨x, List.mem_reverse.mp hmem, haddress⟩)
  | none =>
    have hnone := lastAccount?_eq_none_iff.mp hx
    by_cases hlow : a.IsLow
    · simp [hlow]
    · simpa [hlow] using hnone

/-- The addresses that hold something are the low ones and the others of the
accounts. -/
theorem keys_perm : m.keys.Perm (lowAddresses ++ highAddresses accounts) := by
  refine (List.perm_ext_iff_of_nodup m.keys_nodup ?_).mpr fun a => ?_
  · refine List.nodup_append.mpr ⟨nodup_lowAddresses, List.nodup_dedup _, ?_⟩
    intro a ha b hb heq
    exact (mem_highAddresses.mp hb).1 (heq ▸ mem_lowAddresses.mp ha)
  · rw [h.mem_keys_iff, List.mem_append, mem_lowAddresses, mem_highAddresses]
    by_cases hlow : a.IsLow <;> simp [hlow]

theorem isOverlay : IsOverlay accounts (encodeAllocation m).canonical := by
  have hkeys := keys_encodeAllocation_perm m
  constructor
  case keys =>
    intro key
    rw [hkeys.mem_iff, List.mem_map]
    constructor
    · intro hmem
      obtain ⟨a, ha, rfl⟩ := hmem
      rcases h.mem_keys_iff.mp ha with hlow | ⟨x, hx, rfl⟩
      · obtain ⟨b, rfl⟩ := Address.exists_of_isLow hlow
        exact Or.inl ⟨b, rfl⟩
      · exact Or.inr ⟨x, hx, rfl⟩
    · intro hmem
      rcases hmem with ⟨b, rfl⟩ | ⟨x, hx, rfl⟩
      · exact ⟨_, h.mem_keys_iff.mpr (.inl (Address.isLow_ofLastByte b)), rfl⟩
      · exact ⟨_, h.mem_keys_iff.mpr (.inr ⟨x, hx, rfl⟩), rfl⟩
  case lowercase =>
    intro key hkey
    obtain ⟨a, -, rfl⟩ := List.mem_map.mp (hkeys.mem_iff.mp hkey)
    exact isLower_text a
  case distinct =>
    refine hkeys.nodup_iff.mpr (List.pairwise_map.mpr (m.keys_nodup.imp ?_))
    intro a b hne heq
    exact hne (FixedBytes.text_injective heq)
  case size =>
    have hlength := hkeys.length_eq.trans (List.length_map _)
    rw [h.keys_perm.length_eq, List.length_append] at hlength
    simpa [Json.keys, lowAddresses] using hlength
  case last =>
    intro before x after hsplit hlast
    have hget := h.get?_of_last (lastAccount?_eq_some hsplit hlast)
    have hentry : (Holding.account x).encode = (Entry.ofAccount x).encode :=
      (encode_entry (.account x)).symm
    simp only [at?_encodeAllocation, hget, Option.bind_some, at?_singleton, hentry,
      Entry.get?_encode_balance, Entry.get?_encode_code, Entry.get?_encode_storage, Option.map_map]
    exact ⟨rfl, rfl, rfl, fun key hkey => by rw [get?_encode_ofAccount x hkey, Option.map_none]⟩
  case low =>
    intro b hnone
    obtain ⟨held, hget, hwei⟩ := h.get?_of_low (Address.isLow_ofLastByte b) hnone
    simp only [at?_encodeAllocation, hget, Option.bind_some, at?_singleton]
    cases held with
    | wei => exact ⟨rfl, rfl, rfl⟩
    | builtin b => exact ⟨rfl, rfl, rfl⟩
    | account x => cases hwei

end LaysOver

/-! ## The document of a client -/

/-- The key of the accounts in the document of a client. -/
def accountsKey : Client → String
  | .besu | .geth => "alloc"
  | .nethermind | .openEthereum => "accounts"

/-- The genesis with other accounts. -/
def withAccounts (g : Genesis) (accounts : List Account) : Genesis :=
  { g with accounts := accounts }

theorem exists_accounts_of_document {client : Client} {g : Genesis} {doc : Json}
    (h : g.document client = .ok doc) :
    ∃ m, LaysOver g.accounts m ∧
      doc.at? [accountsKey client] = some (encodeAllocation m).canonical := by
  cases client with
  | besu | geth =>
    obtain ⟨s, -, hat⟩ := Flat.at?_of_document h
    exact ⟨g.allocation, laysOver_allocation g, hat _⟩
  | nethermind | openEthereum =>
    obtain ⟨engine, extra, nonce, -, -, hat⟩ := Chainspec.at?_of_document h
    exact ⟨g.builtinAllocation, laysOver_builtinAllocation g, hat _⟩

/-- Of the accounts nothing counts but the last for each address. -/
theorem document_withAccounts {g : Genesis} {accounts : List Account}
    (h : ∀ a, lastAccount? accounts a = lastAccount? g.accounts a) (client : Client) :
    (g.withAccounts accounts).document client = g.document client := by
  have hflat : (g.withAccounts accounts).allocation = g.allocation :=
    OrderedMap.ext_get? fun a => by
      rw [get?_allocation, get?_allocation, ← h a]
      rfl
  have hnested : (g.withAccounts accounts).builtinAllocation = g.builtinAllocation :=
    OrderedMap.ext_get? fun a => by
      rw [get?_builtinAllocation, get?_builtinAllocation, ← h a]
      rfl
  cases client with
  | besu | geth =>
    simp only [document, Flat.document, Flat.members, hflat]
    rfl
  | nethermind | openEthereum =>
    simp only [document, Chainspec.document, Chainspec.members, hnested]
    rfl

/-- **Overlay**: the accounts of every document are those of the description
laid over the low addresses, of which the last for an address counts. So
the text is the same when accounts that do not count are left out, or when
only accounts with different addresses change places. -/
theorem accounts_are_overlay (client : Client) (g : Genesis) :
    (∀ doc, g.document client = .ok doc →
      ∃ alloc, doc.at? [accountsKey client] = some alloc ∧ IsOverlay g.accounts alloc) ∧
    ∀ accounts, Thinned g.accounts accounts ∨ KeepsOrder g.accounts accounts →
      (g.withAccounts accounts).documentText client = g.documentText client := by
  constructor
  · intro doc hdoc
    obtain ⟨m, hm, hat⟩ := exists_accounts_of_document hdoc
    exact ⟨_, hat, hm.isOverlay⟩
  · intro accounts haccounts
    have hlast : ∀ a, lastAccount? accounts a = lastAccount? g.accounts a := by
      intro a
      rcases haccounts with hthinned | horder
      · exact hthinned.lastAccount?_eq a
      · exact horder.lastAccount?_eq a
    rw [documentText, documentText, document_withAccounts hlast]

/-- The first address above the low ones. -/
def firstHigh : Address := ⟨List.replicate 18 0 ++ [1, 0], rfl⟩

/-- A proof of work with two accounts for one address, of which the first
has code. -/
def withShadowed : Genesis :=
  { Genesis.new 1337 1337 (.ethash {}) with
    accounts := [⟨firstHigh, .ofNat 1, some (.ofNat 96), none⟩,
      ⟨.ofLastByte 1, .ofNat 2, none, none⟩, ⟨firstHigh, .ofNat 3, none, none⟩] }

theorem shadowed_code_is_not_told :
    ∃ doc alloc, withShadowed.document .nethermind = .ok doc ∧
      doc.at? ["accounts"] = some alloc ∧ alloc.members.length = 257 ∧
      alloc.at? [firstHigh.text, "balance"] = some (.str "0x3") ∧
      alloc.at? [firstHigh.text, "code"] = none ∧
      (withShadowed.withAccounts withShadowed.accounts.tail).documentText .nethermind =
        withShadowed.documentText .nethermind := by
  obtain ⟨hoverlay, hsame⟩ := accounts_are_overlay .nethermind withShadowed
  obtain ⟨doc, hdoc⟩ : ∃ doc, Chainspec.document .nethermind withShadowed = .ok doc :=
    Chainspec.exists_document_iff.mpr ⟨by decide, by decide⟩
  obtain ⟨alloc, hat, h⟩ := hoverlay doc hdoc
  obtain ⟨hbalance, hcode, -, -⟩ := h.last [_, _] ⟨firstHigh, .ofNat 3, none, none⟩ [] rfl nofun
  have hthinned : Thinned withShadowed.accounts withShadowed.accounts.tail :=
    .drop _ ⟨_, List.mem_cons_of_mem _ List.mem_cons_self, rfl⟩ (.keep _ (.keep _ .nil))
  exact ⟨doc, alloc, hdoc, hat, h.size.trans (by decide), hbalance, hcode, hsame _ (.inl hthinned)⟩

end Provision.Genesis
