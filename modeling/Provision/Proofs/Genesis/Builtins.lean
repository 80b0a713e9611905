/-
Provision.Proofs.Genesis.Builtins — the builtin contracts in the accounts
of a nested document.

A client of the nested document knows a builtin contract only by the
document. An account of the description takes the whole of an entry, so
the contract that stood there is gone, and that one alone:
`builtins_survive_iff` says that each of the nine is there exactly when no
account has its address, and what stands at an address when one has.
-/
import Provision.Proofs.Genesis.Document

namespace Provision.Genesis

open Json

/-- What stands at an address of the nested document is what the address
holds. -/
theorem at?_accounts_of_document {client : Client} {g : Genesis} {doc : Json}
    (h : Chainspec.document client g = .ok doc) (a : Address) (path : List String) :
    doc.at? ("accounts" :: a.text :: path) =
      ((g.builtinAllocation.get? a).bind fun x => x.encode.at? path).map canonical := by
  obtain ⟨engine, extra, nonce, -, -, hdoc⟩ := Chainspec.at?_of_document h
  have haccounts : (Json.obj (Chainspec.members g engine nonce extra)).get? "accounts" =
      some (encodeAllocation g.builtinAllocation) := rfl
  rw [hdoc, at?, haccounts, Option.bind_some, at?, get?_encodeAllocation, Option.bind_map]
  rfl

theorem at?_builtin_encode_account (x : Account) :
    (Holding.account x).encode.at? ["builtin"] = none := by
  obtain ⟨address, balance, code, storage⟩ := x
  cases code <;> cases storage <;> rfl

theorem at?_builtin_encode_builtin (b : Builtin) :
    (Holding.builtin b).encode.at? ["builtin"] = some b.encode :=
  rfl

/-- The builtin contracts stand at the addresses from one to nine. -/
theorem exists_registered (s : ForkSchedule) {n : Nat} (h : 1 ≤ n ∧ n ≤ 9) :
    ∃ b, (Builtin.registry s).get? (.ofLastByte (UInt8.ofNat n)) = some b := by
  have hlt : n - 1 < (Builtin.list s).length := by
    rw [Builtin.length_list]
    omega
  refine ⟨(Builtin.list s)[n - 1], Builtin.get?_registry_eq_some_iff.mpr ⟨n - 1, ?_, ?_⟩⟩
  · exact List.getElem?_eq_getElem hlt
  · rw [Nat.sub_add_cancel h.1]

/-- The entry of a builtin contract is gone exactly when an account of the
description has its address. -/
theorem at?_builtin_iff {client : Client} {g : Genesis} {doc : Json}
    (h : Chainspec.document client g = .ok doc) {a : Address} {b : Builtin}
    (hb : (Builtin.registry g.forks).get? a = some b) :
    doc.at? ["accounts", a.text, "builtin"] = some b.encode.canonical ↔
      ∀ x ∈ g.accounts, x.address ≠ a := by
  rw [at?_accounts_of_document h, get?_builtinAllocation, hb, ← lastAccount?_eq_none_iff]
  cases hl : lastAccount? g.accounts a with
  | none => simp [at?_builtin_encode_builtin]
  | some x => simp [at?_builtin_encode_account]

theorem at?_of_lastAccount? {client : Client} {g : Genesis} {doc : Json}
    (h : Chainspec.document client g = .ok doc) {a : Address} {x : Account}
    (hx : lastAccount? g.accounts a = some x) (path : List String) :
    doc.at? ("accounts" :: a.text :: path) =
      ((Holding.account x).encode.at? path).map canonical := by
  rw [at?_accounts_of_document h, get?_builtinAllocation, hx, Option.map_some, Option.some_or,
    Option.bind_some]

/-- **Builtins**: at each address from one to nine the contract of the
registry is in the document exactly when no account of the description has
that address, whatever the others have; so all nine are there exactly when
no account has any of the addresses. Where one has, the entry is that of the
last such account and nothing else. -/
theorem builtins_survive_iff {client : Client} {g : Genesis} {doc : Json}
    (hclient : client = .openEthereum ∨ client = .nethermind)
    (h : g.document client = .ok doc) :
    (∀ n, 1 ≤ n ∧ n ≤ 9 →
      ∃ b, (Builtin.registry g.forks).get? (.ofLastByte (UInt8.ofNat n)) = some b ∧
        (doc.at? ["accounts", (Address.ofLastByte (UInt8.ofNat n)).text, "builtin"] =
            some b.encode.canonical ↔
          ∀ x ∈ g.accounts, x.address ≠ .ofLastByte (UInt8.ofNat n))) ∧
    ((∀ n, 1 ≤ n ∧ n ≤ 9 →
        ∃ b, (Builtin.registry g.forks).get? (.ofLastByte (UInt8.ofNat n)) = some b ∧
          doc.at? ["accounts", (Address.ofLastByte (UInt8.ofNat n)).text, "builtin"] =
            some b.encode.canonical) ↔
      ∀ x ∈ g.accounts, ∀ n, 1 ≤ n ∧ n ≤ 9 → x.address ≠ .ofLastByte (UInt8.ofNat n)) ∧
    ∀ a x, lastAccount? g.accounts a = some x →
      doc.at? ["accounts", a.text] = some (Holding.account x).encode.canonical ∧
      doc.at? ["accounts", a.text, "builtin"] = none := by
  have hdoc : Chainspec.document client g = .ok doc := by
    rcases hclient with rfl | rfl <;> exact h
  refine ⟨fun n hn => ?_, ⟨fun hall x hx n hn => ?_, fun hnone n hn => ?_⟩,
    fun a x hx => ⟨?_, ?_⟩⟩
  · obtain ⟨b, hb⟩ := exists_registered g.forks hn
    exact ⟨b, hb, at?_builtin_iff hdoc hb⟩
  · obtain ⟨b, hb, hat⟩ := hall n hn
    exact (at?_builtin_iff hdoc hb).mp hat x hx
  · obtain ⟨b, hb⟩ := exists_registered g.forks hn
    exact ⟨b, hb, (at?_builtin_iff hdoc hb).mpr fun x hx => hnone x hx n hn⟩
  · rw [at?_of_lastAccount? hdoc hx]
    rfl
  · rw [at?_of_lastAccount? hdoc hx, at?_builtin_encode_account, Option.map_none]

/-- An Ethash network with one account. -/
def withAccount (x : Account) : Genesis :=
  { Genesis.new 1337 1337 (.ethash {}) with accounts := [x] }

theorem exists_document_withAccount (x : Account) :
    ∃ doc, (withAccount x).document .openEthereum = .ok doc := by
  have hconsensus : (withAccount x).consensus ≠ .istanbul := by
    simp [withAccount, consensus, Engine.consensus, Genesis.new]
  have hnonce : (withAccount x).nonce.toNat < 2 ^ 64 := by
    rw [show (withAccount x).nonce = .ofNat 0 from rfl, HexText.toNat_ofNat]
    decide
  show ∃ doc, Chainspec.document .openEthereum (withAccount x) = .ok doc
  exact Chainspec.exists_document_iff.mpr ⟨hconsensus, hnonce⟩

theorem builtins_survive_beside_an_account :
    ∃ doc, (withAccount ⟨.ofLastByte 10, .ofNat 256, none, none⟩).document .openEthereum = .ok doc ∧
      ∀ n, 1 ≤ n ∧ n ≤ 9 →
        ∃ b, (Builtin.registry {}).get? (.ofLastByte (UInt8.ofNat n)) = some b ∧
          doc.at? ["accounts", (Address.ofLastByte (UInt8.ofNat n)).text, "builtin"] =
            some b.encode.canonical := by
  obtain ⟨doc, hdoc⟩ := exists_document_withAccount ⟨.ofLastByte 10, .ofNat 256, none, none⟩
  have hsurvive := (builtins_survive_iff (.inl rfl) hdoc).2.1
  refine ⟨doc, hdoc, hsurvive.mpr fun x hx n hn heq => ?_⟩
  obtain rfl := List.mem_singleton.mp hx
  have hten : (10 : UInt8) = UInt8.ofNat n := Address.ofLastByte_injective heq
  have hlast : (UInt8.ofNat n).toNat = 10 := by rw [← hten]; rfl
  rw [UInt8.toNat_ofNat_of_lt' (show n < 256 by omega)] at hlast
  omega

/-- An account at the first address takes the place of the contract there. -/
theorem ecrecover_is_lost_to_an_account :
    ∃ doc, (withAccount ⟨.ofLastByte 1, .ofNat 256, none, none⟩).document .openEthereum = .ok doc ∧
      doc.at? ["accounts", (Address.ofLastByte 1).text, "builtin"] = none ∧
      ∃ b, (Builtin.registry {}).get? (.ofLastByte 1) = some b ∧ b.name = "ecrecover" := by
  obtain ⟨doc, hdoc⟩ := exists_document_withAccount ⟨.ofLastByte 1, .ofNat 256, none, none⟩
  have hlast : lastAccount? (withAccount ⟨.ofLastByte 1, .ofNat 256, none, none⟩).accounts
      (.ofLastByte 1) = some ⟨.ofLastByte 1, .ofNat 256, none, none⟩ := by
    simp [lastAccount?, withAccount]
  have hnested : Chainspec.document .openEthereum
      (withAccount ⟨.ofLastByte 1, .ofNat 256, none, none⟩) = .ok doc := hdoc
  refine ⟨doc, hdoc, ?_, ?_⟩
  · rw [at?_of_lastAccount? hnested hlast, at?_builtin_encode_account, Option.map_none]
  · exact ⟨_, Builtin.get?_registry_eq_some_iff.mpr ⟨0, rfl, rfl⟩, rfl⟩

end Provision.Genesis
