/-
Provision.Proofs.Network — what the genesis of a sound network may count on.

A network is sound when it declares the consensus of its engine, somebody
may seal the first blocks, and the forks are in order. For Besu and Geth
that is enough: they have a document for the genesis of every sound
network. The nested document needs more. Its format has no words for an
Istanbul network, and it keeps sixteen digits for a nonce, which nothing
checks before (`sound_network_has_document_iff`).
-/
import Provision.Network
import Provision.Proofs.Genesis.Document
import Provision.Proofs.Json.Members

namespace Provision.Network

/-- When a private network is sound. -/
theorem validate_eq_ok_iff {n : Network} {g : Genesis} (hg : n.genesis = some g) :
    n.validate = .ok () ↔
      (∀ declared, n.consensus = some declared → declared = g.consensus) ∧
        g.engine.sealers? ≠ some [] ∧ g.forks.violations = [] := by
  have hdeclared : n.consensus.filter (· ≠ g.consensus) = none ↔
      ∀ declared, n.consensus = some declared → declared = g.consensus := by
    simp [Option.filter_eq_none_iff]
  rw [← hdeclared]
  unfold validate
  simp only [hg]
  cases n.consensus.filter (· ≠ g.consensus) with
  | some declared => simp
  | none =>
    by_cases hsealers : g.engine.sealers? = some []
    · simp [hsealers]
    · cases hforks : g.forks.violations with
      | nil => simp [hsealers]
      | cons v vs => simp [hsealers]

/-! ## Documents of sound networks -/

/-- Besu and Geth have a document for the genesis of every sound network. -/
theorem exists_flat_of_validate {n : Network} {g : Genesis} (hsound : n.validate = .ok ())
    (hg : n.genesis = some g) (d : Genesis.Flat.Dialect) :
    ∃ doc, Genesis.Flat.document d g = .ok doc := by
  obtain ⟨-, hsealers, -⟩ := (validate_eq_ok_iff hg).mp hsound
  have hvalidators : ∀ i, g.engine = .istanbul i → i.validators ≠ [] := by
    intro i hi hnone
    rw [hi, Engine.sealers?, hnone] at hsealers
    exact hsealers rfl
  obtain ⟨s, hs⟩ := Genesis.Flat.exists_sealOf_iff.mpr hvalidators
  exact ⟨_, Genesis.Flat.document_eq_ok_iff.mpr ⟨s, hs, rfl⟩⟩

theorem exists_documentText_iff {client : Client} {g : Genesis} :
    (∃ text, g.documentText client = .ok text) ↔ ∃ doc, g.document client = .ok doc := by
  simp only [Genesis.documentText, Json.map_eq_ok_iff]
  constructor
  · rintro ⟨text, doc, hdoc, -⟩
    exact ⟨doc, hdoc⟩
  · rintro ⟨doc, hdoc⟩
    exact ⟨_, doc, hdoc, rfl⟩

/-- The clients that have a document for the genesis of a sound network. -/
theorem exists_documentText_of_validate {n : Network} {g : Genesis} {client : Client}
    (hsound : n.validate = .ok ()) (hg : n.genesis = some g) :
    (∃ text, g.documentText client = .ok text) ↔
      client = .besu ∨ client = .geth ∨ g.consensus ≠ .istanbul ∧ g.nonce.toNat < 16 ^ 16 := by
  rw [exists_documentText_iff]
  cases client with
  | besu => simp [Genesis.document, exists_flat_of_validate hsound hg]
  | geth => simp [Genesis.document, exists_flat_of_validate hsound hg]
  | nethermind | openEthereum =>
    rw [Genesis.document, Genesis.Chainspec.exists_document_iff]
    simp

/-- **Sound networks**: whether there is a document for the genesis, and why
there is none. A consensus that the format has no words for aside, only a
nonce of more than sixteen digits is in the way. -/
theorem sound_network_has_document_iff {n : Network} {g : Genesis} {client : Client}
    (hsound : n.validate = .ok ()) (hg : n.genesis = some g) :
    ((∃ text, g.documentText client = .ok text) ↔
      client = .besu ∨ client = .geth ∨ g.consensus ≠ .istanbul ∧ g.nonce.toNat < 16 ^ 16) ∧
    ∀ e, g.documentText client = .error e →
      (client = .openEthereum ∨ client = .nethermind) ∧
        (g.consensus = .istanbul ∧ e = .unsupportedConsensus client .istanbul ∨
          g.consensus ≠ .istanbul ∧ 16 ^ 16 ≤ g.nonce.toNat ∧
            e = .encoding (.hexTooWide g.nonce.text 16)) := by
  refine ⟨exists_documentText_of_validate hsound hg, fun e he => ?_⟩
  have hnested : client = .openEthereum ∨ client = .nethermind := by
    have hnone : ¬ ∃ text, g.documentText client = .ok text := by simp [he]
    rw [exists_documentText_of_validate hsound hg, not_or, not_or] at hnone
    cases client with
    | besu => exact absurd rfl hnone.1
    | geth => exact absurd rfl hnone.2.1
    | openEthereum => exact .inl rfl
    | nethermind => exact .inr rfl
  refine ⟨hnested, ?_⟩
  rw [Genesis.documentText, Genesis.document_of_nested hnested, Json.map_eq_error_iff,
    Genesis.Chainspec.document_eq_error_iff] at he
  exact he

/-- A network whose nonce is written with these digits. -/
def withNonce (nonce : HexText) : Genesis :=
  { Genesis.new 1337 1337 (.ethash {}) with nonce := nonce }

/-- The greatest nonce of sixteen digits, after four zeros. -/
def paddedNonce : HexText :=
  ⟨List.replicate 4 '0' ++ List.replicate 16 'f', by decide⟩

theorem padded_nonce_has_document :
    (founded (withNonce paddedNonce)).validate = .ok () ∧
      ∃ text, (withNonce paddedNonce).documentText .nethermind = .ok text := by
  have hsound : (founded (withNonce paddedNonce)).validate = .ok () := rfl
  have hfits : (withNonce paddedNonce).nonce.toNat < 16 ^ 16 := by decide
  exact ⟨hsound, (sound_network_has_document_iff hsound rfl).1.mpr (.inr (.inr ⟨by decide, hfits⟩))⟩

/-- The least nonce of seventeen digits. -/
def wideNonce : HexText := .ofNat (16 ^ 16)

/-- A network with such a nonce is sound, and two clients have no document
for it. -/
theorem wide_nonce_has_no_document :
    (founded (withNonce wideNonce)).validate = .ok () ∧
      (withNonce wideNonce).documentText .nethermind =
        .error (.encoding (.hexTooWide "0x10000000000000000" 16)) ∧
      (withNonce wideNonce).documentText .openEthereum =
        .error (.encoding (.hexTooWide "0x10000000000000000" 16)) :=
  ⟨rfl, rfl, rfl⟩

end Provision.Network
