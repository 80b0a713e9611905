/-
Provision.Proofs.Genesis.CliqueForks — which forks the nested document of a
Clique network tells.

A fork that brings a rule of every chain has a transition among the
parameters. The glaciers bring none; they delay the difficulty of a proof of
work, and a Clique network has nothing to delay. Homestead has its
transition among the parameters of the proof of work only, so a Clique
network does not tell it either, while the flat documents do
(`homestead_is_lost_to_clique`). The nested documents of two schedules are
the same exactly when the flat ones agree on all other forks
(`clique_chainspec_tells_all_but_homestead`).
-/
import Provision.Proofs.Genesis.NestedContent
import Provision.Proofs.Network

namespace Provision.Genesis

open Json

theorem violations_of_validate {n : Network} {g : Genesis} (hg : n.genesis = some g)
    (h : n.validate = .ok ()) : g.forks.violations = [] :=
  ((Network.validate_eq_ok_iff hg).mp h).2.2

/-! ## The forks that are told -/

namespace Chainspec

/-- Two schedules that agree on the forks with rules of their own differ in
the other three at most. -/
theorem eq_of_told {s t : ForkSchedule} (h : ∀ k, k ∉ untold → s.block? k = t.block? k) :
    t = { s with
      homestead := t.homestead
      muirGlacier := t.muirGlacier
      arrowGlacier := t.arrowGlacier } := by
  refine ForkSchedule.ext_block? fun k => ?_
  cases k
  case homestead | muirGlacier | arrowGlacier => rfl
  all_goals exact (h _ (by decide)).symm

/-- The document of a Clique network depends on the forks with rules of
their own only. -/
theorem document_congr_of_clique {client : Client} {g : Genesis} {c : Clique} {s t : ForkSchedule}
    (hg : g.engine = .clique c) (h : ∀ k, k ∉ untold → s.block? k = t.block? k) :
    document client { g with forks := s } = document client { g with forks := t } := by
  rw [eq_of_told h]
  unfold document engineAndExtra?
  simp only [hg]
  rfl

end Chainspec

/-! ## What is lost -/

/-- Two flat documents tell the same of a fork. -/
def SameBlock (f h : Json) (k : Fork) : Prop :=
  f.at? ["config", blockKey k] = h.at? ["config", blockKey k]

theorem sameBlock_iff {d : Flat.Dialect} {a b : Genesis} {f h : Json}
    (hf : Flat.document d a = .ok f) (hh : Flat.document d b = .ok h) (k : Fork) :
    SameBlock f h k ↔ a.forks.block? k = b.forks.block? k := by
  obtain ⟨s, -, hf⟩ := Flat.at?_of_document hf
  obtain ⟨t, -, hh⟩ := Flat.at?_of_document hh
  rw [SameBlock, hf, hh, at?_config, at?_config, get?_config_block, get?_config_block]
  constructor
  · intro hblock
    exact map_canonical_inj (fun _ _ => canonical_nat_inj) hblock
  · intro hblock
    rw [hblock]

/-- Where EIP-150 is there from the first block on, so is Homestead. -/
theorem homestead_eq_zero {s : ForkSchedule} (h : s.violations = []) (heip150 : s.eip150 = 0) :
    s.homestead = 0 := by
  have hle : s.homestead ≤ s.eip150 :=
    ForkSchedule.le_of_violations_eq_nil h (j := .homestead) (k := .eip150) (by decide) rfl rfl
  rw [heip150] at hle
  exact UInt64.le_zero_iff.mp hle

/-- **Clique**: for two sound networks that differ in their schedules only,
the nested documents are the same exactly when the flat ones agree on all
forks but Homestead and the glaciers. They agree on Homestead too where
EIP-150 is there from the first block on, since nothing is left before it. -/
theorem clique_chainspec_tells_all_but_homestead {client flat : Client} {m n : Network}
    {a b : Genesis} {c : Clique} {x y f h : Json}
    (hclient : client = .openEthereum ∨ client = .nethermind)
    (hflat : flat = .besu ∨ flat = .geth)
    (hm : m.validate = .ok ()) (hma : m.genesis = some a)
    (hn : n.validate = .ok ()) (hnb : n.genesis = some b)
    (hclique : a.engine = .clique c) (hab : b = { a with forks := b.forks })
    (hx : a.document client = .ok x) (hy : b.document client = .ok y)
    (hf : a.document flat = .ok f) (hh : b.document flat = .ok h) :
    (x = y ↔ ∀ k, k ∉ [Fork.homestead, .muirGlacier, .arrowGlacier] → SameBlock f h k) ∧
    (x = y → a.forks.eip150 = 0 →
      ∀ k, k ∉ [Fork.muirGlacier, .arrowGlacier] → SameBlock f h k) := by
  rw [document_of_nested hclient] at hx hy
  have hsame : ∀ k, SameBlock f h k ↔ a.forks.block? k = b.forks.block? k := by
    rcases hflat with rfl | rfl <;> exact sameBlock_iff hf hh
  have htold : x = y → ∀ k, k ∉ Chainspec.untold → a.forks.block? k = b.forks.block? k := by
    rintro rfl k hk
    exact Chainspec.block?_of_document hx hy hk
  simp only [hsame]
  refine ⟨⟨htold, fun hforks => ?_⟩, fun hxy heip150 k hk => ?_⟩
  · rw [hab, ← Chainspec.document_congr_of_clique hclique hforks] at hy
    exact Except.ok.inj (hx.symm.trans hy)
  · by_cases hhomestead : k = .homestead
    · subst hhomestead
      have hb := htold hxy .eip150 (by decide)
      rw [ForkSchedule.block?, ForkSchedule.block?, heip150] at hb
      rw [ForkSchedule.block?, ForkSchedule.block?,
        homestead_eq_zero (violations_of_validate hma hm) heip150,
        homestead_eq_zero (violations_of_validate hnb hn) (Option.some.inj hb).symm]
    · exact htold hxy k fun hmem => (List.mem_cons.mp hmem).elim hhomestead hk

/-- A network with one signer. -/
def signedNetwork (forks : ForkSchedule) : Genesis :=
  { Genesis.new 1337 1337 (.clique { signers := [.ofLastByte 1] }) with forks := forks }

theorem exists_chainspec_signedNetwork (forks : ForkSchedule) :
    ∃ x, (signedNetwork forks).document .openEthereum = .ok x := by
  show ∃ x, Chainspec.document .openEthereum (signedNetwork forks) = .ok x
  refine Chainspec.exists_document_iff.mpr ⟨?_, ?_⟩
  · simp [signedNetwork, consensus, Engine.consensus, Genesis.new]
  · rw [show (signedNetwork forks).nonce = .ofNat 0 from rfl, HexText.toNat_ofNat]
    decide

theorem exists_flat_signedNetwork (forks : ForkSchedule) :
    ∃ f, Flat.document .besu (signedNetwork forks) = .ok f :=
  ⟨_, Flat.document_eq_ok_iff.mpr ⟨_, rfl, rfl⟩⟩

theorem chainspec_tells_berlin_of_clique :
    ∃ x y, (signedNetwork {}).document .openEthereum = .ok x ∧
      (signedNetwork { berlin := 3, london := 3, arrowGlacier := 3 }).document .openEthereum =
        .ok y ∧ x ≠ y := by
  have hsound : (Network.founded (signedNetwork {})).validate = .ok () := rfl
  have hlate : (Network.founded (signedNetwork
      { berlin := 3, london := 3, arrowGlacier := 3 })).validate = .ok () := rfl
  obtain ⟨x, hx⟩ := exists_chainspec_signedNetwork {}
  obtain ⟨y, hy⟩ := exists_chainspec_signedNetwork { berlin := 3, london := 3, arrowGlacier := 3 }
  obtain ⟨f, hf⟩ := exists_flat_signedNetwork {}
  obtain ⟨h, hh⟩ := exists_flat_signedNetwork { berlin := 3, london := 3, arrowGlacier := 3 }
  have hbesu : (signedNetwork {}).document .besu = .ok f := hf
  have htold := (clique_chainspec_tells_all_but_homestead (.inl rfl) (.inl rfl) hsound rfl hlate rfl
    rfl rfl hx hy hbesu hh).1
  refine ⟨x, y, hx, hy, fun hxy => ?_⟩
  have hberlin := (sameBlock_iff hf hh .berlin).mp (htold.mp hxy .berlin (by decide))
  exact absurd hberlin (by decide)

/-- A schedule in which everything but Homestead comes with the second block. -/
def secondBlock (homestead : UInt64) : ForkSchedule where
  homestead := homestead
  eip150 := 1
  eip155 := 1
  eip158 := 1
  byzantium := 1
  constantinople := 1
  petersburg := 1
  istanbul := 1
  muirGlacier := 1
  berlin := 1
  london := 1
  arrowGlacier := 1

/-- Whether Homestead comes with the first block or the second, a Clique
network has one nested document, while Besu is told the one or the other. -/
theorem homestead_is_lost_to_clique :
    (Network.founded (signedNetwork (secondBlock 0))).validate = .ok () ∧
    (Network.founded (signedNetwork (secondBlock 1))).validate = .ok () ∧
    ∃ x f h, (signedNetwork (secondBlock 0)).document .openEthereum = .ok x ∧
      (signedNetwork (secondBlock 1)).document .openEthereum = .ok x ∧
      (signedNetwork (secondBlock 0)).document .besu = .ok f ∧
      (signedNetwork (secondBlock 1)).document .besu = .ok h ∧
      f.at? ["config", "homesteadBlock"] = some (.nat 0) ∧
      h.at? ["config", "homesteadBlock"] = some (.nat 1) := by
  obtain ⟨x, hx⟩ := exists_chainspec_signedNetwork (secondBlock 0)
  obtain ⟨f, hf⟩ := exists_flat_signedNetwork (secondBlock 0)
  obtain ⟨h, hh⟩ := exists_flat_signedNetwork (secondBlock 1)
  have hlost : Chainspec.document .openEthereum (signedNetwork (secondBlock 0)) =
      Chainspec.document .openEthereum (signedNetwork (secondBlock 1)) := by
    refine Chainspec.document_congr_of_clique (g := signedNetwork {}) rfl fun k hk => ?_
    cases k
    case homestead => exact absurd (by decide) hk
    all_goals rfl
  refine ⟨rfl, rfl, x, f, h, hx, hlost.symm.trans hx, hf, hh, ?_, ?_⟩
  · exact block_of_document hf (k := .homestead) rfl
  · exact block_of_document hh (k := .homestead) rfl

end Provision.Genesis
