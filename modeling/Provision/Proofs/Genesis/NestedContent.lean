/-
Provision.Proofs.Genesis.NestedContent — what the genesis document of
Nethermind and OpenEthereum tells of a proof-of-work network.

Each rule has a transition of its own, so a fork can be read off any of
the rules that it brings. Homestead stands with the parameters of the proof
of work, and the glaciers in the sums of the delays. Of the nonce only the
significant digits are told. With that, two documents are the same exactly
when the two genesis blocks agree on everything
(`ethash_chainspec_tells_exactly`).
-/
import Provision.Proofs.Fork
import Provision.Proofs.Genesis.Agreement
import Provision.Proofs.Genesis.Delays
import Provision.Proofs.Genesis.Entries

namespace Provision.Genesis

open Json

/-! ## Transitions -/

namespace Chainspec

theorem blockText_injective (m n : UInt64)
    (h : (blockText m).canonical = (blockText n).canonical) : m = n :=
  Builtin.blockKey_injective m n (canonical_str_inj h)

/-- A schedule of numbers by block is told by its object. -/
theorem byBlock_canonical_inj {ν : Type} {encode : ν → String}
    (hencode : ∀ v w, encode v = encode w → v = w) {m n : OrderedMap UInt64 ν}
    (h : (byBlock encode m).canonical = (byBlock encode n).canonical) : m = n :=
  ofMap_canonical_inj Builtin.blockKey_injective (fun v => distinctKeys_str (encode v))
    (fun v w hvw => hencode v w (canonical_str_inj hvw)) h

/-- The forks that no rule of every chain tells of. -/
def untold : List Fork := [.homestead, .muirGlacier, .arrowGlacier]

theorem exists_activation {k : Fork} (hdao : k ≠ .dao) (hk : k ∉ untold) :
    ∃ e ∈ activations, e.2 = k := by
  revert hdao hk
  cases k <;> decide

/-- One document stands for schedules that agree on the forks with rules of
their own. -/
theorem block?_of_document {client : Client} {a b : Genesis} {x : Json}
    (ha : document client a = .ok x) (hb : document client b = .ok x) {k : Fork}
    (hk : k ∉ untold) : a.forks.block? k = b.forks.block? k := by
  by_cases hdao : k = .dao
  · subst hdao
    have htransition := (daoTransition_of_document ha).symm.trans (daoTransition_of_document hb)
    refine (Option.map_inj_right fun m n h => ?_).mp htransition
    exact blockText_injective m n (congrArg canonical h)
  · obtain ⟨e, he, rfl⟩ := exists_activation hdao hk
    obtain ⟨m, hm⟩ := exists_block?_of_mem_activations a.forks he
    obtain ⟨n, hn⟩ := exists_block?_of_mem_activations b.forks he
    have htransition := (transition_of_document ha he hm).symm.trans (transition_of_document hb he hn)
    rw [hm, hn, blockText_injective m n (congrArg canonical (Option.some.inj htransition))]

end Chainspec

/-! ## What counts -/

/-- Two genesis blocks agree on all that Nethermind and OpenEthereum are
told of a proof-of-work network. -/
structure SameEthashChain (a b : Genesis) : Prop where
  chainId : a.chainId = b.chainId
  networkId : a.networkId = b.networkId
  coinbase : a.coinbase = b.coinbase
  mixHash : a.mixHash = b.mixHash
  difficulty : a.difficulty.text = b.difficulty.text
  timestamp : a.timestamp.text = b.timestamp.text
  gasLimit : a.gasLimit.text = b.gasLimit.text
  /-- The nonces have the same digits after their leading zeros. -/
  nonce : a.nonce.significant = b.nonce.significant
  /-- The fixed difficulty is the one parameter of the engine. -/
  engine : a.engine = b.engine
  forks : a.forks = b.forks
  entries : ∀ address, a.nestedEntry? address = b.nestedEntry? address

/-! ## Read off the document -/

theorem get?_ethashParams_fixedDifficulty (s : ForkSchedule) (c : Ethash) :
    (Chainspec.ethashParams s c).get? "fixedDifficulty" =
      c.fixedDifficulty.map Chainspec.blockText := by
  obtain ⟨fixed⟩ := c
  cases fixed <;> rfl

theorem at?_ethashParams (g : Genesis) (c : Ethash) (nonce extra key : String) :
    (Json.obj (Chainspec.members g
        (.obj [("Ethash", .obj [("params", Chainspec.ethashParams g.forks c)])]) nonce extra)).at?
        ["engine", "Ethash", "params", key] =
      (Chainspec.ethashParams g.forks c).get? key :=
  at?_singleton (Chainspec.ethashParams g.forks c) key

/-- The parameters of the proof of work tell the forks that have no rule of
their own. -/
theorem forks_of_ethashParams {s t : ForkSchedule} {c d : Ethash}
    (hparam : ∀ key, ((Chainspec.ethashParams s c).get? key).map canonical =
      ((Chainspec.ethashParams t d).get? key).map canonical)
    (htold : ∀ k, k ∉ Chainspec.untold → s.block? k = t.block? k) : s = t := by
  have hhomestead : s.homestead = t.homestead :=
    Chainspec.blockText_injective _ _ (Option.some.inj (hparam "homesteadTransition"))
  have hdelays : Chainspec.bombDelays s = Chainspec.bombDelays t :=
    Chainspec.byBlock_canonical_inj (fun _ _ => Builtin.numberText_injective)
      (Option.some.inj (hparam "difficultyBombDelays"))
  obtain ⟨hmuir, harrow⟩ := Chainspec.glaciers_of_bombDelays hdelays
    (Option.some.inj (htold .byzantium (by decide)))
    (Option.some.inj (htold .constantinople (by decide)))
    (Option.some.inj (htold .london (by decide)))
  refine ForkSchedule.ext_block? fun k => ?_
  by_cases hk : k ∈ Chainspec.untold
  · simp only [Chainspec.untold, List.mem_cons, List.not_mem_nil, or_false] at hk
    rcases hk with rfl | rfl | rfl
    · exact congrArg some hhomestead
    · exact congrArg some hmuir
    · exact congrArg some harrow
  · exact htold k hk

section

variable {client : Client} {a b : Genesis} {x : Json} {c d : Ethash}

/-- One document stands for genesis blocks that agree on all that counts. -/
theorem sameEthashChain_of_document (hac : a.engine = .ethash c) (hbd : b.engine = .ethash d)
    (ha : Chainspec.document client a = .ok x) (hb : Chainspec.document client b = .ok x) :
    SameEthashChain a b := by
  obtain ⟨engine, extra, nonce, he, hn, hxa⟩ := Chainspec.at?_of_document ha
  obtain ⟨engine', extra', nonce', he', hn', hxb⟩ := Chainspec.at?_of_document hb
  simp only [Chainspec.engineAndExtra?, hac, Option.some.injEq, Prod.mk.injEq] at he
  simp only [Chainspec.engineAndExtra?, hbd, Option.some.injEq, Prod.mk.injEq] at he'
  obtain ⟨rfl, rfl⟩ := he
  obtain ⟨rfl, rfl⟩ := he'
  have hpart := fun path => (hxa path).symm.trans (hxb path)
  have hparam : ∀ key, ((Chainspec.ethashParams a.forks c).get? key).map canonical =
      ((Chainspec.ethashParams b.forks d).get? key).map canonical := by
    intro key
    rw [← at?_ethashParams a c nonce "0x", ← at?_ethashParams b d nonce' "0x"]
    exact hpart ["engine", "Ethash", "params", key]
  have hnonce : nonce = nonce' :=
    canonical_str_inj (Option.some.inj (hpart ["genesis", "seal", "ethereum", "nonce"]))
  have hmix := canonical_str_inj (Option.some.inj (hpart ["genesis", "seal", "ethereum", "mixHash"]))
  have hcoinbase := canonical_str_inj (Option.some.inj (hpart ["genesis", "author"]))
  constructor
  case chainId =>
    exact Chainspec.blockText_injective _ _ (Option.some.inj (hpart ["params", "chainID"]))
  case networkId =>
    exact Chainspec.blockText_injective _ _ (Option.some.inj (hpart ["params", "networkID"]))
  case coinbase => exact FixedBytes.text_injective hcoinbase
  case mixHash => exact FixedBytes.text_injective hmix
  case difficulty => exact canonical_str_inj (Option.some.inj (hpart ["genesis", "difficulty"]))
  case timestamp => exact canonical_str_inj (Option.some.inj (hpart ["genesis", "timestamp"]))
  case gasLimit => exact canonical_str_inj (Option.some.inj (hpart ["genesis", "gasLimit"]))
  case nonce =>
    rw [← hnonce] at hn'
    exact HexText.significant_of_fixedWidth? hn hn'
  case engine =>
    have hfixed := hparam "fixedDifficulty"
    rw [get?_ethashParams_fixedDifficulty, get?_ethashParams_fixedDifficulty] at hfixed
    have hfixed := map_canonical_inj Chainspec.blockText_injective hfixed
    rw [hac, hbd, Engine.ethash.injEq]
    cases c
    cases d
    exact congrArg Ethash.mk hfixed
  case forks =>
    exact forks_of_ethashParams hparam fun k => Chainspec.block?_of_document ha hb
  case entries =>
    intro address
    have hentry := entries_of_canonical (Option.some.inj (hpart ["accounts"])) address
    rwa [get?_builtinAllocation_entry, get?_builtinAllocation_entry] at hentry

/-! ## Nothing else is in the document -/

theorem chainspec_congr (h : SameEthashChain a b) (ha : Chainspec.document client a = .ok x) :
    Chainspec.document client b = .ok x := by
  obtain ⟨engine, extra, nonce, he, hn, rfl⟩ := Chainspec.document_eq_ok_iff.mp ha
  refine Chainspec.document_eq_ok_iff.mpr ⟨engine, extra, nonce, ?_, ?_, ?_⟩
  · rw [← he, Chainspec.engineAndExtra?, Chainspec.engineAndExtra?, h.engine, h.forks]
  · rw [← hn, HexText.fixedWidth?_congr h.nonce]
  · have halloc : encodeAllocation a.builtinAllocation = encodeAllocation b.builtinAllocation :=
      encodeAllocation_congr fun address => by
        rw [get?_builtinAllocation_entry, get?_builtinAllocation_entry, h.entries]
    rw [Chainspec.members, Chainspec.members, Chainspec.params, Chainspec.params, Chainspec.block,
      Chainspec.block, halloc, h.chainId, h.networkId, h.forks, h.mixHash, h.difficulty, h.coinbase,
      h.timestamp, h.gasLimit]

end

/-- **What a chainspec tells**: the documents of two proof-of-work networks
are the same exactly when their genesis blocks agree on all that counts. The
glaciers do, though the document has no word for them. -/
theorem ethash_chainspec_tells_exactly {client : Client} {a b : Genesis} {c d : Ethash} {x y : Json}
    (hclient : client = .openEthereum ∨ client = .nethermind) (hac : a.engine = .ethash c)
    (hbd : b.engine = .ethash d) (ha : a.document client = .ok x)
    (hb : b.document client = .ok y) : x = y ↔ SameEthashChain a b := by
  rw [document_of_nested hclient] at ha hb
  constructor
  · rintro rfl
    exact sameEthashChain_of_document hac hbd ha hb
  · intro h
    exact Except.ok.inj ((chainspec_congr h ha).symm.trans hb)

/-- A network whose blocks are mined. -/
def minedNetwork (nonce : HexText) (forks : ForkSchedule) : Genesis :=
  { Genesis.new 1337 1337 (.ethash {}) with
    nonce := nonce
    forks := forks }

theorem exists_document_minedNetwork (nonce : HexText) (forks : ForkSchedule)
    (h : nonce.toNat < 2 ^ 64) : ∃ x, (minedNetwork nonce forks).document .openEthereum = .ok x := by
  show ∃ x, Chainspec.document .openEthereum (minedNetwork nonce forks) = .ok x
  refine Chainspec.exists_document_iff.mpr ⟨?_, h⟩
  simp [minedNetwork, consensus, Engine.consensus, Genesis.new]

theorem chainspec_tells_muirGlacier_and_no_zeros :
    ∃ x y z, (minedNetwork ⟨[], rfl⟩ {}).document .openEthereum = .ok x ∧
      (minedNetwork ⟨['0', '0'], rfl⟩ {}).document .openEthereum = .ok y ∧
      (minedNetwork ⟨[], rfl⟩ { muirGlacier := 5 }).document .openEthereum = .ok z ∧
      x = y ∧ x ≠ z := by
  obtain ⟨x, hx⟩ := exists_document_minedNetwork ⟨[], rfl⟩ {} (by decide)
  obtain ⟨y, hy⟩ := exists_document_minedNetwork ⟨['0', '0'], rfl⟩ {} (by decide)
  obtain ⟨z, hz⟩ := exists_document_minedNetwork ⟨[], rfl⟩ { muirGlacier := 5 } (by decide)
  refine ⟨x, y, z, hx, hy, hz, ?_, fun hxz => ?_⟩
  · exact (ethash_chainspec_tells_exactly (.inl rfl) rfl rfl hx hy).mpr
      ⟨rfl, rfl, rfl, rfl, rfl, rfl, rfl, rfl, rfl, rfl, fun _ => rfl⟩
  · have hforks := ((ethash_chainspec_tells_exactly (.inl rfl) rfl rfl hx hz).mp hxz).forks
    exact absurd hforks (by decide)

end Provision.Genesis
