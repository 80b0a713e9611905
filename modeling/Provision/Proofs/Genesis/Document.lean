/-
Provision.Proofs.Genesis.Document — the members of the genesis documents.

A document is a list of members put into canonical order. No key stands
twice in it, at any depth, so what stands at the end of a path of keys can
be read off the list (`Flat.at?_of_document`, `Chainspec.at?_of_document`).
`Flat.exists_sealOf_iff` and `Chainspec.exists_document_iff` say which
genesis has a document in which format.
-/
import Provision.Genesis.Document
import Provision.Proofs.Genesis.Allocation
import Provision.Proofs.HexText

namespace Provision.Genesis

open Json

/-! ## The flat document -/

namespace Flat

theorem distinctKeys_engineMember (d : Dialect) (e : Engine) :
    (engineMember d e).2.DistinctKeys := by
  cases e with
  | ethash c =>
    obtain ⟨fixed⟩ := c
    cases d <;> cases fixed <;> simp [engineMember, member?, distinctKeys_obj]
  | clique c => cases d <;> simp [engineMember, distinctKeys_obj]
  | istanbul c => cases d <;> simp [engineMember, distinctKeys_obj]

theorem distinctKeys_of_mem_forkMembers (s : ForkSchedule) :
    ∀ e ∈ forkMembers s, e.2.DistinctKeys := by
  cases hd : s.dao <;> simp [forkMembers, hd]

theorem distinctKeys_config (d : Dialect) (g : Genesis) : (config d g).DistinctKeys := by
  have he := distinctKeys_engineMember d g.engine
  rw [config, distinctKeys_obj]
  constructor
  · cases hd : g.forks.dao <;> cases g.engine <;> simp [forkMembers, engineMember, hd]
  · rw [List.forall_mem_append, List.forall_mem_cons, List.forall_mem_singleton]
    exact ⟨⟨distinctKeys_nat _, distinctKeys_of_mem_forkMembers g.forks⟩, he⟩

theorem distinctKeys_members (d : Dialect) (g : Genesis) (s : Seal) :
    (Json.obj (members d g s)).DistinctKeys := by
  have hc := distinctKeys_config d g
  have ha := distinctKeys_encodeAllocation g.allocation
  rw [distinctKeys_obj]
  by_cases hl : g.forks.london = 0 <;> simp [members, hl, hc, ha]

end Flat

/-! ## The nested document -/

namespace Chainspec

theorem distinctKeys_byBlock {ν : Type} (encode : ν → String) (m : OrderedMap UInt64 ν) :
    (byBlock encode m).DistinctKeys :=
  distinctKeys_ofMap Builtin.blockKey_injective (fun v => distinctKeys_str (encode v)) m

theorem distinctKeys_ethashParams (s : ForkSchedule) (c : Ethash) :
    (ethashParams s c).DistinctKeys := by
  have hr := distinctKeys_byBlock id (rewards s)
  have hb := distinctKeys_byBlock Hex.numberText (bombDelays s)
  obtain ⟨fixed⟩ := c
  rw [ethashParams, distinctKeys_obj]
  cases fixed <;> simp [member?, blockText, hr, hb]

theorem distinctKeys_engineAndExtra? {g : Genesis} {engine : Json} {extra : String}
    (h : engineAndExtra? g = some (engine, extra)) : engine.DistinctKeys := by
  unfold engineAndExtra? at h
  cases he : g.engine with
  | ethash c =>
    rw [he] at h
    cases h
    simp [distinctKeys_obj [_], distinctKeys_ethashParams]
  | clique c =>
    rw [he] at h
    cases h
    simp [distinctKeys_obj]
  | istanbul c =>
    rw [he] at h
    cases h

theorem params_keys_nodup (g : Genesis) : ((params g).members.map Prod.fst).Nodup := by
  cases hd : g.forks.dao with
  | none => simp [params, Json.members, transitions, member?, hd]
  | some b => simp [params, Json.members, transitions, member?, hd]

theorem distinctKeys_params (g : Genesis) : (params g).DistinctKeys := by
  refine (distinctKeys_obj _).mpr ⟨params_keys_nodup g, ?_⟩
  simp only [List.forall_mem_append]
  refine ⟨⟨by simp [blockText], fun e he => ?_⟩, ?_⟩
  · obtain ⟨t, -, rfl⟩ := List.mem_map.mp he
    exact distinctKeys_str _
  · cases g.forks.dao <;> simp [member?, blockText]

theorem distinctKeys_block (g : Genesis) (nonce extra : String) :
    (block g nonce extra).DistinctKeys := by
  rw [block, distinctKeys_obj]
  by_cases hl : g.forks.london = 0 <;> simp [hl, distinctKeys_obj]

theorem distinctKeys_members {g : Genesis} {engine : Json} {extra : String}
    (h : engineAndExtra? g = some (engine, extra)) (nonce : String) :
    (Json.obj (members g engine nonce extra)).DistinctKeys := by
  rw [distinctKeys_obj]
  simp [members, distinctKeys_engineAndExtra? h, distinctKeys_params, distinctKeys_block,
    distinctKeys_encodeAllocation]

end Chainspec

/-! ## Which genesis has a document -/

theorem Flat.document_eq_ok_iff {d : Flat.Dialect} {g : Genesis} {doc : Json} :
    Flat.document d g = .ok doc ↔
      ∃ s, Flat.sealOf g = .ok s ∧ doc = canonical (.obj (Flat.members d g s)) := by
  unfold Flat.document
  split
  · rename_i s hs
    simp only [Except.ok.injEq]
    constructor
    · rintro rfl
      exact ⟨s, hs, rfl⟩
    · rintro ⟨s', hs', rfl⟩
      rw [hs] at hs'
      cases hs'
      rfl
  · rename_i e he
    simp [he]

theorem Chainspec.document_eq_ok_iff {client : Client} {g : Genesis} {doc : Json} :
    Chainspec.document client g = .ok doc ↔
      ∃ engine extra nonce, Chainspec.engineAndExtra? g = some (engine, extra) ∧
        g.nonce.fixedWidth? Chainspec.nonceWidth = some nonce ∧
        doc = canonical (.obj (Chainspec.members g engine nonce extra)) := by
  simp only [← HexText.fixedWidth_eq_ok_iff]
  unfold Chainspec.document
  split
  · rename_i he
    simp [he]
  · rename_i engine extra he
    split
    · rename_i hn
      simp [hn]
    · rename_i nonce hn
      simp only [Except.ok.injEq]
      constructor
      · rintro rfl
        exact ⟨engine, extra, nonce, he, hn, rfl⟩
      · rintro ⟨engine', extra', nonce', he', hn', rfl⟩
        rw [he] at he'
        rw [hn] at hn'
        cases he'
        cases hn'
        rfl

/-- What stands in a flat document is read off its members. -/
theorem Flat.at?_of_document {d : Flat.Dialect} {g : Genesis} {doc : Json}
    (h : Flat.document d g = .ok doc) :
    ∃ s, Flat.sealOf g = .ok s ∧
      ∀ path, doc.at? path = ((Json.obj (Flat.members d g s)).at? path).map canonical := by
  obtain ⟨s, hs, rfl⟩ := Flat.document_eq_ok_iff.mp h
  exact ⟨s, hs, at?_canonical (Flat.distinctKeys_members d g s)⟩

/-- What stands in a nested document is read off its members. -/
theorem Chainspec.at?_of_document {client : Client} {g : Genesis} {doc : Json}
    (h : Chainspec.document client g = .ok doc) :
    ∃ engine extra nonce, Chainspec.engineAndExtra? g = some (engine, extra) ∧
      g.nonce.fixedWidth? Chainspec.nonceWidth = some nonce ∧
      ∀ path, doc.at? path =
        ((Json.obj (Chainspec.members g engine nonce extra)).at? path).map canonical := by
  obtain ⟨engine, extra, nonce, he, hn, rfl⟩ := Chainspec.document_eq_ok_iff.mp h
  exact ⟨engine, extra, nonce, he, hn, at?_canonical (Chainspec.distinctKeys_members he nonce)⟩

/-- OpenEthereum and Nethermind have the nested document. -/
theorem document_of_nested {client : Client} (h : client = .openEthereum ∨ client = .nethermind)
    (g : Genesis) : g.document client = Chainspec.document client g := by
  rcases h with rfl | rfl <;> rfl

/-- A genesis has a flat document unless it is of an Istanbul network
without validators. -/
theorem Flat.exists_sealOf_iff {g : Genesis} :
    (∃ s, Flat.sealOf g = .ok s) ↔ ∀ i, g.engine = .istanbul i → i.validators ≠ [] := by
  unfold Flat.sealOf
  cases he : g.engine with
  | ethash c => simp
  | clique c => simp
  | istanbul i =>
    simp only [ExtraData.istanbulText, ExtraData.istanbul, Engine.istanbul.injEq, forall_eq']
    by_cases hv : i.validators = []
    · simp [hv, Except.map]
    · simp [hv, Except.map]

/-- A genesis has a nested document when its engine has words there and its
nonce fits. -/
theorem Chainspec.exists_document_iff {client : Client} {g : Genesis} :
    (∃ doc, Chainspec.document client g = .ok doc) ↔
      g.consensus ≠ .istanbul ∧ g.nonce.toNat < 2 ^ 64 := by
  show _ ↔ g.consensus ≠ .istanbul ∧ g.nonce.toNat < 16 ^ Chainspec.nonceWidth
  simp only [Chainspec.document_eq_ok_iff]
  rw [← HexText.fixedWidth?_isSome_iff_toNat_lt, Option.isSome_iff_exists]
  constructor
  · rintro ⟨-, engine, extra, nonce, he, hn, -⟩
    refine ⟨fun hc => ?_, nonce, hn⟩
    cases hg : g.engine <;> simp [Chainspec.engineAndExtra?, consensus, Engine.consensus, hg] at he hc
  · rintro ⟨hc, nonce, hn⟩
    cases hg : g.engine with
    | ethash c => exact ⟨_, _, _, nonce, by rw [Chainspec.engineAndExtra?, hg], hn, rfl⟩
    | clique c => exact ⟨_, _, _, nonce, by rw [Chainspec.engineAndExtra?, hg], hn, rfl⟩
    | istanbul c => simp [consensus, Engine.consensus, hg] at hc

/-- Why a genesis has no nested document. -/
theorem Chainspec.document_eq_error_iff {client : Client} {g : Genesis} {e : GenesisError} :
    Chainspec.document client g = .error e ↔
      g.consensus = .istanbul ∧ e = .unsupportedConsensus client .istanbul ∨
      g.consensus ≠ .istanbul ∧ 2 ^ 64 ≤ g.nonce.toNat ∧
        e = .encoding (.hexTooWide g.nonce.text Chainspec.nonceWidth) := by
  show _ ↔ _ ∨ _ ∧ 16 ^ Chainspec.nonceWidth ≤ g.nonce.toNat ∧ _
  unfold Chainspec.document Chainspec.engineAndExtra?
  cases hg : g.engine with
  | istanbul c => simp [consensus, Engine.consensus, hg, eq_comm]
  | ethash c | clique c =>
    cases hn : g.nonce.fixedWidth Chainspec.nonceWidth with
    | error e' =>
      obtain ⟨hle, rfl⟩ := HexText.fixedWidth_eq_error_iff.mp hn
      simp [consensus, Engine.consensus, hg, hle, eq_comm]
    | ok nonce =>
      have hlt := (g.nonce.exists_fixedWidth_iff Chainspec.nonceWidth).mp ⟨nonce, hn⟩
      simp [consensus, Engine.consensus, hg, Nat.not_le.mpr hlt]

end Provision.Genesis
