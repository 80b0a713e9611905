/-
Provision.Proofs.Genesis.Agreement — the clients are told the same chain.

The flat and the nested document are written by different rules: blocks
are numbers in one and hexadecimal text in the other, a nonce is kept as
it was written in one and padded in the other, and only one spells the
builtin contracts out. `SameChain` says what they must have in common for
two clients to run one chain, `SameEngine` what they must say of the
engine, and `SameButEngine` how near the two flat documents are to each
other. `clients_are_told_one_chain` puts them together.
-/
import Provision.Engine.Layout
import Provision.Proofs.Genesis.Document

namespace Provision.Genesis

open Json

/-! ## What two documents have in common -/

/-- The number that hexadecimal text stands for. -/
def hexNumber? (s : String) : Option Nat :=
  (HexText.ofText? s).map HexText.toNat

/-- Both parts are there, and they are one text. -/
def SameText (x y : Option Json) : Prop :=
  ∃ s, x = some (.str s) ∧ y = some (.str s)

/-- Both parts are there, and they are hexadecimal texts of one number. -/
def SameHexNumber (x y : Option Json) : Prop :=
  ∃ s t n, x = some (.str s) ∧ y = some (.str t) ∧ hexNumber? s = some n ∧ hexNumber? t = some n

/-- Both parts are there, the first as the hexadecimal text of the second. -/
def SameNumber (x y : Option Json) : Prop :=
  ∃ s n, x = some (.str s) ∧ y = some (.nat n) ∧ hexNumber? s = some n.toNat

/-- The parts are the same number, or both are left out. -/
def SameOptionalNumber (x y : Option Json) : Prop :=
  SameNumber x y ∨ x = none ∧ y = none

/-- The key of a fork's block in a flat document. -/
def blockKey : Fork → String
  | .homestead => "homesteadBlock"
  | .dao => "daoForkBlock"
  | .eip150 => "eip150Block"
  | .eip155 => "eip155Block"
  | .eip158 => "eip158Block"
  | .byzantium => "byzantiumBlock"
  | .constantinople => "constantinopleBlock"
  | .petersburg => "petersburgBlock"
  | .istanbul => "istanbulBlock"
  | .muirGlacier => "muirGlacierBlock"
  | .berlin => "berlinBlock"
  | .london => "londonBlock"
  | .arrowGlacier => "arrowGlacierBlock"

/-- The rules of every chain that have a transition of their own, and the
forks that bring them. -/
def activations : List (String × Fork) :=
  [("eip150Transition", .eip150),
   ("eip155Transition", .eip155),
   ("eip160Transition", .eip158),
   ("eip161abcTransition", .eip158),
   ("eip161dTransition", .eip158),
   ("maxCodeSizeTransition", .eip158),
   ("eip140Transition", .byzantium),
   ("eip211Transition", .byzantium),
   ("eip214Transition", .byzantium),
   ("eip658Transition", .byzantium),
   ("eip145Transition", .constantinople),
   ("eip1014Transition", .constantinople),
   ("eip1052Transition", .constantinople),
   ("eip1283Transition", .constantinople),
   ("eip1283DisableTransition", .petersburg),
   ("eip1283ReenableTransition", .istanbul),
   ("eip1344Transition", .istanbul),
   ("eip1706Transition", .istanbul),
   ("eip1884Transition", .istanbul),
   ("eip2028Transition", .istanbul),
   ("eip2929Transition", .berlin),
   ("eip2930Transition", .berlin),
   ("eip1559Transition", .london),
   ("eip3198Transition", .london),
   ("eip3529Transition", .london),
   ("eip3541Transition", .london)]

/-- The key of the one transition that may be left out. -/
def daoKey : String := "daoHardforkTransition"

/-- The nested document `c` and the flat document `f` tell of one chain. -/
structure SameChain (c f : Json) : Prop where
  chainId : SameNumber (c.at? ["params", "chainID"]) (f.at? ["config", "chainId"])
  difficulty : SameText (c.at? ["genesis", "difficulty"]) (f.at? ["difficulty"])
  timestamp : SameText (c.at? ["genesis", "timestamp"]) (f.at? ["timestamp"])
  gasLimit : SameText (c.at? ["genesis", "gasLimit"]) (f.at? ["gasLimit"])
  extraData : SameText (c.at? ["genesis", "extraData"]) (f.at? ["extraData"])
  author : SameText (c.at? ["genesis", "author"]) (f.at? ["coinbase"])
  mixHash : SameText (c.at? ["genesis", "seal", "ethereum", "mixHash"]) (f.at? ["mixHash"])
  nonce : SameHexNumber (c.at? ["genesis", "seal", "ethereum", "nonce"]) (f.at? ["nonce"])
  /-- A base fee is told to both clients or to neither, by the block of London. -/
  baseFee :
    if f.at? ["config", blockKey .london] = some (.nat 0) then
      SameText (c.at? ["genesis", "baseFeePerGas"]) (f.at? ["baseFeePerGas"])
    else c.at? ["genesis", "baseFeePerGas"] = none ∧ f.at? ["baseFeePerGas"] = none
  activation : ∀ e ∈ activations,
    SameNumber (c.at? ["params", e.1]) (f.at? ["config", blockKey e.2])
  dao : SameOptionalNumber (c.at? ["params", daoKey]) (f.at? ["config", blockKey .dao])
  /-- There are no other transitions. -/
  onlyActivations : ∀ key v, c.at? ["params", key] = some v →
    "Transition".toList <:+ key.toList → key = daoKey ∨ key ∈ activations.map Prod.fst
  /-- But for the builtin contracts, every address holds the same. -/
  accounts : (c.at? ["accounts"]).map (mapValues (erase "builtin")) = f.at? ["alloc"]

/-- The nested document `c` and the flat documents `b` of Besu and `t` of
Geth tell of one engine. -/
def SameEngine (c b t : Json) : Engine → Prop
  | .ethash _ =>
    SameNumber (c.at? ["engine", "Ethash", "params", "homesteadTransition"])
      (b.at? ["config", blockKey .homestead]) ∧
    SameNumber (c.at? ["engine", "Ethash", "params", "eip100bTransition"])
      (b.at? ["config", blockKey .byzantium]) ∧
    SameOptionalNumber (c.at? ["engine", "Ethash", "params", "fixedDifficulty"])
      (b.at? ["config", "ethash", "fixeddifficulty"])
  | .clique _ =>
    (∃ n, c.at? ["engine", "clique", "params", "period"] = some (.nat n) ∧
      b.at? ["config", "clique", "blockperiodseconds"] = some (.nat n) ∧
      t.at? ["config", "clique", "period"] = some (.nat n)) ∧
    ∃ n, c.at? ["engine", "clique", "params", "epoch"] = some (.nat n) ∧
      b.at? ["config", "clique", "epochlength"] = some (.nat n) ∧
      t.at? ["config", "clique", "epoch"] = some (.nat n)
  | .istanbul _ => False

/-- The keys of the engines that the configuration of a flat document holds. -/
def engineKeys (f : Json) : List String :=
  ((f.at? ["config"]).getD .null).keys.filter (· ∈ ["ethash", "clique", "ibft2"])

/-- The flat documents are the same but for the member of the engine, of
which both have one, under the same key. -/
structure SameButEngine (key : String) (b t : Json) : Prop where
  rest : b.alter "config" (erase key) = t.alter "config" (erase key)
  besu : engineKeys b = [key]
  geth : engineKeys t = [key]

/-! ## Between the families -/

theorem hexNumber?_numberText (n : Nat) : hexNumber? (Hex.numberText n) = some n := by
  rw [hexNumber?, HexText.ofText?_numberText, Option.map_some, HexText.toNat_ofNat]

theorem hexNumber?_text (h : HexText) : hexNumber? h.text = some h.toNat := by
  rw [hexNumber?, HexText.ofText?_text, Option.map_some]

theorem sameNumber_blockText {x y : Option Json} {b : UInt64}
    (hx : x = some (Chainspec.blockText b)) (hy : y = some (.nat b)) : SameNumber x y :=
  ⟨_, b, hx, hy, hexNumber?_numberText b.toNat⟩

/-- Where the engine has words in the nested document, the flat ones keep
the seal of the description. -/
theorem sealOf_of_engineAndExtra? {g : Genesis} {engine : Json} {extra : String}
    (h : Chainspec.engineAndExtra? g = some (engine, extra)) :
    Flat.sealOf g = .ok ⟨g.mixHash.text, g.nonce.text, g.difficulty.text, extra⟩ := by
  unfold Chainspec.engineAndExtra? at h
  unfold Flat.sealOf
  cases he : g.engine <;> simp [he] at h ⊢ <;> exact h.2

/-- The block of a fork stands under its key. -/
theorem get?_config_of_block? {d : Flat.Dialect} {g : Genesis} {f : Fork} {b : UInt64}
    (h : g.forks.block? f = some b) : (Flat.config d g).get? (blockKey f) = some (.nat b) := by
  refine lookup_of_mem ((distinctKeys_obj _).mp (Flat.distinctKeys_config d g)).1 ?_
  have hmem : (blockKey f, Json.nat b) ∈ Flat.forkMembers g.forks := by
    cases f <;> simp_all [ForkSchedule.block?, Flat.forkMembers, blockKey]
  exact List.mem_append_left _ (List.mem_cons_of_mem _ hmem)

theorem get?_config_dao_of_none {d : Flat.Dialect} {g : Genesis} (h : g.forks.dao = none) :
    (Flat.config d g).get? (blockKey .dao) = none := by
  rw [Json.get?, Flat.config, members, Flat.forkMembers, h]
  cases g.engine <;> rfl

theorem get?_config_block (d : Flat.Dialect) (g : Genesis) (k : Fork) :
    (Flat.config d g).get? (blockKey k) = (g.forks.block? k).map .nat := by
  cases hk : g.forks.block? k with
  | some b => rw [get?_config_of_block? hk, Option.map_some]
  | none =>
    -- Only the DAO fork may be left out.
    cases k <;> simp only [ForkSchedule.block?, reduceCtorEq] at hk
    rw [get?_config_dao_of_none hk, Option.map_none]

/-- The transitions are those of the table, at the blocks of its forks. -/
theorem transitions_eq_activations (s : ForkSchedule) :
    Chainspec.transitions s = activations.filterMap fun e => (s.block? e.2).map fun b => (e.1, b) :=
  rfl

theorem exists_block?_of_mem_activations (s : ForkSchedule) {e : String × Fork}
    (h : e ∈ activations) : ∃ b, s.block? e.2 = some b := by
  have hdao : ∀ e ∈ activations, e.2 ≠ .dao := by decide
  cases hf : e.2 with
  | dao => exact absurd hf (hdao e h)
  | _ => exact ⟨_, rfl⟩

theorem get?_params_of_activation {g : Genesis} {e : String × Fork} {b : UInt64}
    (h : e ∈ activations) (hb : g.forks.block? e.2 = some b) :
    (Chainspec.params g).get? e.1 = some (Chainspec.blockText b) := by
  refine lookup_of_mem (Chainspec.params_keys_nodup g) ?_
  have hmem : (e.1, b) ∈ Chainspec.transitions g.forks := by
    rw [transitions_eq_activations, List.mem_filterMap]
    exact ⟨e, h, by rw [hb, Option.map_some]⟩
  refine List.mem_append_left _ (List.mem_append_right _ ?_)
  exact List.mem_map.mpr ⟨(e.1, b), hmem, rfl⟩

theorem get?_params_dao (g : Genesis) :
    (Chainspec.params g).get? daoKey = g.forks.dao.map Chainspec.blockText := by
  cases hd : g.forks.dao with
  | none =>
    rw [Json.get?, Chainspec.params, members, hd]
    rfl
  | some b =>
    rw [Json.get?, Chainspec.params, members, hd]
    rfl

theorem mem_keys_of_transition {g : Genesis} {key : String} {v : Json}
    (hv : (Chainspec.params g).get? key = some v) (hk : "Transition".toList <:+ key.toList) :
    key = daoKey ∨ key ∈ activations.map Prod.fst := by
  rcases List.mem_append.mp (mem_of_lookup hv) with hmem | hmem
  · rcases List.mem_append.mp hmem with hmem | hmem
    · -- None of the constants is the block of a rule.
      refine absurd hk ?_
      simp only [List.mem_cons, Prod.mk.injEq, List.not_mem_nil, or_false] at hmem
      rcases hmem with h | h | h | h | h | h | h | h | h | h <;> rw [h.1] <;> decide
    · obtain ⟨t, ht, heq⟩ := List.mem_map.mp hmem
      rw [transitions_eq_activations, List.mem_filterMap] at ht
      obtain ⟨e, he, hb⟩ := ht
      obtain ⟨b, -, rfl⟩ := Option.map_eq_some_iff.mp hb
      cases heq
      exact .inr (List.mem_map_of_mem he)
  · cases hd : g.forks.dao with
    | none => simp [member?, hd] at hmem
    | some b =>
      simp only [member?, hd, Option.map_some, List.mem_singleton, Prod.mk.injEq] at hmem
      exact .inl hmem.1

theorem at?_params (g : Genesis) (engine : Json) (nonce extra key : String) :
    (Json.obj (Chainspec.members g engine nonce extra)).at? ["params", key] =
      (Chainspec.params g).get? key :=
  at?_singleton (Chainspec.params g) key

theorem at?_config (d : Flat.Dialect) (g : Genesis) (s : Flat.Seal) (key : String) :
    (Json.obj (Flat.members d g s)).at? ["config", key] = (Flat.config d g).get? key :=
  at?_singleton (Flat.config d g) key

section

variable {g : Genesis} {client : Client} {d : Flat.Dialect} {c f : Json}

theorem block_of_document (hf : Flat.document d g = .ok f) {k : Fork} {b : UInt64}
    (h : g.forks.block? k = some b) : f.at? ["config", blockKey k] = some (.nat b) := by
  obtain ⟨s, -, hf⟩ := Flat.at?_of_document hf
  rw [hf, at?_config, get?_config_of_block? h]
  simp [canonical]

theorem transition_of_document (hc : Chainspec.document client g = .ok c) {e : String × Fork}
    (he : e ∈ activations) {b : UInt64} (h : g.forks.block? e.2 = some b) :
    c.at? ["params", e.1] = some (Chainspec.blockText b) := by
  obtain ⟨engine, extra, nonce, -, -, hc⟩ := Chainspec.at?_of_document hc
  rw [hc, at?_params, get?_params_of_activation he h]
  simp [Chainspec.blockText, canonical]

theorem daoTransition_of_document (hc : Chainspec.document client g = .ok c) :
    c.at? ["params", daoKey] = g.forks.dao.map Chainspec.blockText := by
  obtain ⟨engine, extra, nonce, -, -, hc⟩ := Chainspec.at?_of_document hc
  rw [hc, at?_params, get?_params_dao]
  cases g.forks.dao with
  | none => rfl
  | some b => simp [Chainspec.blockText, canonical]

theorem nestedBaseFee_of_document (hc : Chainspec.document client g = .ok c) :
    c.at? ["genesis", "baseFeePerGas"] =
      if g.forks.london = 0 then some (.str londonBaseFee) else none := by
  obtain ⟨engine, extra, nonce, -, -, hc⟩ := Chainspec.at?_of_document hc
  rw [hc]
  by_cases h : g.forks.london = 0
  · simp only [Chainspec.members, Chainspec.block, h, if_true]
    rfl
  · simp only [Chainspec.members, Chainspec.block, h, if_false]
    rfl

theorem flatBaseFee_of_document (hf : Flat.document d g = .ok f) :
    f.at? ["baseFeePerGas"] =
      if g.forks.london = 0 then some (.str londonBaseFee) else none := by
  obtain ⟨s, -, hf⟩ := Flat.at?_of_document hf
  rw [hf]
  by_cases h : g.forks.london = 0
  · simp only [Flat.members, h, if_true]
    rfl
  · simp only [Flat.members, h, if_false]
    rfl

/-- What the two formats say of a genesis tells of one chain. -/
theorem sameChain_of_documents (hc : Chainspec.document client g = .ok c)
    (hf : Flat.document d g = .ok f) : SameChain c f := by
  obtain ⟨engine, extra, nonce, he, hn, hcat⟩ := Chainspec.at?_of_document hc
  obtain ⟨s, hs, hfat⟩ := Flat.at?_of_document hf
  rw [sealOf_of_engineAndExtra? he] at hs
  cases hs
  constructor
  case chainId => exact sameNumber_blockText (hcat _) (hfat _)
  case difficulty => exact ⟨_, hcat _, hfat _⟩
  case timestamp => exact ⟨_, hcat _, hfat _⟩
  case gasLimit => exact ⟨_, hcat _, hfat _⟩
  case extraData => exact ⟨_, hcat _, hfat _⟩
  case author => exact ⟨_, hcat _, hfat _⟩
  case mixHash => exact ⟨_, hcat _, hfat _⟩
  case nonce =>
    obtain ⟨h, hread, -, hvalue⟩ := HexText.toNat_of_fixedWidth? hn
    have hpadded : hexNumber? nonce = some g.nonce.toNat := by
      rw [hexNumber?, hread, Option.map_some, hvalue]
    exact ⟨_, _, _, hcat _, hfat _, hpadded, hexNumber?_text g.nonce⟩
  case baseFee =>
    rw [block_of_document hf (k := .london) rfl, nestedBaseFee_of_document hc,
      flatBaseFee_of_document hf]
    by_cases h : g.forks.london = 0
    · simp only [h, if_true]
      exact ⟨londonBaseFee, rfl, rfl⟩
    · have hlater : some (Json.nat g.forks.london) ≠ some (.nat 0) := by
        simpa using h
      rw [if_neg hlater, if_neg h]
      exact ⟨rfl, rfl⟩
  case activation =>
    intro e hmem
    obtain ⟨b, hb⟩ := exists_block?_of_mem_activations g.forks hmem
    exact sameNumber_blockText (transition_of_document hc hmem hb) (block_of_document hf hb)
  case dao =>
    have htransition := daoTransition_of_document hc
    cases hd : g.forks.dao with
    | none =>
      rw [hd, Option.map_none] at htransition
      have hblock : f.at? ["config", blockKey .dao] = none := by
        rw [hfat, at?_config, get?_config_dao_of_none hd]
        rfl
      exact .inr ⟨htransition, hblock⟩
    | some b =>
      rw [hd, Option.map_some] at htransition
      exact .inl (sameNumber_blockText htransition (block_of_document hf (k := .dao) hd))
  case onlyActivations =>
    intro key v hv hk
    rw [hcat, at?_params] at hv
    obtain ⟨w, hw, -⟩ := Option.map_eq_some_iff.mp hv
    exact mem_keys_of_transition hw hk
  case accounts =>
    have hca : c.at? ["accounts"] = some (encodeAllocation g.builtinAllocation).canonical := hcat _
    have hfa : f.at? ["alloc"] = some (encodeAllocation g.allocation).canonical := hfat _
    rw [hca, hfa, Option.map_some]
    rw [← canonical_mapValues (canonical_erase "builtin"), mapValues_erase_encodeAllocation,
      withoutBuiltins_builtinAllocation]

end

/-! ## The engine -/

theorem engineMember_key (d : Flat.Dialect) (e : Engine) : (Flat.engineMember d e).1 = e.key := by
  cases e <;> rfl

theorem at?_config_engine (d : Flat.Dialect) (g : Genesis) (s : Flat.Seal) (path : List String) :
    (Json.obj (Flat.members d g s)).at? ("config" :: g.engine.key :: path) =
      (Flat.engineMember d g.engine).2.at? path := by
  have hmem : (g.engine.key, (Flat.engineMember d g.engine).2) ∈ (Flat.config d g).members := by
    rw [← engineMember_key d g.engine]
    exact List.mem_append_right _ List.mem_cons_self
  have hget : (Flat.config d g).get? g.engine.key = some (Flat.engineMember d g.engine).2 :=
    lookup_of_mem ((distinctKeys_obj _).mp (Flat.distinctKeys_config d g)).1 hmem
  calc (Json.obj (Flat.members d g s)).at? ("config" :: g.engine.key :: path)
    _ = (Flat.config d g).at? (g.engine.key :: path) := rfl
    _ = (Flat.engineMember d g.engine).2.at? path := by rw [at?, hget, Option.bind_some]

theorem engine_of_document {d : Flat.Dialect} {g : Genesis} {f : Json}
    (hf : Flat.document d g = .ok f) (path : List String) :
    f.at? ("config" :: g.engine.key :: path) =
      ((Flat.engineMember d g.engine).2.at? path).map canonical := by
  obtain ⟨s, -, hf⟩ := Flat.at?_of_document hf
  rw [hf, at?_config_engine]

/-- What the three formats say of a genesis tells of one engine. -/
theorem sameEngine_of_documents {g : Genesis} {client : Client} {c b t : Json}
    (hc : Chainspec.document client g = .ok c) (hb : Flat.document .besu g = .ok b)
    (ht : Flat.document .geth g = .ok t) : SameEngine c b t g.engine := by
  obtain ⟨engine, extra, nonce, he, -, hc⟩ := Chainspec.at?_of_document hc
  have hhomestead := block_of_document hb (k := .homestead) rfl
  have hbyzantium := block_of_document hb (k := .byzantium) rfl
  have hb := engine_of_document hb
  have ht := engine_of_document ht
  cases hg : g.engine with
  | ethash k =>
    simp only [Chainspec.engineAndExtra?, hg, Option.some.injEq, Prod.mk.injEq] at he
    rw [hg] at hb
    rw [← he.1] at hc
    refine ⟨sameNumber_blockText (hc _) hhomestead, sameNumber_blockText (hc _) hbyzantium, ?_⟩
    obtain ⟨fixed⟩ := k
    cases fixed with
    | none => exact .inr ⟨hc _, hb ["fixeddifficulty"]⟩
    | some n => exact .inl (sameNumber_blockText (hc _) (hb ["fixeddifficulty"]))
  | clique k =>
    simp only [Chainspec.engineAndExtra?, hg, Option.some.injEq, Prod.mk.injEq] at he
    rw [hg] at hb ht
    rw [← he.1] at hc
    exact ⟨⟨k.blockPeriod, hc _, hb ["blockperiodseconds"], ht ["period"]⟩,
      k.epochLength, hc _, hb ["epochlength"], ht ["epoch"]⟩
  | istanbul k =>
    simp [Chainspec.engineAndExtra?, hg] at he

/-! ## Within the flat family -/

theorem erase_engine_config (d : Flat.Dialect) (g : Genesis) :
    (Flat.config d g).erase g.engine.key =
      .obj ((("chainId", .nat g.chainId) :: Flat.forkMembers g.forks).filter
        fun e => e.1 ≠ g.engine.key) := by
  rw [Flat.config, erase, List.filter_append]
  have hkey : [Flat.engineMember d g.engine].filter (fun e => e.1 ≠ g.engine.key) = [] := by
    simp [engineMember_key]
  rw [hkey, List.append_nil]

theorem engineKeys_of_document {d : Flat.Dialect} {g : Genesis} {f : Json}
    (hf : Flat.document d g = .ok f) : engineKeys f = [g.engine.key] := by
  obtain ⟨s, -, hf⟩ := Flat.at?_of_document hf
  have hconfig : f.at? ["config"] = some (Flat.config d g).canonical := hf ["config"]
  have hperm := keys_canonical_perm ((distinctKeys_obj _).mp (Flat.distinctKeys_config d g)).1
  have hkeys : ((("chainId", Json.nat g.chainId) :: Flat.forkMembers g.forks ++
      [Flat.engineMember d g.engine]).map Prod.fst).filter (· ∈ ["ethash", "clique", "ibft2"]) =
        [g.engine.key] := by
    rw [List.map_append, List.map_singleton, engineMember_key, List.map_cons, Flat.forkMembers]
    cases g.forks.dao <;> cases g.engine <;> rfl
  rw [engineKeys, hconfig, Option.getD_some, ← List.perm_singleton, ← hkeys]
  exact hperm.filter _

/-- What the two flat clients are told differs in the engine only. -/
theorem sameButEngine_of_documents {g : Genesis} {b t : Json}
    (hb : Flat.document .besu g = .ok b) (ht : Flat.document .geth g = .ok t) :
    SameButEngine g.engine.key b t where
  rest := by
    obtain ⟨s, hs, rfl⟩ := Flat.document_eq_ok_iff.mp hb
    obtain ⟨s', hs', rfl⟩ := Flat.document_eq_ok_iff.mp ht
    rw [hs] at hs'
    cases hs'
    rw [← canonical_alter (canonical_erase _), ← canonical_alter (canonical_erase _)]
    refine congrArg canonical ?_
    simp only [alter, Flat.members, List.cons_append, List.map_cons, if_true, erase_engine_config]
  besu := engineKeys_of_document hb
  geth := engineKeys_of_document ht

/-! ## One chain for all -/

/-- **One chain**: where the nested clients have a document at all, all four
clients do, and they are told one chain and one engine; the nested ones are
told it in the same words, the flat ones but for the words of the engine. A
genesis has a nested document unless it is of an Istanbul network or its
nonce does not fit eight bytes, and a flat one unless it is of an Istanbul
network without validators. -/
theorem clients_are_told_one_chain (g : Genesis) :
    (∀ c, g.document .openEthereum = .ok c ∨ g.document .nethermind = .ok c →
      g.document .openEthereum = .ok c ∧ g.document .nethermind = .ok c ∧
      ∃ b t, g.document .besu = .ok b ∧ g.document .geth = .ok t ∧
        SameChain c b ∧ SameChain c t ∧ SameEngine c b t g.engine) ∧
    ((∃ c, g.document .openEthereum = .ok c) ↔
      g.consensus ≠ .istanbul ∧ g.nonce.toNat < 2 ^ 64) ∧
    ((∃ b t, g.document .besu = .ok b ∧ g.document .geth = .ok t) ↔
      ∀ i, g.engine = .istanbul i → i.validators ≠ []) ∧
    (∀ b t, g.document .besu = .ok b → g.document .geth = .ok t →
      SameButEngine g.engine.key b t) := by
  refine ⟨fun c hc => ?_, Chainspec.exists_document_iff, ?_, fun b t => sameButEngine_of_documents⟩
  · have hdoc : ∀ client, Chainspec.document client g = .ok c := by
      intro client
      rcases hc with hc | hc
      · exact Chainspec.document_eq_ok_iff.mpr (Chainspec.document_eq_ok_iff.mp hc)
      · exact Chainspec.document_eq_ok_iff.mpr (Chainspec.document_eq_ok_iff.mp hc)
    obtain ⟨engine, extra, nonce, he, -⟩ := Chainspec.document_eq_ok_iff.mp (hdoc .openEthereum)
    have hs := sealOf_of_engineAndExtra? he
    have hb := Flat.document_eq_ok_iff (d := .besu).mpr ⟨_, hs, rfl⟩
    have ht := Flat.document_eq_ok_iff (d := .geth).mpr ⟨_, hs, rfl⟩
    exact ⟨hdoc _, hdoc _, _, _, hb, ht, sameChain_of_documents (hdoc .openEthereum) hb,
      sameChain_of_documents (hdoc .openEthereum) ht,
      sameEngine_of_documents (hdoc .openEthereum) hb ht⟩
  · rw [← Flat.exists_sealOf_iff]
    constructor
    · rintro ⟨b, t, hb, -⟩
      obtain ⟨s, hs, -⟩ := Flat.document_eq_ok_iff.mp hb
      exact ⟨s, hs⟩
    · rintro ⟨s, hs⟩
      exact ⟨_, _, Flat.document_eq_ok_iff.mpr ⟨s, hs, rfl⟩,
        Flat.document_eq_ok_iff.mpr ⟨s, hs, rfl⟩⟩

theorem one_chain_of_clique_with_dao :
    let g : Genesis :=
      { Genesis.new 1337 1337 (.clique { signers := [.zero 20] }) with
        forks := { dao := some 5, london := 7 } }
    ∃ c b t, g.document .openEthereum = .ok c ∧ g.document .nethermind = .ok c ∧
      g.document .besu = .ok b ∧ g.document .geth = .ok t ∧
      SameChain c b ∧ SameChain c t ∧ SameEngine c b t g.engine ∧ SameButEngine "clique" b t := by
  intro g
  obtain ⟨hnested, hexists, -, hflat⟩ := clients_are_told_one_chain g
  have hnonce : g.nonce.toNat < 2 ^ 64 := by
    rw [show g.nonce = .ofNat 0 from rfl, HexText.toNat_ofNat]
    decide
  obtain ⟨c, hc⟩ := hexists.mpr ⟨by decide, hnonce⟩
  obtain ⟨ho, hn, b, t, hb, ht, hcb, hct, hengine⟩ := hnested c (.inl hc)
  exact ⟨c, b, t, ho, hn, hb, ht, hcb, hct, hengine, hflat b t hb ht⟩

end Provision.Genesis
