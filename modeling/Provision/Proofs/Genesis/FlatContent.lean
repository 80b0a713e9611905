/-
Provision.Proofs.Genesis.FlatContent — what the genesis document of Besu
tells, and what it does not.

Every term that the document is made of can be read off it again: the
blocks of the forks from the configuration, the parameters of the engine
from its section, the sealers from the extra data, the entry of an address
from the allocation. The identity of the network is not in it, nor is the
seal that an Istanbul network describes, which another one takes the place
of. So two documents are the same exactly when the two genesis blocks agree
on the rest (`SameBesuGenesis`, `besu_document_tells_exactly`).
-/
import Provision.Proofs.ExtraData.Clique
import Provision.Proofs.ExtraData.Istanbul
import Provision.Proofs.Fork
import Provision.Proofs.Genesis.Agreement
import Provision.Proofs.Genesis.Entries
import Provision.Proofs.Json.RoundTrip

namespace Provision.Genesis

open Json

/-! ## What counts -/

/-- Two genesis blocks agree on all that Besu is told. -/
structure SameBesuGenesis (a b : Genesis) : Prop where
  chainId : a.chainId = b.chainId
  coinbase : a.coinbase = b.coinbase
  timestamp : a.timestamp.text = b.timestamp.text
  gasLimit : a.gasLimit.text = b.gasLimit.text
  forks : a.forks = b.forks
  /-- The engines have the same parameters and name the same sealers in the
  same order. -/
  engine : a.engine = b.engine
  entries : ∀ address, a.flatEntry? address = b.flatEntry? address
  /-- An Istanbul network has a seal of its own. -/
  sealed : a.consensus ≠ .istanbul →
    a.difficulty.text = b.difficulty.text ∧ a.nonce.text = b.nonce.text ∧ a.mixHash = b.mixHash

/-! ## Engines -/

theorem get?_fixeddifficulty (c : Ethash) :
    (Flat.engineMember .besu (.ethash c)).2.get? "fixeddifficulty" =
      c.fixedDifficulty.map .nat := by
  obtain ⟨fixed⟩ := c
  cases fixed <;> rfl

/-- The section of an engine tells its parameters, but for the sealers. -/
theorem engine_of_section {e f : Engine} (hkey : e.key = f.key) (hsealers : e.sealers? = f.sealers?)
    (h : (Flat.engineMember .besu e).2.canonical = (Flat.engineMember .besu f).2.canonical) :
    e = f := by
  have hmember := get?_of_canonical_eq (Flat.distinctKeys_engineMember .besu e)
    (Flat.distinctKeys_engineMember .besu f) h
  have hnumber : ∀ key {m n}, (Flat.engineMember .besu e).2.get? key = some (.nat m) →
      (Flat.engineMember .besu f).2.get? key = some (.nat n) → m = n := by
    intro key m n hm hn
    have hmn := hmember key
    rw [hm, hn] at hmn
    exact canonical_nat_inj (Option.some.inj hmn)
  cases e <;> cases f <;> simp [Engine.key] at hkey
  case ethash.ethash c c' =>
    have hfixed := hmember "fixeddifficulty"
    rw [get?_fixeddifficulty, get?_fixeddifficulty] at hfixed
    have hfixed := map_canonical_inj (fun _ _ => canonical_nat_inj) hfixed
    rw [Engine.ethash.injEq]
    cases c
    cases c'
    exact congrArg Ethash.mk hfixed
  case clique.clique c c' =>
    have hperiod : c.blockPeriod = c'.blockPeriod := hnumber "blockperiodseconds" rfl rfl
    have hepoch : c.epochLength = c'.epochLength := hnumber "epochlength" rfl rfl
    have hsigners : c.signers = c'.signers := Option.some.inj hsealers
    cases c
    cases c'
    rw [Engine.clique.injEq, Clique.mk.injEq]
    exact ⟨hperiod, hepoch, hsigners⟩
  case istanbul.istanbul c c' =>
    have hperiod : c.blockPeriod = c'.blockPeriod := hnumber "blockperiodseconds" rfl rfl
    have hepoch : c.epochLength = c'.epochLength := hnumber "epochlength" rfl rfl
    have htimeout : c.requestTimeout = c'.requestTimeout := hnumber "requesttimeoutseconds" rfl rfl
    have hqueue : c.messageQueueLimit = c'.messageQueueLimit := hnumber "messagequeuelimit" rfl rfl
    have hduplicate : c.duplicateMessageLimit = c'.duplicateMessageLimit :=
      hnumber "duplicatemessagelimit" rfl rfl
    have hfuture : c.futureMessagesLimit = c'.futureMessagesLimit :=
      hnumber "futuremessageslimit" rfl rfl
    have hdistance : c.futureMessagesMaxDistance = c'.futureMessagesMaxDistance :=
      hnumber "futuremessagesmaxdistance" rfl rfl
    have hvalidators : c.validators = c'.validators := Option.some.inj hsealers
    cases c
    cases c'
    rw [Engine.istanbul.injEq, Istanbul.mk.injEq]
    exact ⟨hperiod, hepoch, htimeout, hqueue, hduplicate, hfuture, hdistance, hvalidators⟩

theorem istanbulText_of_seal {g : Genesis} {s : Flat.Seal} {c : Istanbul}
    (he : g.engine = .istanbul c) (hs : Flat.sealOf g = .ok s) :
    ExtraData.istanbulText c.validators = .ok s.extraData := by
  unfold Flat.sealOf at hs
  rw [he] at hs
  cases hv : ExtraData.istanbulText c.validators with
  | error e => simp [hv, Except.map] at hs
  | ok extra =>
    simp only [hv, Except.map, Except.ok.injEq] at hs
    rw [← hs]

theorem cliqueText_of_seal {g : Genesis} {s : Flat.Seal} {c : Clique}
    (he : g.engine = .clique c) (hs : Flat.sealOf g = .ok s) :
    s.extraData = ExtraData.cliqueText c.signers := by
  unfold Flat.sealOf at hs
  rw [he] at hs
  cases hs
  rfl

/-- The extra data tells the sealers. -/
theorem sealers?_of_extraData {a b : Genesis} {s t : Flat.Seal} (hkey : a.engine.key = b.engine.key)
    (ha : Flat.sealOf a = .ok s) (hb : Flat.sealOf b = .ok t) (h : s.extraData = t.extraData) :
    a.engine.sealers? = b.engine.sealers? := by
  cases hea : a.engine <;> cases heb : b.engine <;> simp [Engine.key, hea, heb] at hkey
  case ethash.ethash => rfl
  case clique.clique c c' =>
    rw [cliqueText_of_seal hea ha, cliqueText_of_seal heb hb] at h
    exact congrArg some (ExtraData.cliqueText_injective h)
  case istanbul.istanbul c c' =>
    have hc := istanbulText_of_seal hea ha
    rw [h] at hc
    exact congrArg some (ExtraData.istanbulText_injective hc (istanbulText_of_seal heb hb))

/-- But for an Istanbul network the seal is the one of the description. -/
theorem seal_of_ne_istanbul {g : Genesis} {s : Flat.Seal} (hg : g.consensus ≠ .istanbul)
    (hs : Flat.sealOf g = .ok s) :
    s.difficulty = g.difficulty.text ∧ s.nonce = g.nonce.text ∧ s.mixHash = g.mixHash.text := by
  unfold Flat.sealOf at hs
  cases he : g.engine with
  | ethash c =>
    rw [he] at hs
    cases hs
    exact ⟨rfl, rfl, rfl⟩
  | clique c =>
    rw [he] at hs
    cases hs
    exact ⟨rfl, rfl, rfl⟩
  | istanbul c => exact absurd (by rw [consensus, he]; rfl) hg

/-! ## Read off the document -/

section

variable {a b : Genesis} {x : Json}

/-- One document stands for genesis blocks that agree on all that counts. -/
theorem sameBesuGenesis_of_document (ha : Flat.document .besu a = .ok x)
    (hb : Flat.document .besu b = .ok x) : SameBesuGenesis a b := by
  have hkey : a.engine.key = b.engine.key := by
    have hkeys := (engineKeys_of_document ha).symm.trans (engineKeys_of_document hb)
    exact List.singleton_inj.mp hkeys
  have hsection := (engine_of_document ha []).symm.trans (hkey ▸ engine_of_document hb [])
  obtain ⟨s, hs, hxa⟩ := Flat.at?_of_document ha
  obtain ⟨t, ht, hxb⟩ := Flat.at?_of_document hb
  have htext : ∀ path {u v}, (Json.obj (Flat.members .besu a s)).at? path = some (.str u) →
      (Json.obj (Flat.members .besu b t)).at? path = some (.str v) → u = v := by
    intro path u v hu hv
    have huv := (hxa path).symm.trans (hxb path)
    rw [hu, hv] at huv
    exact canonical_str_inj (Option.some.inj huv)
  have hextra : s.extraData = t.extraData := htext ["extraData"] rfl rfl
  have hengine : a.engine = b.engine :=
    engine_of_section hkey (sealers?_of_extraData hkey hs ht hextra) (Option.some.inj hsection)
  constructor
  case chainId =>
    have hchain := (hxa ["config", "chainId"]).symm.trans (hxb ["config", "chainId"])
    exact canonical_nat_inj (Option.some.inj hchain)
  case coinbase => exact FixedBytes.text_injective (htext ["coinbase"] rfl rfl)
  case timestamp => exact htext ["timestamp"] rfl rfl
  case gasLimit => exact htext ["gasLimit"] rfl rfl
  case forks =>
    refine ForkSchedule.ext_block? fun k => ?_
    have hblock := (hxa ["config", blockKey k]).symm.trans (hxb ["config", blockKey k])
    rw [at?_config, at?_config, get?_config_block, get?_config_block] at hblock
    exact map_canonical_inj (fun _ _ => canonical_nat_inj) hblock
  case engine => exact hengine
  case entries =>
    intro address
    have halloc := (hxa ["alloc"]).symm.trans (hxb ["alloc"])
    have hentry := entries_of_canonical (Option.some.inj halloc) address
    rwa [get?_allocation_entry, get?_allocation_entry] at hentry
  case sealed =>
    intro hne
    have hne' : b.consensus ≠ .istanbul := by rwa [consensus, ← hengine]
    obtain ⟨hda, hna, hma⟩ := seal_of_ne_istanbul hne hs
    obtain ⟨hdb, hnb, hmb⟩ := seal_of_ne_istanbul hne' ht
    have hmix : s.mixHash = t.mixHash := htext ["mixHash"] rfl rfl
    rw [← hda, ← hna, ← hdb, ← hnb]
    rw [hma, hmb] at hmix
    exact ⟨htext ["difficulty"] rfl rfl, htext ["nonce"] rfl rfl, FixedBytes.text_injective hmix⟩

/-! ## Nothing else is in the document -/

theorem sealOf_congr (h : SameBesuGenesis a b) : Flat.sealOf a = Flat.sealOf b := by
  have hseal := h.sealed
  unfold Flat.sealOf
  rw [← h.engine]
  cases he : a.engine with
  | ethash c =>
    obtain ⟨hd, hn, hm⟩ := hseal (by simp [consensus, he, Engine.consensus])
    simp only [hd, hn, hm]
  | clique c =>
    obtain ⟨hd, hn, hm⟩ := hseal (by simp [consensus, he, Engine.consensus])
    simp only [hd, hn, hm]
  | istanbul c => rfl

theorem document_congr (h : SameBesuGenesis a b) :
    Flat.document .besu a = Flat.document .besu b := by
  have hconfig : Flat.config .besu a = Flat.config .besu b := by
    rw [Flat.config, Flat.config, h.chainId, h.forks, h.engine]
  have halloc : encodeAllocation a.allocation = encodeAllocation b.allocation :=
    encodeAllocation_congr fun address => by
      rw [get?_allocation_entry, get?_allocation_entry, h.entries]
  have hmembers : Flat.members .besu a = Flat.members .besu b := by
    funext s
    rw [Flat.members, Flat.members, hconfig, h.timestamp, h.gasLimit, h.coinbase, halloc, h.forks]
  unfold Flat.document
  rw [sealOf_congr h, hmembers]

end

theorem sameBesuGenesis_of_networkId (g : Genesis) (networkId : UInt64) :
    SameBesuGenesis { g with networkId := networkId } g :=
  ⟨rfl, rfl, rfl, rfl, rfl, rfl, fun _ => rfl, fun _ => ⟨rfl, rfl, rfl⟩⟩

/-- An Istanbul network may be described with any seal. -/
theorem sameBesuGenesis_of_istanbul {g : Genesis} (hg : g.consensus = .istanbul)
    (networkId : UInt64) (difficulty nonce : HexText) (mixHash : Hash) :
    SameBesuGenesis
      { g with
        networkId := networkId
        difficulty := difficulty
        nonce := nonce
        mixHash := mixHash } g :=
  ⟨rfl, rfl, rfl, rfl, rfl, rfl, fun _ => rfl, fun hne => absurd hg hne⟩

/-! ## The content of the document -/

/-- **What Besu is told**: the documents of two genesis blocks are the same,
and so are their texts, exactly when the two agree on all that counts. The
identity of the network never does, nor does the seal of an Istanbul
network. -/
theorem besu_document_tells_exactly {a b : Genesis} {x y : Json} (ha : a.document .besu = .ok x)
    (hb : b.document .besu = .ok y) :
    (x = y ↔ SameBesuGenesis a b) ∧
    (a.documentText .besu = b.documentText .besu ↔ SameBesuGenesis a b) ∧
    (∀ networkId, { a with networkId := networkId }.document .besu = .ok x) ∧
    (a.consensus = .istanbul → ∀ networkId difficulty nonce mixHash,
      { a with
        networkId := networkId
        difficulty := difficulty
        nonce := nonce
        mixHash := mixHash }.document .besu = .ok x) := by
  have hsame : x = y ↔ SameBesuGenesis a b := by
    constructor
    · rintro rfl
      exact sameBesuGenesis_of_document ha hb
    · intro h
      rw [document, document_congr h] at ha
      exact Except.ok.inj (ha.symm.trans hb)
  have htext : a.documentText .besu = b.documentText .besu ↔ x = y := by
    rw [documentText, documentText, ha, hb]
    constructor
    · intro h
      exact pretty_injective (Except.ok.inj h)
    · rintro rfl
      rfl
  refine ⟨hsame, htext.trans hsame, fun networkId => ?_, fun hg networkId difficulty nonce mix => ?_⟩
  · exact (document_congr (sameBesuGenesis_of_networkId a networkId)).trans ha
  · exact (document_congr (sameBesuGenesis_of_istanbul hg networkId difficulty nonce mix)).trans ha

/-- An Istanbul network of two validators. -/
def pairOfValidators (networkId : UInt64) (nonce : HexText) (v w : UInt8) : Genesis :=
  { Genesis.new 1337 networkId (.istanbul { validators := [.ofLastByte v, .ofLastByte w] }) with
    nonce := nonce }

theorem besu_is_told_the_order_of_validators :
    ∃ x y z, (pairOfValidators 1 (.ofNat 0) 1 2).document .besu = .ok x ∧
      (pairOfValidators 7 (.ofNat 9) 1 2).document .besu = .ok y ∧
      (pairOfValidators 1 (.ofNat 0) 2 1).document .besu = .ok z ∧ x = y ∧ x ≠ z := by
  have hexists : ∀ networkId nonce v w,
      ∃ x, (pairOfValidators networkId nonce v w).document .besu = .ok x := by
    intro networkId nonce v w
    obtain ⟨s, hs⟩ := Flat.exists_sealOf_iff.mpr fun i
      (hi : (pairOfValidators networkId nonce v w).engine = .istanbul i) => by cases hi; nofun
    exact ⟨_, Flat.document_eq_ok_iff.mpr ⟨s, hs, rfl⟩⟩
  obtain ⟨x, hx⟩ := hexists 1 (.ofNat 0) 1 2
  obtain ⟨y, hy⟩ := hexists 7 (.ofNat 9) 1 2
  obtain ⟨z, hz⟩ := hexists 1 (.ofNat 0) 2 1
  refine ⟨x, y, z, hx, hy, hz, ?_, fun hxz => ?_⟩
  · refine (besu_document_tells_exactly hx hy).1.mpr
      ⟨rfl, rfl, rfl, rfl, rfl, rfl, fun _ => rfl, fun hne => ?_⟩
    exact absurd rfl hne
  · have hengine := ((besu_document_tells_exactly hx hz).1.mp hxz).engine
    exact absurd hengine (by decide)

end Provision.Genesis
