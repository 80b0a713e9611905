/-
Provision.Genesis.Chainspec — the nested genesis document of Nethermind
and OpenEthereum.

Every rule has a transition of its own, given by the block of the fork
that brings it, and the builtin contracts are spelled out with their
prices. There are no words for Istanbul networks. What the proof of work
pays and how its difficulty is delayed stand under its engine, so a
Clique network does not tell of them.
-/
import Provision.Decimal.Basic
import Provision.ExtraData.Clique
import Provision.Genesis.Flat

namespace Provision.Genesis.Chainspec

/-! ## Proof of work -/

/-- A block as a transition gives it. -/
def blockText (block : UInt64) : Json :=
  .str (Hex.numberText block.toNat)

/-- The reward of a block before Byzantium: 5 ether. -/
def frontierReward : String := "0x4563918244F40000"

/-- The reward of a block from Byzantium on: 3 ether. -/
def byzantiumReward : String := "0x29A2241AF62C0000"

/-- The reward of a block from Constantinople on: 2 ether. -/
def constantinopleReward : String := "0x1BC16D674EC80000"

/-- The rewards by the block from which they are paid. Of two rewards from
one block on, that of the later fork is paid. -/
def rewards (s : ForkSchedule) : OrderedMap UInt64 String :=
  .ofList
    [(0, frontierReward), (s.byzantium, byzantiumReward),
     (s.constantinople, constantinopleReward)]

/-- The forks that delay the growth of the difficulty, with their blocks
and the number of blocks by which they delay it. -/
def delays (s : ForkSchedule) : List (UInt64 × Nat) :=
  [(s.byzantium, 3000000),
   (s.constantinople, 2000000),
   (s.muirGlacier, 4000000),
   (s.london, 700000),
   (s.arrowGlacier, 1000000)]

/-- Adds a delay to those that begin at its block. -/
def addDelay (m : OrderedMap UInt64 Nat) (d : UInt64 × Nat) : OrderedMap UInt64 Nat :=
  m.insert d.1 ((m.get? d.1).getD 0 + d.2)

/-- The delays by block; those that begin at one block add up. -/
def bombDelays (s : ForkSchedule) : OrderedMap UInt64 Nat :=
  (delays s).foldl addDelay .empty

/-- An object with a member for each block. -/
def byBlock {ν : Type} (encode : ν → String) (m : OrderedMap UInt64 ν) : Json :=
  .obj (m.entries.map fun e => (Hex.numberText e.1.toNat, .str (encode e.2)))

/-- The parameters of the proof of work. -/
def ethashParams (s : ForkSchedule) (c : Ethash) : Json :=
  .obj
    ([("minimumDifficulty", .str "0x20000"),
      ("difficultyBoundDivisor", .str "0x800"),
      ("durationLimit", .str "0xd"),
      ("blockReward", byBlock id (rewards s)),
      ("homesteadTransition", blockText s.homestead),
      ("eip100bTransition", blockText s.byzantium),
      ("difficultyBombDelays", byBlock Hex.numberText (bombDelays s))] ++
    Json.member? "fixedDifficulty" (c.fixedDifficulty.map blockText))

/-! ## Parameters of the chain -/

/-- The rules of a chain and the blocks from which they hold. -/
def transitions (s : ForkSchedule) : List (String × UInt64) :=
  [("eip150Transition", s.eip150),
   ("eip155Transition", s.eip155),
   ("eip160Transition", s.eip158),
   ("eip161abcTransition", s.eip158),
   ("eip161dTransition", s.eip158),
   ("maxCodeSizeTransition", s.eip158),
   ("eip140Transition", s.byzantium),
   ("eip211Transition", s.byzantium),
   ("eip214Transition", s.byzantium),
   ("eip658Transition", s.byzantium),
   ("eip145Transition", s.constantinople),
   ("eip1014Transition", s.constantinople),
   ("eip1052Transition", s.constantinople),
   ("eip1283Transition", s.constantinople),
   ("eip1283DisableTransition", s.petersburg),
   ("eip1283ReenableTransition", s.istanbul),
   ("eip1344Transition", s.istanbul),
   ("eip1706Transition", s.istanbul),
   ("eip1884Transition", s.istanbul),
   ("eip2028Transition", s.istanbul),
   ("eip2929Transition", s.berlin),
   ("eip2930Transition", s.berlin),
   ("eip1559Transition", s.london),
   ("eip3198Transition", s.london),
   ("eip3529Transition", s.london),
   ("eip3541Transition", s.london)]

/-- The parameters of the chain. -/
def params (g : Genesis) : Json :=
  .obj
    ([("accountStartNonce", .str "0x0"),
      ("chainID", blockText g.chainId),
      ("networkID", blockText g.networkId),
      ("gasLimitBoundDivisor", .str "0x400"),
      ("maximumExtraDataSize", .str "0xffff"),
      ("minGasLimit", .str "0x1388"),
      ("maxCodeSize", .str "0x6000"),
      ("eip1559BaseFeeMaxChangeDenominator", .str "0x8"),
      ("eip1559ElasticityMultiplier", .str "0x2"),
      ("eip1559BaseFeeInitialValue", .str londonBaseFee)] ++
    (transitions g.forks).map (fun t => (t.1, blockText t.2)) ++
    Json.member? "daoHardforkTransition" (g.forks.dao.map blockText))

/-! ## The document -/

/-- The engine and the extra data of the first block, if the format has
words for the engine. -/
def engineAndExtra? (g : Genesis) : Option (Json × String) :=
  match g.engine with
  | .ethash c => some (.obj [("Ethash", .obj [("params", ethashParams g.forks c)])], "0x")
  | .clique c =>
    some
      (.obj [("clique", .obj [("params",
        .obj [("period", .nat c.blockPeriod), ("epoch", .nat c.epochLength)])])],
       ExtraData.cliqueText c.signers)
  | .istanbul _ => none

/-- The number of digits of a nonce. -/
def nonceWidth : Nat := 16

/-- The terms of the first block. -/
def block (g : Genesis) (nonce extra : String) : Json :=
  .obj
    ([("seal", .obj [("ethereum",
        .obj [("nonce", .str nonce), ("mixHash", .str g.mixHash.text)])]),
      ("difficulty", .str g.difficulty.text),
      ("author", .str g.coinbase.text),
      ("timestamp", .str g.timestamp.text),
      ("extraData", .str extra),
      ("gasLimit", .str g.gasLimit.text)] ++
    (if g.forks.london = 0 then [("baseFeePerGas", .str londonBaseFee)] else []))

/-- The members of the document, but for the order of their keys. -/
def members (g : Genesis) (engine : Json) (nonce extra : String) : List (String × Json) :=
  [("name", .str ("chain-" ++ Decimal.text g.chainId.toNat)),
   ("engine", engine),
   ("params", params g),
   ("genesis", block g nonce extra),
   ("accounts", encodeAllocation g.builtinAllocation)]

/-- The nested document of a genesis. The client is named only when the
format has no words for the consensus. -/
def document (client : Client) (g : Genesis) : Except GenesisError Json :=
  match engineAndExtra? g with
  | none => .error (.unsupportedConsensus client g.consensus)
  | some (engine, extra) =>
    match g.nonce.fixedWidth nonceWidth with
    | .error e => .error (.encoding e)
    | .ok nonce => .ok (Json.canonical (.obj (members g engine nonce extra)))

end Provision.Genesis.Chainspec
