/-
Provision.Genesis.Flat — the flat genesis document of Besu and Geth.

All terms stand side by side; the forks and the engine are under `config`,
where the two clients differ in the names of the engine's parameters and
in how many of them they take. An Istanbul network fixes the difficulty,
the nonce and the mix hash of its first block whatever the description
says.
-/
import Provision.ExtraData.Clique
import Provision.ExtraData.Istanbul
import Provision.Genesis.Allocation
import Provision.Genesis.Error
import Provision.Json.Canonical

namespace Provision.Genesis

/-- The base fee of the first block under the London fork: one gwei. -/
def londonBaseFee : String := "0x3B9ACA00"

namespace Flat

/-- The clients that read the flat document. -/
inductive Dialect where
  | besu
  | geth
deriving DecidableEq, Repr

/-! ## The configuration -/

/-- The blocks of the forks. -/
def forkMembers (s : ForkSchedule) : List (String × Json) :=
  [("homesteadBlock", .nat s.homestead)] ++
  (match s.dao with
   | some block => [("daoForkBlock", .nat block), ("daoForkSupport", .bool true)]
   | none => []) ++
  [("eip150Block", .nat s.eip150),
   ("eip155Block", .nat s.eip155),
   ("eip158Block", .nat s.eip158),
   ("byzantiumBlock", .nat s.byzantium),
   ("constantinopleBlock", .nat s.constantinople),
   ("petersburgBlock", .nat s.petersburg),
   ("istanbulBlock", .nat s.istanbul),
   ("muirGlacierBlock", .nat s.muirGlacier),
   ("berlinBlock", .nat s.berlin),
   ("londonBlock", .nat s.london),
   ("arrowGlacierBlock", .nat s.arrowGlacier)]

/-- The engine under its key. Geth has no word for a fixed difficulty, nor
for the limits of Istanbul's queues. -/
def engineMember (d : Dialect) : Engine → String × Json
  | .ethash c =>
    ("ethash", match d with
      | .besu => .obj (Json.member? "fixeddifficulty" (c.fixedDifficulty.map .nat))
      | .geth => .obj [])
  | .clique c =>
    ("clique", match d with
      | .besu =>
        .obj [("blockperiodseconds", .nat c.blockPeriod), ("epochlength", .nat c.epochLength)]
      | .geth => .obj [("period", .nat c.blockPeriod), ("epoch", .nat c.epochLength)])
  | .istanbul c =>
    ("ibft2", .obj
      ([("blockperiodseconds", .nat c.blockPeriod),
        ("epochlength", .nat c.epochLength),
        ("requesttimeoutseconds", .nat c.requestTimeout)] ++
      match d with
      | .besu =>
        [("messagequeuelimit", .nat c.messageQueueLimit),
         ("duplicatemessagelimit", .nat c.duplicateMessageLimit),
         ("futuremessageslimit", .nat c.futureMessagesLimit),
         ("futuremessagesmaxdistance", .nat c.futureMessagesMaxDistance)]
      | .geth => []))

/-- The chain, its forks and its engine. -/
def config (d : Dialect) (g : Genesis) : Json :=
  .obj (("chainId", .nat g.chainId) :: forkMembers g.forks ++ [engineMember d g.engine])

/-! ## The document -/

/-- What the engine decides about the first block. -/
structure Seal where
  mixHash : String
  nonce : String
  difficulty : String
  extraData : String
deriving DecidableEq, Repr

/-- The mix hash of every Istanbul network: the last 32 bytes of
"practical byzantine fault tolerance". -/
def istanbulMixHash : String :=
  "0x63746963616c2062797a616e74696e65206661756c7420746f6c6572616e6365"

/-- The seal of the first block. -/
def sealOf (g : Genesis) : Except EncodingError Seal :=
  match g.engine with
  | .ethash _ => .ok ⟨g.mixHash.text, g.nonce.text, g.difficulty.text, "0x"⟩
  | .clique c =>
    .ok ⟨g.mixHash.text, g.nonce.text, g.difficulty.text, ExtraData.cliqueText c.signers⟩
  | .istanbul c =>
    (ExtraData.istanbulText c.validators).map fun extra => ⟨istanbulMixHash, "0x0", "0x1", extra⟩

/-- The members of the document, but for the order of their keys. -/
def members (d : Dialect) (g : Genesis) (s : Seal) : List (String × Json) :=
  [("config", config d g),
   ("nonce", .str s.nonce),
   ("timestamp", .str g.timestamp.text),
   ("gasLimit", .str g.gasLimit.text),
   ("difficulty", .str s.difficulty),
   ("coinbase", .str g.coinbase.text),
   ("mixHash", .str s.mixHash),
   ("extraData", .str s.extraData),
   ("alloc", encodeAllocation g.allocation)] ++
  (if g.forks.london = 0 then [("baseFeePerGas", .str londonBaseFee)] else [])

/-- The flat document of a genesis. -/
def document (d : Dialect) (g : Genesis) : Except GenesisError Json :=
  match sealOf g with
  | .ok s => .ok (Json.canonical (.obj (members d g s)))
  | .error e => .error (.encoding e)

end Flat

end Provision.Genesis
