/-
Provision.Engine — consensus engines and their genesis parameters.
-/
import Provision.FixedBytes

namespace Provision

/-- The consensus a network runs. -/
inductive Consensus where
  | proofOfWork
  | proofOfAuthority
  | istanbul
deriving DecidableEq, Repr

/-- The name of a consensus. -/
def Consensus.name : Consensus → String
  | .proofOfWork => "pow"
  | .proofOfAuthority => "poa"
  | .istanbul => "ibft2"

/-- The consensuses. -/
def Consensus.all : List Consensus := [.proofOfWork, .proofOfAuthority, .istanbul]

/-- Proof of work. -/
structure Ethash where
  /-- A difficulty that never changes, for test networks. -/
  fixedDifficulty : Option UInt64 := none
deriving DecidableEq

/-- Clique proof of authority. -/
structure Clique where
  blockPeriod : UInt64 := 15
  epochLength : UInt64 := 30000
  /-- The first signers, in the order in which they are encoded. -/
  signers : List Address
deriving DecidableEq

/-- Istanbul byzantine fault tolerance, in its second edition. -/
structure Istanbul where
  blockPeriod : UInt64 := 5
  epochLength : UInt64 := 30000
  requestTimeout : UInt64 := 10
  messageQueueLimit : UInt64 := 1000
  duplicateMessageLimit : UInt64 := 100
  futureMessagesLimit : UInt64 := 1000
  futureMessagesMaxDistance : UInt64 := 10
  /-- The first validators, in the order in which they are encoded. -/
  validators : List Address
deriving DecidableEq

/-- A consensus engine with its parameters. -/
inductive Engine where
  | ethash (c : Ethash)
  | clique (c : Clique)
  | istanbul (c : Istanbul)
deriving DecidableEq

namespace Engine

/-- The consensus an engine runs. -/
def consensus : Engine → Consensus
  | .ethash _ => .proofOfWork
  | .clique _ => .proofOfAuthority
  | .istanbul _ => .istanbul

/-- The accounts that seal blocks, where the engine names them. -/
def sealers? : Engine → Option (List Address)
  | .ethash _ => none
  | .clique c => some c.signers
  | .istanbul c => some c.validators

end Engine

end Provision
