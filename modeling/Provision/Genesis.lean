/-
Provision.Genesis — what the first block of a private network holds.

The description is the same for every client. `Genesis.Terms` is the part
that does not depend on the engine.
-/
import Provision.Account
import Provision.Engine
import Provision.Fork

namespace Provision

/-- The terms of a genesis that every engine shares. -/
structure Genesis.Terms where
  accounts : List Account := []
  networkId : UInt64
  chainId : UInt64
  coinbase : Address := .zero 20
  difficulty : HexText := .ofNat 1
  mixHash : Hash := .zero 32
  nonce : HexText := .ofNat 0
  timestamp : HexText := .ofNat 0
  gasLimit : HexText := .ofNat 4700000
  forks : ForkSchedule := {}
deriving DecidableEq

/-- What the first block of a private network holds. -/
structure Genesis extends Genesis.Terms where
  engine : Engine
deriving DecidableEq

namespace Genesis

/-- The genesis of a new network of these identities. -/
def new (chainId networkId : UInt64) (engine : Engine) : Genesis where
  networkId := networkId
  chainId := chainId
  engine := engine

/-- The consensus of the network. -/
def consensus (g : Genesis) : Consensus :=
  g.engine.consensus

end Genesis

end Provision
