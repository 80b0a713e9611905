/-
Provision.Network — what all nodes of a network share.

A network is private when it has a genesis; otherwise it is the public
network of that name. `validate` says whether a description is sound.
-/
import Provision.Genesis

namespace Provision

/-- What all nodes of a network share. -/
structure Network where
  /-- The name of a public network. -/
  publicName : String := "mainnet"
  /-- The consensus a private network is said to run. -/
  consensus : Option Consensus := none
  /-- The first block of a private network. -/
  genesis : Option Genesis := none
deriving DecidableEq

/-- Why the description of a network is not sound. -/
inductive NetworkError where
  /-- The engine runs another consensus than the one that is declared. -/
  | consensusMismatch (declared configured : Consensus)
  /-- Nobody may seal the first blocks. -/
  | noSealers (consensus : Consensus)
  /-- There are forks that are scheduled before their predecessors. -/
  | forkOrder (violations : List ForkSchedule.Violation)
deriving DecidableEq

/-- What a message says about the error. -/
def NetworkError.message : NetworkError → String
  | .consensusMismatch declared configured =>
    "network declares " ++ declared.name ++ " consensus but genesis configures " ++
      configured.name
  | .noSealers consensus => consensus.name ++ " consensus needs at least one signer"
  | .forkOrder violations => ForkSchedule.violationsMessage violations

namespace Network

/-- The public network of a name. -/
def joined (name : String) : Network := { publicName := name }

/-- The private network of a genesis; it declares the consensus of the engine. -/
def founded (genesis : Genesis) : Network where
  consensus := some genesis.consensus
  genesis := some genesis

/-- Whether the network has a genesis of its own. -/
def isPrivate (n : Network) : Bool := n.genesis.isSome

/-- Whether this is the main public network. -/
def isMainnet (n : Network) : Bool := !n.isPrivate && n.publicName = "mainnet"

/-- Goes on when the description is sound. Of several faults the first in
the order of `NetworkError` is reported. -/
def validate (n : Network) : Except NetworkError Unit :=
  match n.genesis with
  | none => .ok ()
  | some g =>
    match n.consensus.filter fun declared => declared ≠ g.consensus with
    | some declared => .error (.consensusMismatch declared g.consensus)
    | none =>
      if g.engine.sealers? = some [] then .error (.noSealers g.consensus)
      else match g.forks.violations with
        | [] => .ok ()
        | v :: vs => .error (.forkOrder (v :: vs))

end Network

end Provision
