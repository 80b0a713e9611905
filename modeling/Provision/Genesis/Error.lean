/-
Provision.Genesis.Error — why a genesis has no document.
-/
import Provision.Client
import Provision.EncodingError
import Provision.Engine

namespace Provision

/-- Why a genesis has no document. -/
inductive GenesisError where
  /-- A part of it has no encoding. -/
  | encoding (e : EncodingError)
  /-- The client's format has no words for the consensus. -/
  | unsupportedConsensus (client : Client) (consensus : Consensus)
deriving DecidableEq, Repr

/-- What a message says about the error. -/
def GenesisError.message : GenesisError → String
  | .encoding e => e.message
  | .unsupportedConsensus client consensus =>
    client.name ++ " genesis cannot express " ++ consensus.name ++ " consensus"

end Provision
