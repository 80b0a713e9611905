/-
Provision.Genesis.Document — the genesis document of each client.
-/
import Provision.Genesis.Chainspec
import Provision.Json.Printer

namespace Provision.Genesis

/-- The genesis document in the format of a client. -/
def document (client : Client) (g : Genesis) : Except GenesisError Json :=
  match client with
  | .besu => Flat.document .besu g
  | .geth => Flat.document .geth g
  | .nethermind | .openEthereum => Chainspec.document client g

/-- The text of the genesis document, with a line for each part. -/
def documentText (client : Client) (g : Genesis) : Except GenesisError String :=
  (g.document client).map Json.pretty

end Provision.Genesis
