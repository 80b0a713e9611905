/-
Provision.Arguments — the command line of each client.
-/
import Provision.Arguments.Besu
import Provision.Arguments.Geth
import Provision.Arguments.Nethermind
import Provision.Arguments.OpenEthereum

namespace Provision

/-- The rules of a client's command line. -/
def Client.table : Client → List Rule
  | .besu => Besu.table
  | .geth => Geth.table
  | .nethermind => Nethermind.table
  | .openEthereum => OpenEthereum.table

/-- The arguments with which a client starts a node on a network. -/
def Client.arguments (c : Client) (node : Node) (network : Network) : List String :=
  Rule.render c.table ⟨node, network, c.homeDirectory⟩

/-- The arguments with which a node is started. -/
def Node.arguments (n : Node) (network : Network) : List String :=
  n.client.arguments n network

end Provision
