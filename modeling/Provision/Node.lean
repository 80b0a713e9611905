/-
Provision.Node — what one node of a network is asked to be.

A node description has a value for every setting; `Node.new` has the
values of a node of which nothing is known but its client.
-/
import Provision.Client
import Provision.FixedBytes
import Provision.Peer.Enode

namespace Provision

/-! ## Choices -/

/-- How a node catches up with its network. -/
inductive SyncMode where
  | fast
  | full
  | light
  | snap
deriving DecidableEq, Repr

/-- The ways of catching up. -/
def SyncMode.all : List SyncMode := [.fast, .full, .light, .snap]

/-- The name of a way of catching up. -/
def SyncMode.name : SyncMode → String
  | .fast => "fast"
  | .full => "full"
  | .light => "light"
  | .snap => "snap"

/-- How much a node logs, from nothing to everything. -/
inductive Verbosity where
  | off
  | fatal
  | error
  | warn
  | info
  | debug
  | trace
  | all
deriving DecidableEq, Repr

/-- The verbosities. -/
def Verbosity.levels : List Verbosity :=
  [.off, .fatal, .error, .warn, .info, .debug, .trace, .all]

/-- The name of a verbosity. -/
def Verbosity.name : Verbosity → String
  | .off => "off"
  | .fatal => "fatal"
  | .error => "error"
  | .warn => "warn"
  | .info => "info"
  | .debug => "debug"
  | .trace => "trace"
  | .all => "all"

/-- A family of calls that a node may offer. -/
inductive Api where
  | admin
  | clique
  | debug
  | eea
  | eth
  | ibft
  | miner
  | net
  | perm
  | plugins
  | priv
  | txpool
  | web3
deriving DecidableEq, Repr

/-- The families of calls. -/
def Api.all : List Api :=
  [.admin, .clique, .debug, .eea, .eth, .ibft, .miner, .net, .perm, .plugins, .priv, .txpool,
   .web3]

/-- The name of a family of calls. -/
def Api.name : Api → String
  | .admin => "admin"
  | .clique => "clique"
  | .debug => "debug"
  | .eea => "eea"
  | .eth => "eth"
  | .ibft => "ibft"
  | .miner => "miner"
  | .net => "net"
  | .perm => "perm"
  | .plugins => "plugins"
  | .priv => "priv"
  | .txpool => "txpool"
  | .web3 => "web3"

/-! ## Nodes -/

/-- An account whose key is given to a node, which unlocks it when it starts. -/
structure ImportedAccount where
  /-- The secret that holds the private key. -/
  privateKeySecretName : String
  /-- The secret that holds the password. -/
  passwordSecretName : String
deriving DecidableEq

/-- What one node is asked to be. -/
structure Node where
  client : Client := .besu
  /-- The container image, if one is asked for. -/
  image : Option String := none
  syncMode : SyncMode := .fast
  logging : Verbosity := .info
  p2pPort : UInt16 := 30303
  /-- The secret that holds the node's own key. -/
  nodePrivateKeySecretName : Option String := none
  bootnodes : List Enode := []
  staticNodes : List Enode := []
  rpc : Bool := false
  rpcPort : UInt16 := 8545
  rpcApi : List Api := [.web3, .eth, .net]
  ws : Bool := false
  wsPort : UInt16 := 8546
  wsApi : List Api := [.web3, .eth, .net]
  graphql : Bool := false
  graphqlPort : UInt16 := 8547
  engine : Bool := false
  enginePort : UInt16 := 8551
  /-- The secret that consensus clients present. -/
  jwtSecretName : Option String := none
  /-- The hosts that calls may be addressed to. -/
  hosts : List String := ["*"]
  /-- The domains that pages with calls may come from. -/
  corsDomains : List String := ["*"]
  importedAccount : Option ImportedAccount := none
  miner : Bool := false
  /-- The account that blocks are signed with and rewards go to. -/
  coinbase : Option Address := none
deriving DecidableEq

namespace Node

/-- A node of a client, with every other setting as usual. -/
def new (client : Client) : Node := { client := client }

/-- The image a node runs: the one that is asked for, else that of its client. -/
def runningImage (n : Node) : String :=
  n.image.getD n.client.defaultImage

end Node

end Provision
