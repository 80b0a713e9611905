/-
Provision.Arguments.Rule — rules that make up a command line.

A client's command line is a table of rules. A rule contributes a switch,
a flag with a value, or a single token, and does so only in the situations
it applies to. The arguments stand in the order of the table.
-/
import Provision.Checksum
import Provision.Network
import Provision.Node

namespace Provision

/-- What the arguments of a node depend on. -/
structure Situation where
  node : Node
  network : Network
  /-- The home directory of the client inside its container. -/
  home : String

namespace Situation

/-! ## Places -/

/-- The directory of the chain's data. -/
def dataDirectory (s : Situation) : String :=
  s.home ++ "/kotal-data"

/-- A file among the configuration. -/
def configFile (name : String) (s : Situation) : String :=
  s.home ++ "/kotal-config/" ++ name

/-- A file among the secrets. -/
def secretFile (name : String) (s : Situation) : String :=
  s.home ++ "/.kotal-secrets/" ++ name

/-- The genesis document. -/
def genesisFile : Situation → String := configFile "genesis.json"

/-- The list of peers to stay connected to. -/
def staticNodesFile : Situation → String := configFile "static-nodes.json"

/-- The key of the node. -/
def nodeKeyFile : Situation → String := secretFile "nodekey"

/-- The secret that consensus clients present. -/
def jwtSecretFile : Situation → String := secretFile "jwt.secret"

/-- The password of the imported account. -/
def passwordFile : Situation → String := secretFile "account.password"

/-! ## Conditions -/

/-- The network is private. -/
def isPrivate (s : Situation) : Bool := s.network.isPrivate

/-- The network is public. -/
def isPublic (s : Situation) : Bool := !s.network.isPrivate

/-- The node has a key of its own. -/
def hasNodeKey (s : Situation) : Bool := s.node.nodePrivateKeySecretName.isSome

/-- There are nodes to find peers from. -/
def hasBootnodes (s : Situation) : Bool := !s.node.bootnodes.isEmpty

/-- There are peers to stay connected to. -/
def hasStaticNodes (s : Situation) : Bool := !s.node.staticNodes.isEmpty

/-- The node offers calls. -/
def offersRpc (s : Situation) : Bool := s.node.rpc

/-- The node offers calls over web sockets. -/
def offersWs (s : Situation) : Bool := s.node.ws

/-- The node offers GraphQL queries. -/
def offersGraphql (s : Situation) : Bool := s.node.graphql

/-- The node offers calls to a consensus client. -/
def offersEngine (s : Situation) : Bool := s.node.engine

/-- The node offers calls to a consensus client that knows a secret. -/
def checksJwt (s : Situation) : Bool := s.node.engine && s.node.jwtSecretName.isSome

/-- The node makes blocks. -/
def mines (s : Situation) : Bool := s.node.miner

/-- The node makes blocks and has an account to sign them with. -/
def signsBlocks (s : Situation) : Bool := s.node.miner && s.node.coinbase.isSome

/-- The node imports an account, which is unlocked by the address of the coinbase. -/
def unlocksAccount (s : Situation) : Bool :=
  s.node.importedAccount.isSome && s.node.coinbase.isSome

/-! ## Values -/

/-- The name of the public network. -/
def publicName (s : Situation) : String := s.network.publicName

/-- The identity of a private network. -/
def networkId (s : Situation) : String :=
  Decimal.text (s.network.genesis.elim 0 fun g => g.networkId.toNat)

/-- A port. -/
def portText (port : UInt16) : String := Decimal.text port.toNat

/-- The port for peers. -/
def p2pPort (s : Situation) : String := portText s.node.p2pPort

/-- The port for calls. -/
def rpcPort (s : Situation) : String := portText s.node.rpcPort

/-- The port for calls over web sockets. -/
def wsPort (s : Situation) : String := portText s.node.wsPort

/-- The port for GraphQL queries. -/
def graphqlPort (s : Situation) : String := portText s.node.graphqlPort

/-- The port for calls of a consensus client. -/
def enginePort (s : Situation) : String := portText s.node.enginePort

/-- The families of calls, separated by commas. -/
def apiText (apis : List Api) : String :=
  String.intercalate "," (apis.map Api.name)

/-- The families of calls that are offered. -/
def rpcApi (s : Situation) : String := apiText s.node.rpcApi

/-- The families of calls that are offered over web sockets. -/
def wsApi (s : Situation) : String := apiText s.node.wsApi

/-- The account of the node, in mixed case. -/
def coinbase (s : Situation) : String :=
  s.node.coinbase.elim "" Address.checksumText

/-- The nodes to find peers from. -/
def bootnodes (s : Situation) : String :=
  String.intercalate "," (s.node.bootnodes.map Enode.text)

/-- The hosts that calls may be addressed to. -/
def hosts (s : Situation) : String :=
  String.intercalate "," s.node.hosts

/-- The domains that pages with calls may come from. -/
def corsDomains (s : Situation) : String :=
  String.intercalate "," s.node.corsDomains

/-- The address of every interface. -/
def anyInterface : String := "0.0.0.0"

end Situation

/-! ## Rules -/

/-- What a rule contributes. -/
inductive Emission where
  /-- A flag that stands alone. -/
  | switch (flag : String)
  /-- A flag with a value that is always the same. -/
  | fixed (flag text : String)
  /-- A flag with a value that depends on the situation. -/
  | value (flag : String) (text : Situation → String)
  /-- A single token that depends on the situation. -/
  | token (text : Situation → String)

/-- The tokens that are contributed. -/
def Emission.tokens (s : Situation) : Emission → List String
  | .switch flag => [flag]
  | .fixed flag text => [flag, text]
  | .value flag text => [flag, text s]
  | .token text => [text s]

/-- A rule of a table. -/
structure Rule where
  applies : Situation → Bool
  emission : Emission

namespace Rule

/-- A rule that applies in every situation. -/
def always (e : Emission) : Rule := ⟨fun _ => true, e⟩

/-- A rule that applies in the situations of a condition. -/
def given (condition : Situation → Bool) (e : Emission) : Rule := ⟨condition, e⟩

/-- What a rule contributes in a situation. -/
def tokens (s : Situation) (r : Rule) : List String :=
  if r.applies s then r.emission.tokens s else []

/-- The arguments of a table, in its order. -/
def render (table : List Rule) (s : Situation) : List String :=
  table.flatMap (tokens s)

end Rule

end Provision
