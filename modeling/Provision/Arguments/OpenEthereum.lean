/-
Provision.Arguments.OpenEthereum — the command line of OpenEthereum.

OpenEthereum offers calls unless told not to, spells "every" as `all`,
and takes no file with a key of the node. It answers no GraphQL queries
and no calls of consensus clients.
-/
import Provision.Arguments.Rule

namespace Provision.OpenEthereum

open Situation

/-- Every interface, host or domain. -/
def every : String := "all"

/-- A list in which `*` stands for every host or domain. -/
def listText (values : List String) : String :=
  String.intercalate "," (values.map fun v => if v = "*" then every else v)

/-- The hosts that calls may be addressed to. -/
def hosts (s : Situation) : String := listText s.node.hosts

/-- The domains that pages with calls may come from. -/
def corsDomains (s : Situation) : String := listText s.node.corsDomains

/-- The node builds its state from the first block on. -/
def syncsFully (s : Situation) : Bool := s.node.syncMode = .full

/-- The verbosity. -/
def logging (s : Situation) : String := s.node.logging.name

/-- The node offers no calls. -/
def hidesRpc (s : Situation) : Bool := !s.node.rpc

/-- The node offers no calls over web sockets. -/
def hidesWs (s : Situation) : Bool := !s.node.ws

/-- The list of peers to stay connected to. -/
def reservedPeersFile : Situation → String := configFile "static-nodes"

/-- The command line of OpenEthereum. -/
def table : List Rule :=
  [.always (.value "--base-path" dataDirectory),
   .given isPublic (.value "--chain" publicName),
   .given isPrivate (.value "--chain" genesisFile),
   .given isPrivate (.value "--network-id" networkId),
   .given isPrivate (.switch "--no-discovery"),
   .always (.value "--port" p2pPort),
   .given syncsFully (.switch "--no-warp"),
   .always (.value "--logging" logging),
   .given hasBootnodes (.value "--bootnodes" bootnodes),
   .given hasStaticNodes (.value "--reserved-peers" reservedPeersFile),
   .given unlocksAccount (.value "--unlock" coinbase),
   .given unlocksAccount (.value "--password" passwordFile),
   .given signsBlocks (.value "--engine-signer" coinbase),
   .given signsBlocks (.switch "--force-sealing"),
   .given hidesRpc (.switch "--no-jsonrpc"),
   .given offersRpc (.fixed "--jsonrpc-interface" every),
   .given offersRpc (.value "--jsonrpc-port" rpcPort),
   .given offersRpc (.value "--jsonrpc-apis" rpcApi),
   .given offersRpc (.value "--jsonrpc-hosts" hosts),
   .given offersRpc (.value "--jsonrpc-cors" corsDomains),
   .given hidesWs (.switch "--no-ws"),
   .given offersWs (.fixed "--ws-interface" every),
   .given offersWs (.value "--ws-port" wsPort),
   .given offersWs (.value "--ws-apis" wsApi),
   .given offersWs (.value "--ws-hosts" hosts),
   .given offersWs (.value "--ws-origins" corsDomains)]

end Provision.OpenEthereum
