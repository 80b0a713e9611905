/-
Provision.Arguments.Besu — the command line of Besu.

Besu writes the families of calls and the verbosity in capitals. It has
no light synchronisation, so it is told of none then, and it takes one
list of hosts for all kinds of calls but those of consensus clients.
-/
import Provision.Arguments.Rule

namespace Provision.Besu

open Situation

/-- The way of catching up. -/
def syncMode (s : Situation) : String :=
  match s.node.syncMode with
  | .full => "FULL"
  | .snap => "X_SNAP"
  | .fast | .light => "FAST"

/-- Besu offers the way of catching up. -/
def offersSyncMode (s : Situation) : Bool := s.node.syncMode ≠ .light

/-- The verbosity. -/
def logging (s : Situation) : String := s.node.logging.name.toUpper

/-- The families of calls that are offered. -/
def rpcApi (s : Situation) : String := s.rpcApi.toUpper

/-- The families of calls that are offered over web sockets. -/
def wsApi (s : Situation) : String := s.wsApi.toUpper

/-- The node offers calls of some kind to others than consensus clients. -/
def offersCalls (s : Situation) : Bool := s.node.rpc || s.node.ws || s.node.graphql

/-- The command line of Besu. -/
def table : List Rule :=
  [.always (.value "--data-path" dataDirectory),
   .given isPublic (.value "--network" publicName),
   .given isPrivate (.value "--genesis-file" genesisFile),
   .given isPrivate (.value "--network-id" networkId),
   .given isPrivate (.fixed "--discovery-enabled" "false"),
   .given hasNodeKey (.value "--node-private-key-file" nodeKeyFile),
   .always (.value "--p2p-port" p2pPort),
   .given offersSyncMode (.value "--sync-mode" syncMode),
   .always (.value "--logging" logging),
   .given hasBootnodes (.value "--bootnodes" bootnodes),
   .given hasStaticNodes (.value "--static-nodes-file" staticNodesFile),
   .given mines (.switch "--miner-enabled"),
   .given signsBlocks (.value "--miner-coinbase" coinbase),
   .given offersRpc (.switch "--rpc-http-enabled"),
   .given offersRpc (.fixed "--rpc-http-host" anyInterface),
   .given offersRpc (.value "--rpc-http-port" rpcPort),
   .given offersRpc (.value "--rpc-http-api" rpcApi),
   .given offersRpc (.value "--rpc-http-cors-origins" corsDomains),
   .given offersWs (.switch "--rpc-ws-enabled"),
   .given offersWs (.fixed "--rpc-ws-host" anyInterface),
   .given offersWs (.value "--rpc-ws-port" wsPort),
   .given offersWs (.value "--rpc-ws-api" wsApi),
   .given offersGraphql (.switch "--graphql-http-enabled"),
   .given offersGraphql (.fixed "--graphql-http-host" anyInterface),
   .given offersGraphql (.value "--graphql-http-port" graphqlPort),
   .given offersGraphql (.value "--graphql-http-cors-origins" corsDomains),
   .given offersEngine (.switch "--engine-rpc-enabled"),
   .given offersEngine (.value "--engine-rpc-port" enginePort),
   .given offersEngine (.value "--engine-host-allowlist" hosts),
   .given checksJwt (.value "--engine-jwt-secret" jwtSecretFile),
   .given offersCalls (.value "--host-allowlist" hosts)]

end Provision.Besu
