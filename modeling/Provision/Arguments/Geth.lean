/-
Provision.Arguments.Geth — the command line of Geth.

Geth has a flag for every public network it knows, except for the main
one, which it joins unless told otherwise. It reads the peers to stay
connected to from its configuration.
-/
import Provision.Arguments.Rule

namespace Provision.Geth

open Situation

/-- The network is public and not the main one. -/
def joinsOther (s : Situation) : Bool := s.isPublic && !s.network.isMainnet

/-- The flag of a public network. -/
def networkFlag (s : Situation) : String := "--" ++ s.publicName

/-- The way of catching up. -/
def syncMode (s : Situation) : String := s.node.syncMode.name

/-- The verbosity, from 0 for nothing to 5 for everything. -/
def verbosity (s : Situation) : String :=
  match s.node.logging with
  | .off => "0"
  | .fatal | .error => "1"
  | .warn => "2"
  | .info => "3"
  | .debug => "4"
  | .trace | .all => "5"

/-- The configuration. -/
def configurationFile : Situation → String := configFile "config.toml"

/-- The command line of Geth. -/
def table : List Rule :=
  [.always (.value "--datadir" dataDirectory),
   .given joinsOther (.token networkFlag),
   .given isPrivate (.value "--networkid" networkId),
   .given isPrivate (.switch "--nodiscover"),
   .given hasNodeKey (.value "--nodekey" nodeKeyFile),
   .always (.value "--port" p2pPort),
   .always (.value "--syncmode" syncMode),
   .always (.value "--verbosity" verbosity),
   .given hasBootnodes (.value "--bootnodes" bootnodes),
   .given hasStaticNodes (.value "--config" configurationFile),
   .given unlocksAccount (.value "--unlock" coinbase),
   .given unlocksAccount (.value "--password" passwordFile),
   .given unlocksAccount (.switch "--allow-insecure-unlock"),
   .given mines (.switch "--mine"),
   .given signsBlocks (.value "--miner.etherbase" coinbase),
   .given offersRpc (.switch "--http"),
   .given offersRpc (.fixed "--http.addr" anyInterface),
   .given offersRpc (.value "--http.port" rpcPort),
   .given offersRpc (.value "--http.api" rpcApi),
   .given offersRpc (.value "--http.vhosts" hosts),
   .given offersRpc (.value "--http.corsdomain" corsDomains),
   .given offersWs (.switch "--ws"),
   .given offersWs (.fixed "--ws.addr" anyInterface),
   .given offersWs (.value "--ws.port" wsPort),
   .given offersWs (.value "--ws.api" wsApi),
   .given offersWs (.value "--ws.origins" corsDomains),
   .given offersGraphql (.switch "--graphql"),
   .given offersGraphql (.value "--graphql.vhosts" hosts),
   .given offersGraphql (.value "--graphql.corsdomain" corsDomains),
   .given offersEngine (.fixed "--authrpc.addr" anyInterface),
   .given offersEngine (.value "--authrpc.port" enginePort),
   .given offersEngine (.value "--authrpc.vhosts" hosts),
   .given checksJwt (.value "--authrpc.jwtsecret" jwtSecretFile)]

end Provision.Geth
