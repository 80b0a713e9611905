/-
Provision.Arguments.Nethermind — the command line of Nethermind.

Nethermind answers no GraphQL queries and has its own settings for hosts
and domains, so it is told of neither. On a private network it loads a
configuration that sets nothing.
-/
import Provision.Arguments.Rule

namespace Provision.Nethermind

open Situation

/-- The node begins from a state that it is given: so do the fast and the
snap way of catching up. -/
def syncsFast (s : Situation) : Bool :=
  s.node.syncMode = .fast || s.node.syncMode = .snap

/-- The node is given a snapshot. -/
def syncsSnap (s : Situation) : Bool := s.node.syncMode = .snap

/-- The verbosity. -/
def logLevel (s : Situation) : String :=
  match s.node.logging with
  | .off => "OFF"
  | .fatal | .error => "ERROR"
  | .warn => "WARN"
  | .info => "INFO"
  | .debug => "DEBUG"
  | .trace | .all => "TRACE"

/-- The command line of Nethermind. -/
def table : List Rule :=
  [.always (.value "--datadir" dataDirectory),
   .given isPublic (.value "--config" publicName),
   .given isPrivate (.fixed "--config" "none.cfg"),
   .given isPrivate (.value "--Init.ChainSpecPath" genesisFile),
   .given isPrivate (.fixed "--Init.DiscoveryEnabled" "false"),
   .given hasNodeKey (.value "--KeyStore.EnodeKeyFile" nodeKeyFile),
   .always (.value "--Network.P2PPort" p2pPort),
   .always (.value "--Network.DiscoveryPort" p2pPort),
   .given syncsFast (.fixed "--Sync.FastSync" "true"),
   .given syncsFast (.fixed "--Sync.FastBlocks" "true"),
   .given syncsFast (.fixed "--Sync.DownloadBodiesInFastSync" "true"),
   .given syncsFast (.fixed "--Sync.DownloadReceiptsInFastSync" "true"),
   .given syncsSnap (.fixed "--Sync.SnapSync" "true"),
   .always (.value "--log" logLevel),
   .given hasBootnodes (.value "--Discovery.Bootnodes" bootnodes),
   .given hasStaticNodes (.value "--Init.StaticNodesPath" staticNodesFile),
   .given unlocksAccount (.value "--KeyStore.UnlockAccounts" coinbase),
   .given unlocksAccount (.value "--KeyStore.PasswordFiles" passwordFile),
   .given mines (.fixed "--Mining.Enabled" "true"),
   .given signsBlocks (.value "--KeyStore.BlockAuthorAccount" coinbase),
   .given offersRpc (.fixed "--JsonRpc.Enabled" "true"),
   .given offersRpc (.fixed "--JsonRpc.Host" anyInterface),
   .given offersRpc (.value "--JsonRpc.Port" rpcPort),
   .given offersRpc (.value "--JsonRpc.EnabledModules" rpcApi),
   .given offersWs (.fixed "--Init.WebSocketsEnabled" "true"),
   .given offersWs (.value "--JsonRpc.WebSocketsPort" wsPort),
   .given offersEngine (.fixed "--JsonRpc.EngineHost" anyInterface),
   .given offersEngine (.value "--JsonRpc.EnginePort" enginePort),
   .given checksJwt (.value "--JsonRpc.JwtSecretFile" jwtSecretFile)]

end Provision.Nethermind
