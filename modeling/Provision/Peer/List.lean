/-
Provision.Peer.List — the file that lists the peers a node stays
connected to.

Besu and Nethermind read a JSON array and OpenEthereum a line for each
peer. Geth reads its configuration, where the addresses stand quoted
between brackets; no character of an address has to be escaped there.
-/
import Provision.Client
import Provision.Json.Printer
import Provision.Peer.Enode

namespace Provision.Enode

/-- The addresses as a JSON array. -/
def listJson (es : List Enode) : Json :=
  .arr (es.map fun e => .str e.text)

/-- The addresses in the section of a configuration that names peers. -/
def listConfiguration (es : List Enode) : String :=
  "[Node.P2P]\nStaticNodes = " ++ Json.compact (listJson es)

/-- The addresses on lines of their own. -/
def listLines (es : List Enode) : String :=
  String.intercalate "\n" (es.map text)

/-- The file of peers in the format of a client. -/
def listText (client : Client) (es : List Enode) : String :=
  match client with
  | .besu | .nethermind => Json.compact (listJson es)
  | .geth => listConfiguration es
  | .openEthereum => listLines es

end Provision.Enode
