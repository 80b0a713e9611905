import Provision.Main
import Provision.Proofs.Json.Object
import Provision.Proofs.Hex
import Provision.Proofs.HexText
import Provision.Proofs.Builtin
import Provision.Proofs.Genesis.Allocation
import Provision.Proofs.Genesis.Agreement
import Provision.Proofs.ExtraData.Istanbul
import Provision.Proofs.Genesis.Builtins
import Provision.Proofs.ExtraData.Clique
import Provision.Proofs.Json.RoundTrip
import Provision.Proofs.Description
import Provision.Proofs.Genesis.Entries
import Provision.Proofs.Genesis.FlatContent
import Provision.Proofs.Genesis.Delays
import Provision.Proofs.Genesis.NestedContent
import Provision.Proofs.Genesis.CliqueForks
import Provision.Proofs.Genesis.FirstEngine
import Provision.Proofs.Network
import Provision.Proofs.Cli.Run
import Provision.Proofs.Peer.Characters
import Provision.Proofs.Peer.Grammar
import Provision.Proofs.Peer.List
import Provision.Proofs.Genesis.Prices
import Provision.Proofs.Network.Validation
import Provision.Proofs.Arguments.Lines
import Provision.Proofs.Cli.Lines
import Provision.Proofs.Arguments.Told
import Provision.Proofs.KeyOrder
import Provision.Proofs.Genesis.CanonicalText
import Provision.Proofs.Genesis.Schedules
import Provision.Proofs.Arguments.Reading
import Provision.Proofs.Arguments.Enabled
import Provision.Proofs.Genesis.Overlay
import Provision.Proofs.Image
import Provision.Proofs.Peer.DottedNumbers
