/-
Provision.Image — which container image a node runs.

The images of the clients may be set from outside, by variables of the
environment. A node that asks for no image is pinned to the one that is
set for its client; a node that asks for one keeps it.
-/
import Provision.Node
import Provision.Text.Blank

namespace Provision

/-- The image of each client. -/
structure ImageSet where
  besu : String := Client.defaultImage .besu
  geth : String := Client.defaultImage .geth
  nethermind : String := Client.defaultImage .nethermind
  openEthereum : String := Client.defaultImage .openEthereum
deriving DecidableEq, Repr

/-- The variable that sets the image of a client. -/
def Client.imageVariable : Client → String
  | .besu => "BESU_IMAGE"
  | .geth => "GETH_IMAGE"
  | .nethermind => "NETHERMIND_IMAGE"
  | .openEthereum => "OPENETHEREUM_IMAGE"

namespace ImageSet

/-- The image of a client. -/
def image (s : ImageSet) : Client → String
  | .besu => s.besu
  | .geth => s.geth
  | .nethermind => s.nethermind
  | .openEthereum => s.openEthereum

/-- The value of a variable without blanks at its ends, or the default if
nothing is left of it. -/
def choose (value : Option String) (default : String) : String :=
  ((value.map Text.trim).filter fun v => v ≠ "").getD default

/-- The images that the variables of an environment set. -/
def ofLookup (lookup : String → Option String) : ImageSet :=
  let chosen (c : Client) := choose (lookup c.imageVariable) c.defaultImage
  ⟨chosen .besu, chosen .geth, chosen .nethermind, chosen .openEthereum⟩

/-- Pins the node to the image of its client, unless it asks for one. -/
def resolve (s : ImageSet) (n : Node) : Node :=
  { n with image := some (n.image.getD (s.image n.client)) }

/-- Pinning twice is pinning once. -/
theorem resolve_resolve (s t : ImageSet) (n : Node) : t.resolve (s.resolve n) = s.resolve n := rfl

end ImageSet

end Provision
