/-
Provision.Network.Layout — network descriptions as JSON.

A description that leaves out everything is that of the main network.
-/
import Provision.Genesis.Layout
import Provision.Network

namespace Provision.Network

open Json

/-- The codec of a genesis that stands within a network. -/
def genesisCodec : Codec Genesis :=
  Genesis.codec (Genesis.nestingLimit - 2)

theorem genesisCodec_lawful : genesisCodec.Lawful :=
  Genesis.codec_lawful (by decide)

/-- The fields of a network. -/
inductive Field where
  | publicName
  | consensus
  | genesis
deriving DecidableEq, Repr

/-- The fields in their order. -/
def Field.all : List Field :=
  [.publicName, .consensus, .genesis]

/-- The name of a field. -/
def Field.name : Field → String
  | .publicName => "network"
  | .consensus => "consensus"
  | .genesis => "genesis"

/-- The type of the value of a field. -/
def Field.Value : Field → Type
  | .publicName => String
  | .consensus => Option Consensus
  | .genesis => Option Genesis

/-- How the value of a field is written and read. -/
def Field.slot : (f : Field) → Slot f.Value
  | .publicName => .always .text
  | .consensus => .optional Consensus.codec
  | .genesis => .optional genesisCodec

/-- The value of a field. -/
def get (x : Network) : (f : Field) → f.Value
  | .publicName => x.publicName
  | .consensus => x.consensus
  | .genesis => x.genesis

/-- The network of these values. -/
def make (v : (f : Field) → f.Value) : Network where
  publicName := v .publicName
  consensus := v .consensus
  genesis := v .genesis

/-- How a network is written and read. -/
def layout : Layout Network where
  Field := Field
  title := "struct NetworkConfig"
  fields := Field.all
  name := Field.name
  Value := Field.Value
  slot := Field.slot
  get := get
  make := make
  required := fun _ => false
  template := {}

theorem Field.find?_name (f : Field) : Field.all.find? (fun g => g.name = f.name) = some f := by
  cases f <;> decide

theorem layout_lawful : layout.Lawful where
  fields_nodup := (by decide : Field.all.Nodup)
  field?_name := Field.find?_name
  slot_lawful f := by
    cases f
    · exact Slot.always_lawful Codec.text_lawful
    · exact Slot.optional_lawful Consensus.codec_lawful fun _ => nofun
    · exact Slot.optional_lawful genesisCodec_lawful fun _ => nofun
  left_out f v h := by
    cases f
    case consensus | genesis => exact ⟨rfl, (Slot.eq_none_of_left_out h).symm⟩
    all_goals exact (Slot.always_ne_none h).elim
  make_get _ := rfl

/-- Reads the text of a network description. -/
def ofText (text : String) : Except Failure Network :=
  decodeDocument layout.decode text

end Provision.Network
