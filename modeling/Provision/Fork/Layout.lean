/-
Provision.Fork.Layout — fork schedules as JSON.

A schedule is an object with the block of each fork under its name; a fork
that is left out activates at the first block, and the DAO fork never.
-/
import Provision.Fork
import Provision.Json.Layout

namespace Provision.ForkSchedule

open Json

/-- The type of a fork's block. -/
def Block : Fork → Type
  | .dao => Option UInt64
  | _ => UInt64

/-- How the block of a fork is written and read. -/
def blockSlot : (f : Fork) → Slot (Block f)
  | .homestead => .always .uint64
  | .dao => .optional .uint64
  | .eip150 => .always .uint64
  | .eip155 => .always .uint64
  | .eip158 => .always .uint64
  | .byzantium => .always .uint64
  | .constantinople => .always .uint64
  | .petersburg => .always .uint64
  | .istanbul => .always .uint64
  | .muirGlacier => .always .uint64
  | .berlin => .always .uint64
  | .london => .always .uint64
  | .arrowGlacier => .always .uint64

/-- The block of a fork. -/
def get (s : ForkSchedule) : (f : Fork) → Block f
  | .homestead => s.homestead
  | .dao => s.dao
  | .eip150 => s.eip150
  | .eip155 => s.eip155
  | .eip158 => s.eip158
  | .byzantium => s.byzantium
  | .constantinople => s.constantinople
  | .petersburg => s.petersburg
  | .istanbul => s.istanbul
  | .muirGlacier => s.muirGlacier
  | .berlin => s.berlin
  | .london => s.london
  | .arrowGlacier => s.arrowGlacier

/-- The schedule of these blocks. -/
def make (v : (f : Fork) → Block f) : ForkSchedule where
  homestead := v .homestead
  dao := v .dao
  eip150 := v .eip150
  eip155 := v .eip155
  eip158 := v .eip158
  byzantium := v .byzantium
  constantinople := v .constantinople
  petersburg := v .petersburg
  istanbul := v .istanbul
  muirGlacier := v .muirGlacier
  berlin := v .berlin
  london := v .london
  arrowGlacier := v .arrowGlacier

/-- How a schedule is written and read. -/
def layout : Layout ForkSchedule where
  Field := Fork
  title := "struct ForkSchedule"
  fields := Fork.all
  name := Fork.name
  Value := Block
  slot := blockSlot
  get := get
  make := make
  required := fun _ => false
  template := {}

theorem find?_forkName (f : Fork) : Fork.all.find? (fun g => g.name = f.name) = some f := by
  cases f <;> decide

theorem layout_lawful : layout.Lawful where
  fields_nodup := (by decide : Fork.all.Nodup)
  field?_name := find?_forkName
  slot_lawful f := by
    cases f
    case dao => exact Slot.optional_lawful Codec.uint64_lawful fun _ => nofun
    all_goals exact Slot.always_lawful Codec.uint64_lawful
  left_out f v h := by
    cases f
    case dao => exact ⟨rfl, (Slot.eq_none_of_left_out h).symm⟩
    all_goals exact (Slot.always_ne_none h).elim
  make_get _ := rfl

/-- Reads the text of a schedule. -/
def ofText (text : String) : Except Failure ForkSchedule :=
  decodeDocument layout.decode text

end Provision.ForkSchedule
