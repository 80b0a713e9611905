/-
Provision.Account — accounts that exist in the first block.
-/
import Provision.FixedBytes
import Provision.HexText
import Provision.OrderedMap

namespace Provision

/-- The storage of a contract: what is written at each slot. -/
abbrev Storage := OrderedMap HexText HexText

/-- An account that is funded, and perhaps deployed, in the first block. -/
structure Account where
  address : Address
  balance : HexText
  code : Option HexText := none
  storage : Option Storage := none
deriving DecidableEq

end Provision
