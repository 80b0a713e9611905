/-
Provision.ExtraData.Istanbul — the first validators of an Istanbul network.

The extra data of the first block is the list of a vanity, the
validators, no vote, round zero and no seals.
-/
import Provision.EncodingError
import Provision.FixedBytes
import Provision.Rlp

namespace Provision.ExtraData

/-- The item of these validators. -/
def istanbulItem (validators : List Address) : Rlp :=
  .list
    [.bytes (List.replicate 32 0),
     .list (validators.map fun v => .bytes v.bytes),
     .bytes [],
     .bytes (List.replicate 4 0),
     .list []]

/-- The extra data of these validators; there must be one. -/
def istanbul (validators : List Address) : Except EncodingError (List UInt8) :=
  if validators = [] then .error .emptyValidatorSet else .ok (istanbulItem validators).encode

/-- The text of the extra data of these validators. -/
def istanbulText (validators : List Address) : Except EncodingError String :=
  (istanbul validators).map Hex.bytesText

end Provision.ExtraData
