/-
Provision.EncodingError — why a piece of text or data has no encoding.
-/
import Provision.Decimal.Basic
import Provision.Text.Quoted

namespace Provision

/-- Why a piece of text or data has no encoding. -/
inductive EncodingError where
  /-- The text is not hexadecimal. -/
  | invalidHex (text : String)
  /-- The number needs more digits than there is room for. -/
  | hexTooWide (text : String) (width : Nat)
  /-- The text is no peer address. -/
  | invalidEnode (text : String)
  /-- The bytes are not a vanity, whole addresses and a seal. -/
  | malformedExtraData (length : Nat)
  /-- There is no validator to encode. -/
  | emptyValidatorSet
deriving DecidableEq, Repr

/-- What a message says about the error. -/
def EncodingError.message : EncodingError → String
  | .invalidHex t => "invalid hex string " ++ Text.quote t ++ ": expected 0x-prefixed hex digits"
  | .hexTooWide t w =>
    "hex value " ++ t ++ " does not fit in " ++ Decimal.text w ++ " hex digits"
  | .invalidEnode t => "invalid enode url " ++ Text.quote t
  | .malformedExtraData n =>
    "extraData of " ++ Decimal.text n ++ " bytes is not vanity + signers + seal"
  | .emptyValidatorSet => "validator set must contain at least one address"

end Provision
