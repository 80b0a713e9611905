/-
Provision.Checksum — the mixed-case form of an address.

A letter of the hexadecimal text is raised when the digit at its place in
the digest of the lowercase text is eight or more, so that a mistyped
address is likely to be noticed. Reading ignores the case: the mixed-case
form differs from the plain one by the case of letters only.
-/
import Provision.Keccak

namespace Provision.Address

/-- Raises the characters whose digest digit is eight or more. -/
def raiseBy (digest : List Char) (ds : List Char) : List Char :=
  List.zipWith (fun d c => if 8 ≤ Hex.digitValue d then c.toUpper else c) digest ds

/-- The address with its letters raised by the digest of its lowercase
digits. -/
def checksumText (a : Address) : String :=
  let ds := Hex.encode a.bytes
  let digest := Keccak.digest (ds.map fun c => c.toNat.toUInt8)
  String.ofList ('0' :: 'x' :: raiseBy (Hex.encode digest) ds)

end Provision.Address
