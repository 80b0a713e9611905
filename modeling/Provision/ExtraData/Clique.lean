/-
Provision.ExtraData.Clique — the first signers of a Clique network.

The extra data of the first block is 32 bytes for a vanity, the addresses
of the signers, and 65 bytes for a seal. They are written with vanity and
seal all zeros, and read with any. The main statement is
`signers_cliqueText`: reading undoes writing.
-/
import Provision.EncodingError
import Provision.FixedBytes

namespace Provision.ExtraData

/-- The length of the vanity. -/
def vanityLength : Nat := 32

/-- The length of the seal. -/
def sealLength : Nat := 65

/-- The length of an address. -/
def addressLength : Nat := 20

/-- The extra data of these signers. -/
def clique (signers : List Address) : List UInt8 :=
  List.replicate vanityLength 0 ++ signers.flatMap FixedBytes.bytes ++
    List.replicate sealLength 0

/-- The text of the extra data of these signers. -/
def cliqueText (signers : List Address) : String :=
  Hex.bytesText (clique signers)

/-- The first `n` addresses of bytes that stand one after the other. -/
def takeAddresses : Nat → List UInt8 → List Address
  | 0, _ => []
  | n + 1, b =>
    match FixedBytes.ofBytes? addressLength (b.take addressLength) with
    | some a => a :: takeAddresses n (b.drop addressLength)
    | none => []

/-- The signers that extra data names, unless it is no vanity, whole
addresses and a seal. -/
def cliqueSigners (bytes : List UInt8) : Except EncodingError (List Address) :=
  let room := bytes.length - (vanityLength + sealLength)
  if bytes.length < vanityLength + sealLength ∨ room % addressLength ≠ 0 then
    .error (.malformedExtraData bytes.length)
  else .ok (takeAddresses (room / addressLength) (bytes.drop vanityLength))

/-- The signers that the text of extra data names. The text may lack the
`0x` and have digits of either case. -/
def signers (text : String) : Except EncodingError (List Address) :=
  match Hex.decode (Hex.dropMark text.toList) with
  | some bytes => cliqueSigners bytes
  | none => .error (.invalidHex text)

/-! ## Round trip -/

theorem length_flatMap_bytes (l : List Address) :
    (l.flatMap FixedBytes.bytes).length = addressLength * l.length := by
  induction l with
  | nil => rfl
  | cons a l ih =>
    rw [List.flatMap_cons, List.length_append, ih, a.length_bytes, List.length_cons,
      addressLength]
    omega

theorem takeAddresses_flatMap (l : List Address) (rest : List UInt8) :
    takeAddresses l.length (l.flatMap FixedBytes.bytes ++ rest) = l := by
  induction l with
  | nil => rfl
  | cons a l ih =>
    have hlen : a.bytes.length = addressLength := a.length_bytes
    have htake : (a.bytes ++ (l.flatMap FixedBytes.bytes ++ rest)).take addressLength = a.bytes := by
      rw [← hlen, List.take_left]
    have hdrop : (a.bytes ++ (l.flatMap FixedBytes.bytes ++ rest)).drop addressLength =
        l.flatMap FixedBytes.bytes ++ rest := by
      rw [← hlen, List.drop_left]
    rw [List.flatMap_cons, List.append_assoc, List.length_cons, takeAddresses, htake, hdrop, ih]
    exact congrArg (fun o : Option Address => (match o with | some a => a :: l | none => []))
      (FixedBytes.ofBytes?_bytes a)

theorem cliqueSigners_clique (l : List Address) : cliqueSigners (clique l) = .ok l := by
  have hlen : (clique l).length = vanityLength + sealLength + addressLength * l.length := by
    simp only [clique, List.length_append, List.length_replicate, length_flatMap_bytes]
    omega
  have hdrop : (clique l).drop vanityLength =
      l.flatMap FixedBytes.bytes ++ List.replicate sealLength 0 := by
    rw [clique, List.append_assoc, List.drop_left' (by simp)]
  have hroom : (clique l).length - (vanityLength + sealLength) = addressLength * l.length := by
    omega
  have hpos : 0 < addressLength := by decide
  simp only [cliqueSigners, hroom, hdrop, Nat.mul_mod_right, Nat.mul_div_cancel_left _ hpos,
    takeAddresses_flatMap]
  rw [if_neg (by omega)]

/-- **Reading undoes writing.** -/
theorem signers_cliqueText (l : List Address) : signers (cliqueText l) = .ok l := by
  simp only [signers, cliqueText, Hex.bytesText, String.toList_ofList, Hex.dropMark,
    Hex.decode_encode, cliqueSigners_clique]

end Provision.ExtraData
