/-
Provision.Builtin — the contracts that are built into a client.

Nine low addresses answer calls without code of their own. A client that
does not know their prices by itself is told the price of each from the
block on at which a fork sets it. Where two forks set a price at one
block, the later fork counts.
-/
import Provision.FixedBytes
import Provision.Fork
import Provision.Json.Basic

namespace Provision

/-- How the gas of a call to a builtin contract is reckoned. -/
inductive Price where
  /-- An amount, and one more for each word of the input. -/
  | linear (base word : UInt64)
  /-- The cost of an exponentiation, divided. -/
  | exponentiation (divisor : UInt64)
  /-- The cost of an exponentiation by the rule of EIP-2565. -/
  | repricedExponentiation
  /-- A constant amount for an operation on a curve. -/
  | curveOperation (price : UInt64)
  /-- An amount, and one more for each pair of points. -/
  | curvePairing (base pair : UInt64)
  /-- An amount for each round of compression. -/
  | compression (gasPerRound : UInt64)
deriving DecidableEq, Repr

/-- A price from some block on. -/
structure PriceEntry where
  /-- A remark for the reader of the document. -/
  info : Option String := none
  price : Price
deriving DecidableEq, Repr

/-- A contract that is built into a client. -/
structure Builtin where
  name : String
  /-- The prices by the block from which they hold. -/
  pricing : OrderedMap UInt64 PriceEntry
deriving DecidableEq

namespace Builtin

/-! ## Prices -/

/-- A price without a remark. -/
def plain (p : Price) : PriceEntry := { price := p }

/-- A price that the Istanbul fork lowers. -/
def lowered (p : Price) : PriceEntry := { info := some "EIP 1108 transition", price := p }

/-- The builtin contracts in the order of their addresses, the first of
which is one, with their prices under a fork schedule. -/
def list (s : ForkSchedule) : List Builtin :=
  [⟨"ecrecover", .ofList [(0, plain (.linear 3000 0))]⟩,
   ⟨"sha256", .ofList [(0, plain (.linear 60 12))]⟩,
   ⟨"ripemd160", .ofList [(0, plain (.linear 600 120))]⟩,
   ⟨"identity", .ofList [(0, plain (.linear 15 3))]⟩,
   ⟨"modexp", .ofList
     [(s.byzantium, plain (.exponentiation 20)), (s.berlin, plain .repricedExponentiation)]⟩,
   ⟨"alt_bn128_add", .ofList
     [(s.byzantium, plain (.curveOperation 500)), (s.istanbul, lowered (.curveOperation 150))]⟩,
   ⟨"alt_bn128_mul", .ofList
     [(s.byzantium, plain (.curveOperation 40000)),
      (s.istanbul, lowered (.curveOperation 6000))]⟩,
   ⟨"alt_bn128_pairing", .ofList
     [(s.byzantium, plain (.curvePairing 100000 80000)),
      (s.istanbul, lowered (.curvePairing 45000 34000))]⟩,
   ⟨"blake2_f", .ofList [(s.istanbul, plain (.compression 1))]⟩]

/-- The builtin contracts by address. -/
def registry (s : ForkSchedule) : OrderedMap Address Builtin :=
  .ofList ((list s).zipIdx.map fun (b, i) => (Address.ofLastByte (UInt8.ofNat (i + 1)), b))

/-- The price that holds at a block: the entry with the greatest block not
above it. -/
def priceAt? (b : Builtin) (block : UInt64) : Option Price :=
  (b.pricing.entries.filter fun e => e.1 ≤ block).getLast?.map fun e => e.2.price

/-! ## Writing -/

/-- A price as a document spells it. -/
def encodePrice : Price → Json
  | .linear base word => .obj [("linear", .obj [("base", .nat base), ("word", .nat word)])]
  | .exponentiation divisor => .obj [("modexp", .obj [("divisor", .nat divisor)])]
  | .repricedExponentiation => .obj [("modexp2565", .obj [])]
  | .curveOperation price => .obj [("alt_bn128_const_operations", .obj [("price", .nat price)])]
  | .curvePairing base pair =>
    .obj [("alt_bn128_pairing", .obj [("base", .nat base), ("pair", .nat pair)])]
  | .compression gas => .obj [("blake2_f", .obj [("gas_per_round", .nat gas)])]

/-- A price with its remark, if it has one. -/
def encodeEntry (e : PriceEntry) : Json :=
  .obj (Json.member? "info" (e.info.map .str) ++ [("price", encodePrice e.price)])

/-- A builtin contract as a document spells it, with its prices in the
order of their blocks. -/
def encode (b : Builtin) : Json :=
  .obj
    [("name", .str b.name),
     ("pricing", .obj (b.pricing.entries.map fun e =>
       (Hex.numberText e.1.toNat, encodeEntry e.2)))]

end Builtin

end Provision
