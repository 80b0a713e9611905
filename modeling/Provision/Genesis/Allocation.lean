/-
Provision.Genesis.Allocation — what each address holds in the first block.

Every address up to 0xff is given one wei, so that a call to a builtin
contract never meets an empty account. The accounts of the description
come after them, and of two for one address the later counts.
-/
import Provision.Account.Layout
import Provision.Builtin
import Provision.Genesis

namespace Provision.Genesis

/-- What an address holds in the first block. -/
inductive Holding where
  /-- One wei. -/
  | wei
  /-- One wei and a builtin contract. -/
  | builtin (b : Builtin)
  /-- What the description says. -/
  | account (a : Account)
deriving DecidableEq

/-- What each address holds in the first block. -/
abbrev Allocation := OrderedMap Address Holding

/-- The addresses up to 0xff. -/
def lowAddresses : List Address :=
  (List.range 256).map fun i => .ofLastByte (UInt8.ofNat i)

/-- What they hold unless something else is said of them. -/
def lowHoldings : List (Address × Holding) :=
  lowAddresses.map fun a => (a, .wei)

/-- The accounts of the description. -/
def accountHoldings (accounts : List Account) : List (Address × Holding) :=
  accounts.map fun a => (a.address, .account a)

/-- The allocation for clients that know the builtin contracts. -/
def allocation (g : Genesis) : Allocation :=
  .ofList (lowHoldings ++ accountHoldings g.accounts)

/-- The allocation for clients that are told of the builtin contracts. -/
def builtinAllocation (g : Genesis) : Allocation :=
  .ofList (lowHoldings ++ (Builtin.registry g.forks).entries.map (fun e => (e.1, .builtin e.2)) ++
    accountHoldings g.accounts)

/-- What an address holds, as a document spells it. -/
def Holding.encode : Holding → Json
  | .wei => .obj [("balance", .str "0x1")]
  | .builtin b => .obj [("balance", .str "0x1"), ("builtin", b.encode)]
  | .account a =>
    .obj ([("balance", .str a.balance.text)] ++
      Json.member? "code" (a.code.map fun c => .str c.text) ++
      Json.member? "storage" (a.storage.map encodeStorage))

/-- An allocation as a document spells it. -/
def encodeAllocation (m : Allocation) : Json :=
  .obj (m.entries.map fun e => (e.1.text, e.2.encode))

end Provision.Genesis
