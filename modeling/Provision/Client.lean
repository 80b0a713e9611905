/-
Provision.Client — the execution clients that can be provisioned.
-/

namespace Provision

/-- An execution client. -/
inductive Client where
  | besu
  | geth
  | nethermind
  | openEthereum
deriving DecidableEq, Repr

namespace Client

/-- The clients in the order in which they are listed. -/
def all : List Client := [.besu, .geth, .nethermind, .openEthereum]

/-- The name of a client in descriptions and on the command line. -/
def name : Client → String
  | .besu => "besu"
  | .geth => "geth"
  | .nethermind => "nethermind"
  | .openEthereum => "parity"

/-- The name of a client as a proper noun. -/
def title : Client → String
  | .besu => "Besu"
  | .geth => "Geth"
  | .nethermind => "Nethermind"
  | .openEthereum => "Parity"

/-- A client that was asked for and is not known. -/
structure Unsupported where
  name : String
deriving DecidableEq, Repr

/-- What a message says about it. -/
def Unsupported.message (u : Unsupported) : String :=
  "unsupported client: " ++ u.name

/-- The client of a name. -/
def ofName (name : String) : Except Unsupported Client :=
  match all.find? fun c => c.name = name with
  | some c => .ok c
  | none => .error ⟨name⟩

/-- Every client is found by its name. -/
theorem ofName_name (c : Client) : ofName c.name = .ok c := by
  cases c <;> rfl

/-! ## Inside the container -/

/-- The home directory of a client inside its container. -/
def homeDirectory : Client → String
  | .besu => "/opt/besu"
  | .geth => "/home/ethereum"
  | .nethermind => "/home/nethermind"
  | .openEthereum => "/home/openethereum"

/-- The image a client runs unless another is asked for. -/
def defaultImage : Client → String
  | .besu => "hyperledger/besu:22.7.0"
  | .geth => "ethereum/client-go:v1.10.23"
  | .nethermind => "kotalco/nethermind:v1.14.1"
  | .openEthereum => "openethereum/openethereum:v3.3.5"

end Client

end Provision
