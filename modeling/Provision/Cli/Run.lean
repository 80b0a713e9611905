/-
Provision.Cli.Run — what a command line prints.

A command prints all of its output or nothing: it fails before it prints,
and then tells a chain of causes, the outermost first. The program ends
with 0 when it has printed, with 1 when it has failed, and with 2 when it
refused the command line.
-/
import Provision.Arguments
import Provision.Build
import Provision.Cli.Options
import Provision.Cli.World
import Provision.ExtraData.Clique
import Provision.Genesis.Document
import Provision.Image
import Provision.Network.Layout
import Provision.Node.Layout
import Provision.Peer.List

namespace Provision.Cli

/-- The causes of a failure, the outermost first. -/
abbrev Causes := List String

/-- How a run of the program ends. -/
inductive Outcome where
  | printed (text : String)
  | failed (causes : Causes)
  | refused
deriving DecidableEq, Repr

namespace Outcome

/-- The code with which the program ends. -/
def exitCode : Outcome → UInt32
  | .printed _ => 0
  | .failed _ => 1
  | .refused => 2

/-- What the program prints. -/
def output : Outcome → String
  | .printed text => text
  | .failed _ | .refused => ""

end Outcome

/-! ## Reading descriptions -/

/-- What a message says about a text that is no description. -/
def failureMessage : Json.Failure → String
  | .fault .malformed => "malformed JSON"
  | .fault .truncated => "JSON text ends too early"
  | .misfit m => m.message

/-- Reads the description in a file. -/
def readDescription {α : Type} (w : World) (ofText : String → Except Json.Failure α)
    (path : String) : Except Causes α :=
  match w.fileText path with
  | .error fault => .error ["Failed to read " ++ path, fault.message]
  | .ok text =>
    match ofText text with
    | .error failure => .error ["Failed to parse " ++ path, failureMessage failure]
    | .ok a => .ok a

/-- Reads the description of a node. -/
def readNode (w : World) : String → Except Causes Node := readDescription w Node.ofText

/-- Reads the description of a network, which must be sound. -/
def readNetwork (w : World) (path : String) : Except Causes Network := do
  let network ← readDescription w Network.ofText path
  match network.validate with
  | .ok () => .ok network
  | .error e => .error ["Invalid network config", e.message]

/-! ## Commands -/

/-- Every text on a line of its own. -/
def lines (texts : List String) : String :=
  String.join (texts.map (· ++ "\n"))

/-- What a command prints. -/
def Command.run (w : World) : Command → Except Causes String
  | .arguments node network => do
    let node ← readNode w node
    let network ← network.elim (.ok {}) (readNetwork w)
    .ok (lines (node.arguments network))
  | .genesis client path => do
    let network ← readNetwork w path
    match network.genesis with
    | none =>
      .error ["network " ++ Text.quote network.publicName ++
        " is public and has no genesis to generate"]
    | some g =>
      match g.documentText client with
      | .ok text => .ok (lines [text])
      | .error e => .error ["Failed to build " ++ client.name ++ " genesis", e.message]
  | .staticNodes node => do
    let node ← readNode w node
    .ok (lines [Enode.listText node.client node.staticNodes])
  | .image node => do
    let node ← readNode w node
    .ok (lines [((ImageSet.ofLookup w.settingText?).resolve node).runningImage])
  | .signers extraData =>
    match ExtraData.signers extraData with
    | .ok found => .ok (lines (found.map Address.checksumText))
    | .error e => .error ["Invalid Clique extraData", e.message]

/-- What asking for the version prints. -/
def versionLine : String :=
  lines [Build.current.name ++ " " ++ Build.current.text]

/-- How a run of the program ends. Its help says nothing of its own. -/
def run (w : World) (words : List String) : Outcome :=
  match request? words with
  | none => .refused
  | some .help => .printed ""
  | some .version => .printed versionLine
  | some (.run command) =>
    match command.run w with
    | .ok text => .printed text
    | .error causes => .failed causes

end Provision.Cli
