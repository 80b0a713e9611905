/-
Provision.Proofs.Cli.Lines — one argument on each line.

Every argument is followed by a newline, so the lines of what is printed
are the arguments unless one of them has a newline of its own
(`printedLines_lines_eq_iff`). Hosts, domains and the name of a public
network are taken from the descriptions as they are, and nothing refuses a
newline in them (`smuggled_host_is_an_argument`).
-/
import Provision.Proofs.Arguments.Lines
import Provision.Proofs.Cli.Run

namespace Provision.Cli

open Text

/-- The lines of a text, without the newline that ends it. -/
def printedLines (text : String) : List String :=
  (pieces '\n' text.toList.dropLast).map String.ofList

theorem toList_lines (texts : List String) :
    (lines texts).toList = texts.flatMap fun t => t.toList ++ ['\n'] := by
  simp [lines, String.toList_join, List.flatMap_map]

theorem dropLast_lines (texts : List String) :
    (lines texts).toList.dropLast = ['\n'].intercalate (texts.map String.toList) := by
  induction texts with
  | nil => rfl
  | cons t texts ih =>
    cases texts with
    | nil => simp [toList_lines]
    | cons u texts =>
      have hne : (lines (u :: texts)).toList ≠ [] := by simp [toList_lines]
      rw [toList_lines, List.flatMap_cons, ← toList_lines, List.dropLast_append_of_ne_nil hne, ih]
      simp only [List.map_cons, List.intercalate_cons_cons]

/-- Texts that are printed on lines of their own are the lines of what is
printed when there are any, and none of them has a newline. -/
theorem printedLines_lines_eq_iff {texts : List String} :
    printedLines (lines texts) = texts ↔ texts ≠ [] ∧ ∀ t ∈ texts, IsLine t := by
  have hchars (ps : List (List Char)) :
      ps.map String.ofList = texts ↔ ps = texts.map String.toList := by
    constructor
    · rintro rfl
      simp
    · rintro rfl
      simp
  rw [printedLines, dropLast_lines, hchars, pieces_intercalate_eq_iff]
  simp [IsLine]

theorem arguments_ne_nil (c : Client) (node : Node) (network : Network) :
    c.arguments node network ≠ [] := by
  cases c <;> exact List.cons_ne_nil _ _

/-- **Lines**: what is printed for a node has the arguments for its lines
when the free texts among them have no newline, and in no other case. -/
theorem printed_arguments_are_lines_iff {w : World} {words : List String} {nodePath : String}
    {networkPath : Option String} {text : String}
    (hrequest : request? words = some (.run (.arguments nodePath networkPath)))
    (hrun : run w words = .printed text) :
    ∃ node network, w.Describes Node.ofText nodePath node ∧ w.Joins networkPath network ∧
      (printedLines text = node.arguments network ↔
        ∀ t ∈ node.client.freeTexts node network, '\n' ∉ t.toList) := by
  obtain ⟨_, ⟨node, network, hnode, hnetwork, rfl⟩, rfl⟩ := (run_eq_printed_iff hrequest).mp hrun
  refine ⟨node, network, hnode, hnetwork, ?_⟩
  rw [printedLines_lines_eq_iff, Node.arguments, Client.forall_isLine_arguments_iff]
  exact and_iff_right (arguments_ne_nil _ _ _)

/-- The world whose only file is the description of this node. -/
def nodeWorld (node : Node) : World :=
  .ofText "node.json" (Node.layout.encode node).compact

/-- The words that ask for the arguments of this node on the main network. -/
def nodeWords : List String := ["args", "--node", "node.json"]

theorem request?_nodeWords : request? nodeWords = some (.run (.arguments "node.json" none)) := by
  decide

theorem nodeWorld_describes (node : Node) :
    (nodeWorld node).Describes Node.ofText "node.json" node :=
  World.describes_ofText (Node.layout_lawful.codec_lawful.decodeDocument_compact node)

theorem run_nodeWorld (node : Node) :
    run (nodeWorld node) nodeWords = .printed (lines (node.arguments (.joined "mainnet"))) :=
  (run_eq_printed_iff request?_nodeWords).mpr
    ⟨_, ⟨node, .joined "mainnet", nodeWorld_describes node, rfl, rfl⟩, rfl⟩

/-- A node of Geth that answers calls to this host. -/
def answering (host : String) : Node :=
  { Node.new .geth with rpc := true, hosts := [host] }

theorem arguments_of_localhost_are_lines :
    ∃ text, run (nodeWorld (answering "localhost")) nodeWords = .printed text ∧
      printedLines text = (answering "localhost").arguments (.joined "mainnet") := by
  have hrun := run_nodeWorld (answering "localhost")
  obtain ⟨node, network, hnode, rfl, hlines⟩ :=
    printed_arguments_are_lines_iff request?_nodeWords hrun
  obtain rfl := hnode.unique (nodeWorld_describes _)
  exact ⟨_, hrun, hlines.mpr (by decide)⟩

/-- A host and, on a line of its own, an argument. -/
def smuggling : Node := answering "localhost\n--allow-insecure-unlock"

/-- The second line of the host is printed as an argument, and Geth is given
no such argument. -/
theorem smuggled_host_is_an_argument :
    ∃ text, run (nodeWorld smuggling) nodeWords = .printed text ∧
      "--allow-insecure-unlock" ∈ printedLines text ∧
      "--allow-insecure-unlock" ∉ smuggling.arguments (.joined "mainnet") ∧
      printedLines text ≠ smuggling.arguments (.joined "mainnet") := by
  have hprinted : "--allow-insecure-unlock" ∈
      printedLines (lines (smuggling.arguments (.joined "mainnet"))) := by decide +kernel
  have hgiven : "--allow-insecure-unlock" ∉ smuggling.arguments (.joined "mainnet") := by decide
  exact ⟨_, run_nodeWorld smuggling, hprinted, hgiven, fun heq => hgiven (heq ▸ hprinted)⟩

end Provision.Cli
