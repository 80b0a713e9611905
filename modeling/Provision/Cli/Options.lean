/-
Provision.Cli.Options — what the words of a command line ask for.

The first word is a command or asks for help or the version; the others
are the command's options, each given once and with a value, which may
stand in a word of its own or after an equals sign. A word that begins
with a hyphen is never the value of the option before it. After `--`
nothing may follow.
-/
import Provision.Client
import Provision.Text.Cut

namespace Provision.Cli

/-- What the program is asked to print. -/
inductive Command where
  /-- The arguments of a node, on a network or on the main one. -/
  | arguments (node : String) (network : Option String)
  /-- The genesis document of a network for a client. -/
  | genesis (client : Client) (network : String)
  /-- The file of peers of a node. -/
  | staticNodes (node : String)
  /-- The image of a node. -/
  | image (node : String)
  /-- The signers that extra data names. -/
  | signers (extraData : String)
deriving DecidableEq, Repr

/-- What a command line asks for. -/
inductive Request where
  | run (command : Command)
  | version
  | help
deriving DecidableEq, Repr

/-! ## Words -/

/-- The form of a word. -/
inductive Word where
  /-- The two hyphens that end the options. -/
  | escape
  /-- Two hyphens, a name, and perhaps a value after an equals sign. -/
  | long (name : List Char) (value : Option String)
  /-- A hyphen and letters. -/
  | short (first : Char)
  /-- Any other word. -/
  | plain
deriving DecidableEq, Repr

/-- The form of a word. -/
def Word.ofString (w : String) : Word :=
  match w.toList with
  | ['-', '-'] => .escape
  | '-' :: '-' :: rest =>
    match Text.cutFirst '=' rest with
    | some (name, value) => .long name (some (String.ofList value))
    | none => .long rest none
  | '-' :: c :: _ => .short c
  | _ => .plain

/-! ## Options -/

/-- An option of a command. -/
structure CommandOption where
  name : String
  /-- Whether a text may be its value. -/
  accepts : String → Bool := fun _ => true

/-- The options that were given, with their values. -/
abbrev Given := List (String × String)

/-- What the words after a command are found to be. -/
inductive Found where
  | help
  | options (given : Given)
deriving DecidableEq, Repr

/-- Adds an option, unless it was given before or does not take the value. -/
def Given.add (options : List CommandOption) (given : Given) (name value : String) :
    Option Given :=
  match options.find? fun o => o.name = name with
  | some o =>
    if (given.lookup name).isNone ∧ o.accepts value then some (given ++ [(name, value)]) else none
  | none => none

/-- Goes through the words after a command; `awaiting` is the option whose
value is due. -/
def scan (options : List CommandOption) :
    (awaiting : Option String) → Given → List String → Option Found
  | none, given, [] => some (.options given)
  | some _, _, [] => none
  | none, given, word :: words =>
    match Word.ofString word with
    | .escape => if words = [] then some (.options given) else none
    | .long name value =>
      let name := String.ofList name
      match value with
      | some v => (given.add options name v).bind fun given => scan options none given words
      | none =>
        if name = "help" then some .help
        else if options.any fun o => o.name = name then scan options (some name) given words
        else none
    | .short c => if c = 'h' then some .help else none
    | .plain => none
  | some name, given, word :: words =>
    match Word.ofString word with
    | .plain => (given.add options name word).bind fun given => scan options none given words
    | _ => none

/-! ## Commands -/

/-- A command, its options, and how it is made of their values. -/
structure CommandForm where
  name : String
  options : List CommandOption
  make : Given → Option Command

/-- The value of a client. -/
def clientOf? (name : String) : Option Client :=
  (Client.ofName name).toOption

/-- The commands. -/
def forms : List CommandForm :=
  [⟨"args", [⟨"node", fun _ => true⟩, ⟨"network", fun _ => true⟩],
    fun given => (given.lookup "node").map fun n => .arguments n (given.lookup "network")⟩,
   ⟨"genesis", [⟨"client", fun c => (clientOf? c).isSome⟩, ⟨"network", fun _ => true⟩],
    fun given => do
      let client ← (given.lookup "client").bind clientOf?
      let network ← given.lookup "network"
      some (.genesis client network)⟩,
   ⟨"static-nodes", [⟨"node", fun _ => true⟩],
    fun given => (given.lookup "node").map .staticNodes⟩,
   ⟨"image", [⟨"node", fun _ => true⟩],
    fun given => (given.lookup "node").map .image⟩,
   ⟨"signers", [⟨"extra-data", fun _ => true⟩],
    fun given => (given.lookup "extra-data").map .signers⟩]

/-- What the words after a command ask for. -/
def CommandForm.request? (f : CommandForm) (words : List String) : Option Request :=
  match scan f.options none [] words with
  | some (.options given) => (f.make given).map .run
  | some .help => some .help
  | none => none

/-- Whether help can be asked for about this. -/
def isHelpTopic (words : List String) : Bool :=
  match words with
  | [] => true
  | [topic] => topic = "help" || forms.any fun f => f.name = topic
  | _ => false

/-- What a command line asks for, unless it is refused. -/
def request? : List String → Option Request
  | [] => none
  | word :: words =>
    if word = "help" then if isHelpTopic words then some .help else none
    else match forms.find? fun f => f.name = word with
    | some f => f.request? words
    | none =>
      match Word.ofString word with
      | .long name none =>
        if name = ['h', 'e', 'l', 'p'] then some .help
        else if name = ['v', 'e', 'r', 's', 'i', 'o', 'n'] then some .version
        else none
      | .short 'h' => some .help
      | .short 'V' => some .version
      | _ => none

end Provision.Cli
