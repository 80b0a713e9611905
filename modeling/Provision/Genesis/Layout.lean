/-
Provision.Genesis.Layout — genesis descriptions as JSON.

The engine stands among the members of the genesis under a key of its own
and is written last. A reader cannot tell where it stands before it has
gone through the object, so the members that are no shared terms are taken
into memory: they are read in full, and their nesting is bounded. The
first engine in the order of the text is the one that counts.
-/
import Provision.Genesis
import Provision.Account.Layout
import Provision.Engine.Layout
import Provision.Fork.Layout

namespace Provision.Genesis

open Json

/-! ## Shared terms -/

namespace Terms

/-- The fields of the shared terms. -/
inductive Field where
  | accounts
  | networkId
  | chainId
  | coinbase
  | difficulty
  | mixHash
  | nonce
  | timestamp
  | gasLimit
  | forks
deriving DecidableEq, Repr

/-- The fields in their order. -/
def Field.all : List Field :=
  [.accounts, .networkId, .chainId, .coinbase, .difficulty, .mixHash, .nonce, .timestamp,
   .gasLimit, .forks]

/-- The name of a field. -/
def Field.name : Field → String
  | .accounts => "accounts"
  | .networkId => "networkId"
  | .chainId => "chainId"
  | .coinbase => "coinbase"
  | .difficulty => "difficulty"
  | .mixHash => "mixHash"
  | .nonce => "nonce"
  | .timestamp => "timestamp"
  | .gasLimit => "gasLimit"
  | .forks => "forks"

/-- The type of the value of a field. -/
def Field.Value : Field → Type
  | .accounts => List Account
  | .networkId => UInt64
  | .chainId => UInt64
  | .coinbase => Address
  | .difficulty => HexText
  | .mixHash => Hash
  | .nonce => HexText
  | .timestamp => HexText
  | .gasLimit => HexText
  | .forks => ForkSchedule

/-- How the value of a field is written and read. -/
def Field.slot : (f : Field) → Slot f.Value
  | .accounts => .always (.list Account.layout.codec)
  | .networkId => .always .uint64
  | .chainId => .always .uint64
  | .coinbase => .always (.fixedBytes 20)
  | .difficulty => .always .hexText
  | .mixHash => .always (.fixedBytes 32)
  | .nonce => .always .hexText
  | .timestamp => .always .hexText
  | .gasLimit => .always .hexText
  | .forks => .always ForkSchedule.layout.codec

/-- The fields that must be there. -/
def Field.required : Field → Bool
  | .networkId | .chainId => true
  | _ => false

/-- The value of a field. -/
def get (x : Terms) : (f : Field) → f.Value
  | .accounts => x.accounts
  | .networkId => x.networkId
  | .chainId => x.chainId
  | .coinbase => x.coinbase
  | .difficulty => x.difficulty
  | .mixHash => x.mixHash
  | .nonce => x.nonce
  | .timestamp => x.timestamp
  | .gasLimit => x.gasLimit
  | .forks => x.forks

/-- The shared terms of these values. -/
def make (v : (f : Field) → f.Value) : Terms where
  accounts := v .accounts
  networkId := v .networkId
  chainId := v .chainId
  coinbase := v .coinbase
  difficulty := v .difficulty
  mixHash := v .mixHash
  nonce := v .nonce
  timestamp := v .timestamp
  gasLimit := v .gasLimit
  forks := v .forks

/-- How the shared terms is written and read. -/
def layout : Layout Terms where
  Field := Field
  title := "struct GenesisSpec"
  fields := Field.all
  name := Field.name
  Value := Field.Value
  slot := Field.slot
  get := get
  make := make
  required := Field.required
  template := { networkId := 0, chainId := 0 }

theorem Field.find?_name (f : Field) : Field.all.find? (fun g => g.name = f.name) = some f := by
  cases f <;> decide

theorem layout_lawful : layout.Lawful where
  fields_nodup := (by decide : Field.all.Nodup)
  field?_name := Field.find?_name
  slot_lawful f := by
    cases f
    case accounts => exact Slot.always_lawful (Codec.list_lawful Account.layout_lawful.codec_lawful)
    case networkId => exact Slot.always_lawful Codec.uint64_lawful
    case chainId => exact Slot.always_lawful Codec.uint64_lawful
    case coinbase => exact Slot.always_lawful (Codec.fixedBytes_lawful 20)
    case mixHash => exact Slot.always_lawful (Codec.fixedBytes_lawful 32)
    case forks => exact Slot.always_lawful ForkSchedule.layout_lawful.codec_lawful
    all_goals exact Slot.always_lawful Codec.hexText_lawful
  left_out f v h := by
    cases f
    all_goals exact (Slot.always_ne_none h).elim
  make_get _ := rfl

end Terms

/-! ## The engine -/

/-- The members of a genesis: its terms, and then its engine. -/
def encodeMembers (g : Genesis) : List (String × Json) :=
  Terms.layout.encodeMembers g.toTerms Terms.layout.fields ++ [(g.engine.key, g.engine.encode)]

/-- The object of a genesis. -/
def encode (g : Genesis) : Json :=
  .obj g.encodeMembers

/-- An engine that has been met: its reader, and its parameters in memory. -/
abbrev MetEngine := Decoder Engine × Source

/-- Takes a member that is no shared term into memory, and keeps it if it
is the first engine. -/
def meetMember (room : Nat) (met : Option MetEngine) (name : String) (value : Source) :
    Except Halt (Option MetEngine) :=
  match value.hold room with
  | .error f => fail f
  | .ok value =>
    match met, Engine.decoders.lookup name with
    | none, some decode => .ok (some (decode, value))
    | met, _ => .ok met

/-- Reads a genesis, where the members it takes into memory may be nested
in fewer than `room` brackets. -/
def decode (room : Nat) : Decoder Genesis
  | .object members closing => do
    let (found, met) ← Terms.layout.takeMembers (meetMember room) members
      Terms.layout.noValues none
    proceed closing.wanted
    let terms ← Terms.layout.build Terms.layout.missing found
    match met with
    | none => refuse (.noVariant "ConsensusConfig")
    | some (decodeEngine, value) => do
      let engine ← decodeEngine value
      .ok { terms with engine := engine }
  | s => mismatch "struct GenesisSpec" s

/-- One more than the number of brackets that may enclose a part of a
member that is taken into memory. -/
def nestingLimit : Nat := 128

/-- The codec of a genesis. -/
def codec (room : Nat) : Codec Genesis := ⟨encode, decode room⟩

/-- **Reading undoes writing**, where there is room for an engine. -/
theorem codec_lawful {room : Nat} (hroom : 2 < room) : (codec room).Lawful := fun e he g => by
  have hw : e.wanted = none := he
  obtain ⟨decodeEngine, hkey, hdecode⟩ := g.engine.decoder_lawful
  have hfield : Terms.layout.field? g.engine.key = none := by
    cases g.engine <;> rfl
  have hhold : (Source.ofJson e g.engine.encode).hold room = .ok (.ofJson .held g.engine.encode) :=
    Source.hold_ofJson he _ (Nat.lt_of_le_of_lt g.engine.depth_encode hroom)
  have hmembers : Source.ofMembers e g.encodeMembers =
      Source.ofMembers e (Terms.layout.encodeMembers g.toTerms Terms.layout.fields) ++
        [(some g.engine.key, Source.ofJson e g.engine.encode)] :=
    Source.ofMembers_append ..
  have htake := Terms.layout_lawful.takeMembers_encodeMembers he (meetMember room) g.toTerms none
    [(some g.engine.key, Source.ofJson e g.engine.encode)] Terms.layout.fields
    Terms.layout.noValues Terms.layout_lawful.fields_nodup (fun _ _ => rfl)
  have hall : (fun f => if f ∈ Terms.layout.fields then Terms.layout.shown g.toTerms f
      else Terms.layout.noValues f) = Terms.layout.shown g.toTerms := by
    funext f
    simp [Terms.layout_lawful.mem_fields f]
  rw [hall] at htake
  simp only [Layout.takeMembers, readKey, hfield, meetMember,
    hhold, hkey, bind, Except.bind] at htake
  simp only [codec, encode, Source.ofJson, decode, hmembers, htake, hw, proceed, bind, Except.bind,
    Terms.layout_lawful.build_shown, hdecode .held Closing.isWhole_held]

/-- Reads the text of a genesis. -/
def ofText (text : String) : Except Failure Genesis :=
  decodeDocument (decode (nestingLimit - 1)) text

end Provision.Genesis
