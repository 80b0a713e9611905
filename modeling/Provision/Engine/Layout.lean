/-
Provision.Engine.Layout — consensus engines as JSON.

An engine is written as one member: its name and the object of its
parameters. Parameters that are left out have the values of a new engine;
only the signers or validators must be given.
-/
import Provision.Engine
import Provision.Json.Layout

namespace Provision

open Json

/-! ## Ethash -/

namespace Ethash

/-- The fields of an Ethash engine. -/
inductive Field where
  | fixedDifficulty
deriving DecidableEq, Repr

/-- The fields in their order. -/
def Field.all : List Field :=
  [.fixedDifficulty]

/-- The name of a field. -/
def Field.name : Field → String
  | .fixedDifficulty => "fixedDifficulty"

/-- The type of the value of a field. -/
def Field.Value : Field → Type
  | .fixedDifficulty => Option UInt64

/-- How the value of a field is written and read. -/
def Field.slot : (f : Field) → Slot f.Value
  | .fixedDifficulty => .optional .uint64

/-- The value of a field. -/
def get (x : Ethash) : (f : Field) → f.Value
  | .fixedDifficulty => x.fixedDifficulty

/-- The Ethash engine of these values. -/
def make (v : (f : Field) → f.Value) : Ethash where
  fixedDifficulty := v .fixedDifficulty

/-- How an Ethash engine is written and read. -/
def layout : Layout Ethash where
  Field := Field
  title := "struct EthashConfig"
  fields := Field.all
  name := Field.name
  Value := Field.Value
  slot := Field.slot
  get := get
  make := make
  required := fun _ => false
  template := {}

theorem Field.find?_name (f : Field) : Field.all.find? (fun g => g.name = f.name) = some f := by
  cases f
  decide

theorem layout_lawful : layout.Lawful where
  fields_nodup := (by decide : Field.all.Nodup)
  field?_name := Field.find?_name
  slot_lawful f := by
    cases f
    · exact Slot.optional_lawful Codec.uint64_lawful fun _ => nofun
  left_out f v h := by
    cases f
    case fixedDifficulty => exact ⟨rfl, (Slot.eq_none_of_left_out h).symm⟩
  make_get _ := rfl

end Ethash

/-! ## Clique -/

namespace Clique

/-- The fields of a Clique engine. -/
inductive Field where
  | blockPeriod
  | epochLength
  | signers
deriving DecidableEq, Repr

/-- The fields in their order. -/
def Field.all : List Field :=
  [.blockPeriod, .epochLength, .signers]

/-- The name of a field. -/
def Field.name : Field → String
  | .blockPeriod => "blockPeriod"
  | .epochLength => "epochLength"
  | .signers => "signers"

/-- The type of the value of a field. -/
def Field.Value : Field → Type
  | .blockPeriod => UInt64
  | .epochLength => UInt64
  | .signers => List Address

/-- How the value of a field is written and read. -/
def Field.slot : (f : Field) → Slot f.Value
  | .blockPeriod => .always .uint64
  | .epochLength => .always .uint64
  | .signers => .always (.list (.fixedBytes 20))

/-- The fields that must be there. -/
def Field.required : Field → Bool
  | .signers => true
  | _ => false

/-- The value of a field. -/
def get (x : Clique) : (f : Field) → f.Value
  | .blockPeriod => x.blockPeriod
  | .epochLength => x.epochLength
  | .signers => x.signers

/-- The Clique engine of these values. -/
def make (v : (f : Field) → f.Value) : Clique where
  blockPeriod := v .blockPeriod
  epochLength := v .epochLength
  signers := v .signers

/-- How a Clique engine is written and read. -/
def layout : Layout Clique where
  Field := Field
  title := "struct CliqueConfig"
  fields := Field.all
  name := Field.name
  Value := Field.Value
  slot := Field.slot
  get := get
  make := make
  required := Field.required
  template := { signers := [] }

theorem Field.find?_name (f : Field) : Field.all.find? (fun g => g.name = f.name) = some f := by
  cases f <;> decide

theorem layout_lawful : layout.Lawful where
  fields_nodup := (by decide : Field.all.Nodup)
  field?_name := Field.find?_name
  slot_lawful f := by
    cases f
    · exact Slot.always_lawful Codec.uint64_lawful
    · exact Slot.always_lawful Codec.uint64_lawful
    · exact Slot.always_lawful (Codec.list_lawful (Codec.fixedBytes_lawful 20))
  left_out f v h := by
    cases f
    all_goals exact (Slot.always_ne_none h).elim
  make_get _ := rfl

end Clique

/-! ## Istanbul -/

namespace Istanbul

/-- The fields of an Istanbul engine. -/
inductive Field where
  | blockPeriod
  | epochLength
  | requestTimeout
  | messageQueueLimit
  | duplicateMessageLimit
  | futureMessagesLimit
  | futureMessagesMaxDistance
  | validators
deriving DecidableEq, Repr

/-- The fields in their order. -/
def Field.all : List Field :=
  [.blockPeriod, .epochLength, .requestTimeout, .messageQueueLimit, .duplicateMessageLimit,
   .futureMessagesLimit, .futureMessagesMaxDistance, .validators]

/-- The name of a field. -/
def Field.name : Field → String
  | .blockPeriod => "blockPeriod"
  | .epochLength => "epochLength"
  | .requestTimeout => "requestTimeout"
  | .messageQueueLimit => "messageQueueLimit"
  | .duplicateMessageLimit => "duplicateMessageLimit"
  | .futureMessagesLimit => "futureMessagesLimit"
  | .futureMessagesMaxDistance => "futureMessagesMaxDistance"
  | .validators => "validators"

/-- The type of the value of a field. -/
def Field.Value : Field → Type
  | .blockPeriod => UInt64
  | .epochLength => UInt64
  | .requestTimeout => UInt64
  | .messageQueueLimit => UInt64
  | .duplicateMessageLimit => UInt64
  | .futureMessagesLimit => UInt64
  | .futureMessagesMaxDistance => UInt64
  | .validators => List Address

/-- How the value of a field is written and read. -/
def Field.slot : (f : Field) → Slot f.Value
  | .blockPeriod => .always .uint64
  | .epochLength => .always .uint64
  | .requestTimeout => .always .uint64
  | .messageQueueLimit => .always .uint64
  | .duplicateMessageLimit => .always .uint64
  | .futureMessagesLimit => .always .uint64
  | .futureMessagesMaxDistance => .always .uint64
  | .validators => .always (.list (.fixedBytes 20))

/-- The fields that must be there. -/
def Field.required : Field → Bool
  | .validators => true
  | _ => false

/-- The value of a field. -/
def get (x : Istanbul) : (f : Field) → f.Value
  | .blockPeriod => x.blockPeriod
  | .epochLength => x.epochLength
  | .requestTimeout => x.requestTimeout
  | .messageQueueLimit => x.messageQueueLimit
  | .duplicateMessageLimit => x.duplicateMessageLimit
  | .futureMessagesLimit => x.futureMessagesLimit
  | .futureMessagesMaxDistance => x.futureMessagesMaxDistance
  | .validators => x.validators

/-- The Istanbul engine of these values. -/
def make (v : (f : Field) → f.Value) : Istanbul where
  blockPeriod := v .blockPeriod
  epochLength := v .epochLength
  requestTimeout := v .requestTimeout
  messageQueueLimit := v .messageQueueLimit
  duplicateMessageLimit := v .duplicateMessageLimit
  futureMessagesLimit := v .futureMessagesLimit
  futureMessagesMaxDistance := v .futureMessagesMaxDistance
  validators := v .validators

/-- How an Istanbul engine is written and read. -/
def layout : Layout Istanbul where
  Field := Field
  title := "struct Ibft2Config"
  fields := Field.all
  name := Field.name
  Value := Field.Value
  slot := Field.slot
  get := get
  make := make
  required := Field.required
  template := { validators := [] }

theorem Field.find?_name (f : Field) : Field.all.find? (fun g => g.name = f.name) = some f := by
  cases f <;> decide

theorem layout_lawful : layout.Lawful where
  fields_nodup := (by decide : Field.all.Nodup)
  field?_name := Field.find?_name
  slot_lawful f := by
    cases f
    case validators => exact Slot.always_lawful (Codec.list_lawful (Codec.fixedBytes_lawful 20))
    all_goals exact Slot.always_lawful Codec.uint64_lawful
  left_out f v h := by
    cases f
    all_goals exact (Slot.always_ne_none h).elim
  make_get _ := rfl

end Istanbul

/-! ## Engines -/

namespace Engine

/-- The key of an engine among the members of a genesis. -/
def key : Engine → String
  | .ethash _ => "ethash"
  | .clique _ => "clique"
  | .istanbul _ => "ibft2"

/-- The object of an engine's parameters. -/
def encode : Engine → Json
  | .ethash c => Ethash.layout.encode c
  | .clique c => Clique.layout.encode c
  | .istanbul c => Istanbul.layout.encode c

/-- The keys under which an engine may stand, with the readers of its
parameters. -/
def decoders : List (String × Decoder Engine) :=
  [("ethash", fun s => (Ethash.layout.decode s).map .ethash),
   ("clique", fun s => (Clique.layout.decode s).map .clique),
   ("ibft2", fun s => (Istanbul.layout.decode s).map .istanbul)]

/-- An engine is read back by the reader that stands under its key. -/
theorem decoder_lawful (g : Engine) : ∃ decode, decoders.lookup g.key = some decode ∧
    ∀ e : Closing, e.IsWhole → decode (.ofJson e g.encode) = .ok g := by
  cases g with
  | ethash c =>
    exact ⟨_, rfl, fun e he => by simp [encode, Ethash.layout_lawful.decode_encode he, Except.map]⟩
  | clique c =>
    exact ⟨_, rfl, fun e he => by simp [encode, Clique.layout_lawful.decode_encode he, Except.map]⟩
  | istanbul c =>
    exact ⟨_, rfl, fun e he => by
      simp [encode, Istanbul.layout_lawful.decode_encode he, Except.map]⟩

theorem itemsDepth_texts {β : Type} (text : β → String) (l : List β) :
    Json.itemsDepth (l.map fun b => .str (text b)) = 0 := by
  induction l with
  | nil => rfl
  | cons b l ih => simp [Json.itemsDepth, Json.depth, ih]

/-- The parameters of an engine are nested at most twice. -/
theorem depth_encode (g : Engine) : g.encode.depth ≤ 2 := by
  have hlist (l : List Address) : ((Codec.fixedBytes 20).list.write l).depth = 1 := by
    simp [Codec.list, Codec.fixedBytes, Json.depth, itemsDepth_texts]
  cases g with
  | ethash c =>
    show (Ethash.layout.encode c).depth ≤ 1 + 1
    refine Ethash.layout.depth_encode c fun f j h => ?_
    cases f
    obtain ⟨n, -, rfl⟩ := Option.map_eq_some_iff.mp h
    exact Nat.zero_le 1
  | clique c =>
    show (Clique.layout.encode c).depth ≤ 1 + 1
    refine Clique.layout.depth_encode c fun f j h => ?_
    cases f
    case signers =>
      obtain rfl := Option.some.inj h
      exact Nat.le_of_eq (hlist c.signers)
    all_goals
      obtain rfl := Option.some.inj h
      exact Nat.zero_le 1
  | istanbul c =>
    show (Istanbul.layout.encode c).depth ≤ 1 + 1
    refine Istanbul.layout.depth_encode c fun f j h => ?_
    cases f
    case validators =>
      obtain rfl := Option.some.inj h
      exact Nat.le_of_eq (hlist c.validators)
    all_goals
      obtain rfl := Option.some.inj h
      exact Nat.zero_le 1

end Engine

/-- The codec of the names of consensuses. -/
def Consensus.codec : Codec Consensus :=
  .named Consensus.name Consensus.all

theorem Consensus.codec_lawful : Consensus.codec.Lawful :=
  Codec.named_lawful _ _ (by intro c; cases c <;> decide)
    (by intro a b; cases a <;> cases b <;> decide)

end Provision
