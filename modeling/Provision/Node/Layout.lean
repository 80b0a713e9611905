/-
Provision.Node.Layout — node descriptions as JSON.

Every setting may be left out, and has its usual value then.
-/
import Provision.Node
import Provision.Json.Layout

namespace Provision

open Json

/-! ## Choices -/

/-- The codec of the names of clients. -/
def Client.codec : Codec Client :=
  .named Client.name Client.all

theorem Client.codec_lawful : Client.codec.Lawful :=
  Codec.named_lawful _ _ (by intro c; cases c <;> decide)
    (by intro a b; cases a <;> cases b <;> decide)

/-- The codec of the ways of catching up. -/
def SyncMode.codec : Codec SyncMode :=
  .named SyncMode.name SyncMode.all

theorem SyncMode.codec_lawful : SyncMode.codec.Lawful :=
  Codec.named_lawful _ _ (by intro c; cases c <;> decide)
    (by intro a b; cases a <;> cases b <;> decide)

/-- The codec of verbosities. -/
def Verbosity.codec : Codec Verbosity :=
  .named Verbosity.name Verbosity.levels

theorem Verbosity.codec_lawful : Verbosity.codec.Lawful :=
  Codec.named_lawful _ _ (by intro c; cases c <;> decide)
    (by intro a b; cases a <;> cases b <;> decide)

/-- The codec of families of calls. -/
def Api.codec : Codec Api :=
  .named Api.name Api.all

theorem Api.codec_lawful : Api.codec.Lawful :=
  Codec.named_lawful _ _ (by intro c; cases c <;> decide)
    (by intro a b; cases a <;> cases b <;> decide)

/-! ## Peers -/

/-- Reads the address of a peer. -/
def readEnode (s : String) : Except Halt Enode :=
  match Enode.ofText s with
  | .ok e => .ok e
  | .error err => refuse (.refused err)

/-- The codec of the addresses of peers. -/
def Enode.codec : Codec Enode :=
  ⟨fun e => .str e.text, fun s => decodeText s >>= readEnode⟩

theorem Enode.codec_lawful : Enode.codec.Lawful := fun _ _ e => by
  simp [Enode.codec, Source.ofJson, decodeText, readEnode, Enode.ofText_text, bind, Except.bind]

/-! ## Imported accounts -/

namespace ImportedAccount

/-- The fields of an imported account. -/
inductive Field where
  | privateKeySecretName
  | passwordSecretName
deriving DecidableEq, Repr

/-- The fields in their order. -/
def Field.all : List Field :=
  [.privateKeySecretName, .passwordSecretName]

/-- The name of a field. -/
def Field.name : Field → String
  | .privateKeySecretName => "privateKeySecretName"
  | .passwordSecretName => "passwordSecretName"

/-- The type of the value of a field. -/
def Field.Value : Field → Type
  | .privateKeySecretName => String
  | .passwordSecretName => String

/-- How the value of a field is written and read. -/
def Field.slot : (f : Field) → Slot f.Value
  | .privateKeySecretName => .always .text
  | .passwordSecretName => .always .text

/-- The fields that must be there. -/
def Field.required : Field → Bool
  | .privateKeySecretName | .passwordSecretName => true

/-- The value of a field. -/
def get (x : ImportedAccount) : (f : Field) → f.Value
  | .privateKeySecretName => x.privateKeySecretName
  | .passwordSecretName => x.passwordSecretName

/-- The imported account of these values. -/
def make (v : (f : Field) → f.Value) : ImportedAccount where
  privateKeySecretName := v .privateKeySecretName
  passwordSecretName := v .passwordSecretName

/-- How an imported account is written and read. -/
def layout : Layout ImportedAccount where
  Field := Field
  title := "struct ImportedAccount"
  fields := Field.all
  name := Field.name
  Value := Field.Value
  slot := Field.slot
  get := get
  make := make
  required := Field.required
  template := ⟨"", ""⟩

theorem Field.find?_name (f : Field) : Field.all.find? (fun g => g.name = f.name) = some f := by
  cases f <;> decide

theorem layout_lawful : layout.Lawful where
  fields_nodup := (by decide : Field.all.Nodup)
  field?_name := Field.find?_name
  slot_lawful f := by
    cases f
    · exact Slot.always_lawful Codec.text_lawful
    · exact Slot.always_lawful Codec.text_lawful
  left_out f v h := by
    cases f
    all_goals exact (Slot.always_ne_none h).elim
  make_get _ := rfl

end ImportedAccount

/-! ## Nodes -/

namespace Node

/-- The fields of a node. -/
inductive Field where
  | client
  | image
  | syncMode
  | logging
  | p2pPort
  | nodePrivateKeySecretName
  | bootnodes
  | staticNodes
  | rpc
  | rpcPort
  | rpcApi
  | ws
  | wsPort
  | wsApi
  | graphql
  | graphqlPort
  | engine
  | enginePort
  | jwtSecretName
  | hosts
  | corsDomains
  | importedAccount
  | miner
  | coinbase
deriving DecidableEq, Repr

/-- The fields in their order. -/
def Field.all : List Field :=
  [.client, .image, .syncMode, .logging, .p2pPort, .nodePrivateKeySecretName, .bootnodes,
   .staticNodes, .rpc, .rpcPort, .rpcApi, .ws, .wsPort, .wsApi, .graphql, .graphqlPort, .engine,
   .enginePort, .jwtSecretName, .hosts, .corsDomains, .importedAccount, .miner, .coinbase]

/-- The name of a field. -/
def Field.name : Field → String
  | .client => "client"
  | .image => "image"
  | .syncMode => "syncMode"
  | .logging => "logging"
  | .p2pPort => "p2pPort"
  | .nodePrivateKeySecretName => "nodePrivateKeySecretName"
  | .bootnodes => "bootnodes"
  | .staticNodes => "staticNodes"
  | .rpc => "rpc"
  | .rpcPort => "rpcPort"
  | .rpcApi => "rpcApi"
  | .ws => "ws"
  | .wsPort => "wsPort"
  | .wsApi => "wsApi"
  | .graphql => "graphql"
  | .graphqlPort => "graphqlPort"
  | .engine => "engine"
  | .enginePort => "enginePort"
  | .jwtSecretName => "jwtSecretName"
  | .hosts => "hosts"
  | .corsDomains => "corsDomains"
  | .importedAccount => "import"
  | .miner => "miner"
  | .coinbase => "coinbase"

/-- The type of the value of a field. -/
def Field.Value : Field → Type
  | .client => Client
  | .image => Option String
  | .syncMode => SyncMode
  | .logging => Verbosity
  | .p2pPort => UInt16
  | .nodePrivateKeySecretName => Option String
  | .bootnodes => List Enode
  | .staticNodes => List Enode
  | .rpc => Bool
  | .rpcPort => UInt16
  | .rpcApi => List Api
  | .ws => Bool
  | .wsPort => UInt16
  | .wsApi => List Api
  | .graphql => Bool
  | .graphqlPort => UInt16
  | .engine => Bool
  | .enginePort => UInt16
  | .jwtSecretName => Option String
  | .hosts => List String
  | .corsDomains => List String
  | .importedAccount => Option ImportedAccount
  | .miner => Bool
  | .coinbase => Option Address

/-- How the value of a field is written and read. -/
def Field.slot : (f : Field) → Slot f.Value
  | .client => .always Client.codec
  | .image => .optional .text
  | .syncMode => .always SyncMode.codec
  | .logging => .always Verbosity.codec
  | .p2pPort => .always .uint16
  | .nodePrivateKeySecretName => .optional .text
  | .bootnodes => .always (.list Enode.codec)
  | .staticNodes => .always (.list Enode.codec)
  | .rpc => .always .bool
  | .rpcPort => .always .uint16
  | .rpcApi => .always (.list Api.codec)
  | .ws => .always .bool
  | .wsPort => .always .uint16
  | .wsApi => .always (.list Api.codec)
  | .graphql => .always .bool
  | .graphqlPort => .always .uint16
  | .engine => .always .bool
  | .enginePort => .always .uint16
  | .jwtSecretName => .optional .text
  | .hosts => .always (.list .text)
  | .corsDomains => .always (.list .text)
  | .importedAccount => .optional ImportedAccount.layout.codec
  | .miner => .always .bool
  | .coinbase => .optional (.fixedBytes 20)

/-- The value of a field. -/
def get (x : Node) : (f : Field) → f.Value
  | .client => x.client
  | .image => x.image
  | .syncMode => x.syncMode
  | .logging => x.logging
  | .p2pPort => x.p2pPort
  | .nodePrivateKeySecretName => x.nodePrivateKeySecretName
  | .bootnodes => x.bootnodes
  | .staticNodes => x.staticNodes
  | .rpc => x.rpc
  | .rpcPort => x.rpcPort
  | .rpcApi => x.rpcApi
  | .ws => x.ws
  | .wsPort => x.wsPort
  | .wsApi => x.wsApi
  | .graphql => x.graphql
  | .graphqlPort => x.graphqlPort
  | .engine => x.engine
  | .enginePort => x.enginePort
  | .jwtSecretName => x.jwtSecretName
  | .hosts => x.hosts
  | .corsDomains => x.corsDomains
  | .importedAccount => x.importedAccount
  | .miner => x.miner
  | .coinbase => x.coinbase

/-- The node of these values. -/
def make (v : (f : Field) → f.Value) : Node where
  client := v .client
  image := v .image
  syncMode := v .syncMode
  logging := v .logging
  p2pPort := v .p2pPort
  nodePrivateKeySecretName := v .nodePrivateKeySecretName
  bootnodes := v .bootnodes
  staticNodes := v .staticNodes
  rpc := v .rpc
  rpcPort := v .rpcPort
  rpcApi := v .rpcApi
  ws := v .ws
  wsPort := v .wsPort
  wsApi := v .wsApi
  graphql := v .graphql
  graphqlPort := v .graphqlPort
  engine := v .engine
  enginePort := v .enginePort
  jwtSecretName := v .jwtSecretName
  hosts := v .hosts
  corsDomains := v .corsDomains
  importedAccount := v .importedAccount
  miner := v .miner
  coinbase := v .coinbase

/-- How a node is written and read. -/
def layout : Layout Node where
  Field := Field
  title := "struct NodeSpec"
  fields := Field.all
  name := Field.name
  Value := Field.Value
  slot := Field.slot
  get := get
  make := make
  required := fun _ => false
  template := {}

theorem Field.find?_name (f : Field) : Field.all.find? (fun g => g.name = f.name) = some f := by
  cases f <;> decide

theorem layout_lawful : layout.Lawful where
  fields_nodup := (by decide : Field.all.Nodup)
  field?_name := Field.find?_name
  slot_lawful f := by
    cases f
    case client => exact Slot.always_lawful Client.codec_lawful
    case image => exact Slot.optional_lawful Codec.text_lawful fun _ => nofun
    case syncMode => exact Slot.always_lawful SyncMode.codec_lawful
    case logging => exact Slot.always_lawful Verbosity.codec_lawful
    case nodePrivateKeySecretName => exact Slot.optional_lawful Codec.text_lawful fun _ => nofun
    case bootnodes => exact Slot.always_lawful (Codec.list_lawful Enode.codec_lawful)
    case staticNodes => exact Slot.always_lawful (Codec.list_lawful Enode.codec_lawful)
    case rpc => exact Slot.always_lawful Codec.bool_lawful
    case rpcApi => exact Slot.always_lawful (Codec.list_lawful Api.codec_lawful)
    case ws => exact Slot.always_lawful Codec.bool_lawful
    case wsApi => exact Slot.always_lawful (Codec.list_lawful Api.codec_lawful)
    case graphql => exact Slot.always_lawful Codec.bool_lawful
    case engine => exact Slot.always_lawful Codec.bool_lawful
    case jwtSecretName => exact Slot.optional_lawful Codec.text_lawful fun _ => nofun
    case hosts => exact Slot.always_lawful (Codec.list_lawful Codec.text_lawful)
    case corsDomains => exact Slot.always_lawful (Codec.list_lawful Codec.text_lawful)
    case importedAccount => exact Slot.optional_lawful ImportedAccount.layout_lawful.codec_lawful fun _ => nofun
    case miner => exact Slot.always_lawful Codec.bool_lawful
    case coinbase => exact Slot.optional_lawful (Codec.fixedBytes_lawful 20) fun _ => nofun
    all_goals exact Slot.always_lawful Codec.uint16_lawful
  left_out f v h := by
    cases f
    case image | nodePrivateKeySecretName | jwtSecretName | importedAccount | coinbase =>
      exact ⟨rfl, (Slot.eq_none_of_left_out h).symm⟩
    all_goals exact (Slot.always_ne_none h).elim
  make_get _ := rfl

/-- Reads the text of a node description. -/
def ofText (text : String) : Except Failure Node :=
  decodeDocument layout.decode text

end Node

end Provision
