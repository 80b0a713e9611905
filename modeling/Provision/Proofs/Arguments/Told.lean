/-
Provision.Proofs.Arguments.Told — what a client is told.

`ToldAlike` lists what two nodes on their networks must have in common for
a client to be started with the same arguments, no more and no less
(`Client.arguments_eq_iff_toldAlike`): what belongs to a kind of calls
counts only while these are offered, secrets and private networks show
little more than that they exist, and nothing that is told gets lost in
the flat list of tokens. So a client whose nodes differ only in what it is
not meant to see cannot tell them apart (`Client.arguments_eq_of_seenAlike`).
-/
import Provision.Proofs.Arguments.Rules

namespace Provision

/-- The identity of a private network. -/
def Network.networkId? (n : Network) : Option UInt64 := n.genesis.map fun g => g.networkId

/-- The account that the node signs blocks with. -/
def Node.signer? (n : Node) : Option Address := if n.miner then n.coinbase else none

/-- The account that is unlocked when the node starts. -/
def Node.unlocked? (n : Node) : Option Address :=
  if n.importedAccount.isSome then n.coinbase else none

namespace Client

/-- The client answers GraphQL queries. -/
def answersGraphql : Client → Bool
  | .besu | .geth => true
  | .nethermind | .openEthereum => false

/-- A way of catching up, as far as the client makes a difference. -/
def toldSyncMode : Client → SyncMode → SyncMode
  | .nethermind, .light => .full
  | .openEthereum, .light | .openEthereum, .snap => .fast
  | _, mode => mode

/-- A verbosity, as far as the client makes a difference. -/
def toldVerbosity : Client → Verbosity → Verbosity
  | .geth, .fatal | .nethermind, .fatal => .error
  | .geth, .all | .nethermind, .all => .trace
  | _, level => level

/-- A list of hosts or domains in the words of the client, one of which
stands for every host or domain. -/
def toldList : Client → List String → String
  | .openEthereum, ts => ",".intercalate (ts.map fun t => if t = "*" then "all" else t)
  | _, ts => ",".intercalate ts

/-- Two nodes have the same peers and offer the same calls, as far as a
client makes a difference. -/
structure ConnectedAlike (c : Client) (a : Node) (m : Network) (b : Node) (n : Network) :
    Prop where
  isPrivate : m.isPrivate = n.isPrivate
  publicName : m.isPrivate = false → m.publicName = n.publicName
  networkId : c ≠ .nethermind → m.networkId? = n.networkId?
  nodeKey : c ≠ .openEthereum →
    a.nodePrivateKeySecretName.isSome = b.nodePrivateKeySecretName.isSome
  p2pPort : a.p2pPort = b.p2pPort
  bootnodes : a.bootnodes = b.bootnodes
  staticNodes : a.staticNodes.isEmpty = b.staticNodes.isEmpty
  rpc : a.rpc = b.rpc
  rpcPort : a.rpc = true → a.rpcPort = b.rpcPort
  rpcApi : a.rpc = true → a.rpcApi = b.rpcApi
  ws : a.ws = b.ws
  wsPort : a.ws = true → a.wsPort = b.wsPort
  wsApi : c ≠ .nethermind → a.ws = true → a.wsApi = b.wsApi
  graphql : c.answersGraphql = true → a.graphql = b.graphql
  graphqlPort : c = .besu → a.graphql = true → a.graphqlPort = b.graphqlPort
  engine : c ≠ .openEthereum → a.engine = b.engine
  enginePort : c ≠ .openEthereum → a.engine = true → a.enginePort = b.enginePort
  jwtSecret : c ≠ .openEthereum → a.engine = true →
    a.jwtSecretName.isSome = b.jwtSecretName.isSome

/-- A client is told the same of two nodes on their networks. -/
structure ToldAlike (c : Client) (a : Node) (m : Network) (b : Node) (n : Network) :
    Prop extends c.ConnectedAlike a m b n where
  syncMode : c.toldSyncMode a.syncMode = c.toldSyncMode b.syncMode
  logging : c.toldVerbosity a.logging = c.toldVerbosity b.logging
  miner : c ≠ .openEthereum → a.miner = b.miner
  signer : a.signer? = b.signer?
  unlocked : c ≠ .besu → a.unlocked? = b.unlocked?
  hosts : c.tellsHosts a = true → c.toldList a.hosts = c.toldList b.hosts
  corsDomains : c.tellsDomains a = true → c.toldList a.corsDomains = c.toldList b.corsDomains

/-- Two nodes on their networks differ only in what a client is not meant to see. -/
structure SeenAlike (c : Client) (a : Node) (m : Network) (b : Node) (n : Network) : Prop
    extends c.ConnectedAlike a m b n where
  syncMode : a.syncMode = b.syncMode
  logging : a.logging = b.logging
  miner : a.miner = b.miner
  importedAccount : c ≠ .besu → a.importedAccount.isSome = b.importedAccount.isSome
  coinbase : a.miner = true ∨ c ≠ .besu ∧ a.importedAccount.isSome = true →
    a.coinbase = b.coinbase
  hosts : c.tellsHosts a = true → a.hosts = b.hosts
  corsDomains : c.tellsDomains a = true → a.corsDomains = b.corsDomains

/-- A client is told no more than what it is meant to see. -/
theorem SeenAlike.toldAlike {c : Client} {a b : Node} {m n : Network}
    (h : c.SeenAlike a m b n) : c.ToldAlike a m b n where
  toConnectedAlike := h.toConnectedAlike
  syncMode := congrArg c.toldSyncMode h.syncMode
  logging := congrArg c.toldVerbosity h.logging
  miner _ := h.miner
  signer := by
    unfold Node.signer?
    rw [← h.miner]
    split
    · rename_i hminer
      exact h.coinbase (.inl hminer)
    · rfl
  unlocked hc := by
    unfold Node.unlocked?
    rw [← h.importedAccount hc]
    split
    · rename_i himport
      exact h.coinbase (.inr ⟨hc, himport⟩)
    · rfl
  hosts htells := congrArg c.toldList (h.hosts htells)
  corsDomains htells := congrArg c.toldList (h.corsDomains htells)

end Client

/-! ## Conditions and what they give away -/

namespace Situation

variable {s t : Situation}

/-- The places inside a container depend on the home directory alone. -/
theorem places_eq (h : s.home = t.home) :
    s.dataDirectory = t.dataDirectory ∧ (∀ name, s.configFile name = t.configFile name) ∧
      ∀ name, s.secretFile name = t.secretFile name := by
  unfold dataDirectory configFile secretFile
  rw [h]
  exact ⟨rfl, fun _ => rfl, fun _ => rfl⟩

theorem publicName_told :
    (s.isPublic = t.isPublic ∧ (s.isPublic = true → s.publicName = t.publicName)) ↔
      s.isPrivate = t.isPrivate ∧ (s.isPrivate = false → s.publicName = t.publicName) := by
  unfold isPublic isPrivate
  rw [Bool.not_inj_iff, Bool.not_eq_true']

theorem networkId_told :
    (s.isPrivate = t.isPrivate ∧ (s.isPrivate = true → s.networkId = t.networkId)) ↔
      s.network.networkId? = t.network.networkId? := by
  unfold Situation.isPrivate Network.isPrivate Situation.networkId Network.networkId?
  cases s.network.genesis <;> cases t.network.genesis <;> simp [UInt64.toNat_inj]

theorem bootnodes_told :
    (s.hasBootnodes = t.hasBootnodes ∧ (s.hasBootnodes = true → s.bootnodes = t.bootnodes)) ↔
      s.node.bootnodes = t.node.bootnodes := by
  constructor
  · rintro ⟨hhas, hlist⟩
    by_cases h : s.hasBootnodes = true
    · exact Enode.list_injective (hlist h)
    · have h' := hhas ▸ h
      simp only [hasBootnodes, Bool.not_eq_true', Bool.not_eq_false, List.isEmpty_iff] at h h'
      rw [h, h']
  · intro h
    unfold hasBootnodes bootnodes
    rw [h]
    exact ⟨rfl, fun _ => rfl⟩

theorem hasStaticNodes_told :
    s.hasStaticNodes = t.hasStaticNodes ↔
      s.node.staticNodes.isEmpty = t.node.staticNodes.isEmpty :=
  Bool.not_inj_iff

theorem checksJwt_told (hengine : s.node.engine = t.node.engine) :
    s.checksJwt = t.checksJwt ↔ (s.node.engine = true →
      s.node.jwtSecretName.isSome = t.node.jwtSecretName.isSome) := by
  unfold checksJwt
  rw [← hengine]
  cases s.node.engine <;> simp

/-- What two kinds of calls share is told where one of them is offered. -/
theorem or_imp_iff {p q : Bool} {P : Prop} :
    ((p || q) = true → P) ↔ (p = true → P) ∧ (q = true → P) := by
  rw [Bool.or_eq_true, or_imp]

theorem signsBlocks_eq : s.signsBlocks = s.node.signer?.isSome := by
  unfold signsBlocks Node.signer?
  cases s.node.miner <;> simp

theorem unlocksAccount_eq : s.unlocksAccount = s.node.unlocked?.isSome := by
  unfold unlocksAccount Node.unlocked?
  cases s.node.importedAccount <;> simp

/-- An account is told in full where there is one. -/
theorem checksumText_told {x y : Option Address} :
    (x.isSome = y.isSome ∧
        (x.isSome = true → x.elim "" Address.checksumText = y.elim "" Address.checksumText)) ↔
      x = y := by
  cases x <;> cases y <;> simp

theorem coinbase_eq_of_signsBlocks (h : s.signsBlocks = true) :
    s.coinbase = s.node.signer?.elim "" Address.checksumText := by
  unfold coinbase Node.signer?
  rw [if_pos (Bool.and_eq_true_iff.mp h).1]

theorem coinbase_eq_of_unlocksAccount (h : s.unlocksAccount = true) :
    s.coinbase = s.node.unlocked?.elim "" Address.checksumText := by
  unfold coinbase Node.unlocked?
  rw [if_pos (Bool.and_eq_true_iff.mp h).1]

theorem signer_told :
    (s.signsBlocks = t.signsBlocks ∧ (s.signsBlocks = true → s.coinbase = t.coinbase)) ↔
      s.node.signer? = t.node.signer? := by
  rw [← checksumText_told, ← signsBlocks_eq, ← signsBlocks_eq]
  refine and_congr_right fun hboth => forall_congr' fun hs => ?_
  rw [coinbase_eq_of_signsBlocks hs, coinbase_eq_of_signsBlocks (hboth ▸ hs)]

theorem unlocked_told :
    (s.unlocksAccount = t.unlocksAccount ∧ (s.unlocksAccount = true → s.coinbase = t.coinbase)) ↔
      s.node.unlocked? = t.node.unlocked? := by
  rw [← checksumText_told, ← unlocksAccount_eq, ← unlocksAccount_eq]
  refine and_congr_right fun hboth => forall_congr' fun hs => ?_
  rw [coinbase_eq_of_unlocksAccount hs, coinbase_eq_of_unlocksAccount (hboth ▸ hs)]

end Situation

/-! ## Besu -/

section

variable {s t : Situation}

theorem Besu.readsBack_table : Rule.ReadsBack table s t :=
  Rule.HaveOwnFlags.readsBack (by decide)

theorem Besu.syncMode_told :
    (offersSyncMode s = offersSyncMode t ∧ (offersSyncMode s = true → syncMode s = syncMode t)) ↔
      s.node.syncMode = t.node.syncMode := by
  unfold offersSyncMode syncMode
  cases s.node.syncMode <;> cases t.node.syncMode <;> decide

theorem Besu.logging_told : logging s = logging t ↔ s.node.logging = t.node.logging := by
  constructor
  · intro h
    exact Verbosity.name_injective
      (Text.toUpper_injective_of_isLower (Verbosity.isLower_name _) (Verbosity.isLower_name _) h)
  · intro h
    unfold logging
    rw [h]

/-- Each rule tells a part of the node or of its network, and the parts
that have to agree settle each rule. -/
theorem Besu.render_eq_iff (hhome : s.home = t.home) :
    Rule.render table s = Rule.render table t ↔
      Client.besu.ToldAlike s.node s.network t.node t.network := by
  rw [readsBack_table.render_eq_iff]
  simp only [table, List.forall_mem_cons, List.not_mem_nil, false_implies, implies_true,
    and_true, true_and, Rule.tokens_always_value_eq_iff, Rule.tokens_given_switch_eq_iff,
    Rule.tokens_given_fixed_eq_iff, Rule.tokens_given_value_eq_iff, Situation.publicName_told,
    Situation.networkId_told, Situation.bootnodes_told, Situation.hasStaticNodes_told,
    Situation.signer_told, syncMode_told, logging_told, Situation.genesisFile,
    Situation.staticNodesFile, Situation.nodeKeyFile, Situation.jwtSecretFile,
    Situation.places_eq hhome, Situation.p2pPort, Situation.rpcPort, Situation.wsPort,
    Situation.graphqlPort, Situation.enginePort, Situation.portText_inj, rpcApi, wsApi,
    Situation.rpcApi, Situation.wsApi, Situation.toUpper_apiText_inj]
  -- One fact is left of each rule that tells anything, in the order of the table.
  constructor
  · intro hfacts
    obtain ⟨hname, hprivate, hid, -, hkey, hp2p, hsync, hlogging, hboot, hstatic, hmines, hsigner,
      hrpc, -, hrpcPort, hrpcApi, hrpcDomains, hws, -, hwsPort, hwsApi, hgraphql, -, hgraphqlPort,
      hgraphqlDomains, hengine, henginePort, hengineHosts, hjwt, hhosts⟩ := hfacts
    exact
      { isPrivate := hprivate
        publicName := hname.2
        networkId := fun _ => hid
        nodeKey := fun _ => hkey
        p2pPort := hp2p
        bootnodes := hboot
        staticNodes := hstatic
        rpc := hrpc
        rpcPort := hrpcPort.2
        rpcApi := hrpcApi.2
        ws := hws
        wsPort := hwsPort.2
        wsApi := fun _ => hwsApi.2
        graphql := fun _ => hgraphql
        graphqlPort := fun _ => hgraphqlPort.2
        engine := fun _ => hengine
        enginePort := fun _ => henginePort.2
        jwtSecret := fun _ => (Situation.checksJwt_told hengine).mp hjwt
        syncMode := hsync
        logging := hlogging
        miner := fun _ => hmines
        signer := hsigner
        unlocked := fun hbesu => absurd rfl hbesu
        hosts := Situation.or_imp_iff.mpr ⟨hhosts.2, hengineHosts.2⟩
        corsDomains := Situation.or_imp_iff.mpr ⟨hrpcDomains.2, hgraphqlDomains.2⟩ }
  · intro h
    have hnethermind : Client.besu ≠ .nethermind := by decide
    have hopen : Client.besu ≠ .openEthereum := by decide
    have hcalls : offersCalls s = offersCalls t := by
      unfold offersCalls
      rw [h.rpc, h.ws, h.graphql rfl]
    have hengine := h.engine hopen
    obtain ⟨hhosts, hengineHosts⟩ := Situation.or_imp_iff.mp h.hosts
    obtain ⟨hrpcDomains, hgraphqlDomains⟩ := Situation.or_imp_iff.mp h.corsDomains
    exact ⟨⟨h.isPrivate, h.publicName⟩, h.isPrivate, h.networkId hnethermind, h.isPrivate,
      h.nodeKey hopen, h.p2pPort, h.syncMode, h.logging, h.bootnodes, h.staticNodes,
      h.miner hopen, h.signer,
      h.rpc, h.rpc, ⟨h.rpc, h.rpcPort⟩, ⟨h.rpc, h.rpcApi⟩, ⟨h.rpc, hrpcDomains⟩,
      h.ws, h.ws, ⟨h.ws, h.wsPort⟩, ⟨h.ws, h.wsApi hnethermind⟩,
      h.graphql rfl, h.graphql rfl, ⟨h.graphql rfl, h.graphqlPort rfl⟩,
      ⟨h.graphql rfl, hgraphqlDomains⟩,
      hengine, ⟨hengine, h.enginePort hopen⟩, ⟨hengine, hengineHosts⟩,
      (Situation.checksJwt_told hengine).mpr (h.jwtSecret hopen), ⟨hcalls, hhosts⟩⟩

/-! ## Geth

The flag of a public network is its name, which may be the name of any
other flag. It is told from those by what follows: a flag of the table is
followed by a value, the flag of a network by another flag.
-/

theorem Geth.haveOwnFlags_drop : Rule.HaveOwnFlags (table.drop 2) := by
  decide

theorem Geth.head_of_mem_flags {f : String} (h : some f ∈ Rule.flags (table.drop 2)) :
    f.toList.head? = some '-' := by
  have hall : ∀ f? ∈ Rule.flags (table.drop 2),
      f?.map (fun f => f.toList.head?) = some (some '-') := by
    decide
  exact Option.some.inj (hall _ h)

/-- Behind the place of the network's flag stand a flag and its value. -/
theorem Geth.render_drop_eq_cons (hhome : s.home = Client.geth.homeDirectory) :
    ∃ flag value rest, Rule.render (table.drop 2) s = flag :: value :: rest ∧
      value.toList.head? ≠ some '-' := by
  have hdrop : table.drop 2 =
      .given Situation.isPrivate (.value "--networkid" Situation.networkId) ::
        .given Situation.isPrivate (.switch "--nodiscover") ::
        .given Situation.hasNodeKey (.value "--nodekey" Situation.nodeKeyFile) ::
        .always (.value "--port" Situation.p2pPort) :: table.drop 6 := rfl
  simp only [hdrop, Rule.render_cons, Rule.tokens_given, Rule.tokens_always, Emission.tokens]
  cases s.isPrivate with
  | true => exact ⟨"--networkid", _, _, rfl, Decimal.head_text_ne_hyphen _⟩
  | false =>
    cases s.hasNodeKey with
    | true =>
      refine ⟨"--nodekey", _, _, rfl, ?_⟩
      rw [Situation.nodeKeyFile, Situation.secretFile, hhome]
      decide
    | false => exact ⟨"--port", _, _, rfl, Decimal.head_text_ne_hyphen _⟩

theorem Geth.joinsOther_of_render_eq (ht : t.home = Client.geth.homeDirectory)
    (heq : Rule.render (table.drop 1) s = Rule.render (table.drop 1) t)
    (hjoins : joinsOther s = true) : joinsOther t = true := by
  by_contra hother
  have hdrop : table.drop 1 = .given joinsOther (.token networkFlag) :: table.drop 2 := rfl
  rw [hdrop, Rule.render_cons, Rule.render_cons, Rule.tokens_given, Rule.tokens_given,
    if_pos hjoins, if_neg hother] at heq
  obtain ⟨flag, value, rest, hrender, hvalue⟩ := render_drop_eq_cons ht
  rw [hrender, List.nil_append, Emission.tokens, List.singleton_append, List.cons.injEq] at heq
  exact hvalue (head_of_mem_flags (Rule.head_render_mem haveOwnFlags_drop heq.2))

theorem Geth.readsBack_table (hs : s.home = Client.geth.homeDirectory)
    (ht : t.home = Client.geth.homeDirectory) : Rule.ReadsBack table s t := by
  refine .cons_always _ (.cons (fun heq => Bool.eq_iff_iff.mpr ⟨?_, ?_⟩)
    haveOwnFlags_drop.readsBack)
  · exact joinsOther_of_render_eq ht heq
  · exact joinsOther_of_render_eq hs heq.symm

/-- The flag of a public network tells its name, and so does the lack of one. -/
theorem Geth.network_told :
    s.isPrivate = t.isPrivate ∧
        (joinsOther s = joinsOther t ∧ (joinsOther s = true → networkFlag s = networkFlag t)) ↔
      s.isPrivate = t.isPrivate ∧ (s.isPrivate = false → s.publicName = t.publicName) := by
  refine and_congr_right fun hprivate => ?_
  have hjoins (u : Situation) :
      joinsOther u = true ↔ u.isPrivate = false ∧ u.publicName ≠ "mainnet" := by
    unfold joinsOther Situation.isPublic Network.isMainnet Situation.isPrivate Situation.publicName
    cases u.network.isPrivate <;> simp
  have hflag : networkFlag s = networkFlag t ↔ s.publicName = t.publicName := by
    unfold networkFlag
    exact String.append_right_inj _
  rw [hflag, Bool.eq_iff_iff, hjoins, hjoins, ← hprivate]
  constructor
  · rintro ⟨hboth, hname⟩ hpublic
    by_cases hmain : s.publicName = "mainnet"
    · have hmain' : t.publicName = "mainnet" := by
        by_contra hother
        exact (hboth.mpr ⟨hpublic, hother⟩).2 hmain
      rw [hmain, hmain']
    · exact hname ⟨hpublic, hmain⟩
  · intro hname
    refine ⟨and_congr_right fun hpublic => ?_, fun h => hname h.1⟩
    rw [hname hpublic]

theorem Geth.verbosity_told :
    verbosity s = verbosity t ↔
      Client.geth.toldVerbosity s.node.logging = Client.geth.toldVerbosity t.node.logging := by
  unfold verbosity
  cases s.node.logging <;> cases t.node.logging <;> decide

theorem Geth.syncMode_told : syncMode s = syncMode t ↔ s.node.syncMode = t.node.syncMode := by
  constructor
  · intro h
    exact SyncMode.name_injective h
  · intro h
    unfold syncMode
    rw [h]

theorem Geth.render_eq_iff (hs : s.home = Client.geth.homeDirectory)
    (ht : t.home = Client.geth.homeDirectory) :
    Rule.render table s = Rule.render table t ↔
      Client.geth.ToldAlike s.node s.network t.node t.network := by
  rw [(readsBack_table hs ht).render_eq_iff]
  simp only [table, List.forall_mem_cons, List.not_mem_nil, false_implies, implies_true,
    and_true, true_and, Rule.tokens_always_value_eq_iff, Rule.tokens_given_switch_eq_iff,
    Rule.tokens_given_fixed_eq_iff, Rule.tokens_given_value_eq_iff,
    Rule.tokens_given_token_eq_iff, Situation.networkId_told, Situation.bootnodes_told,
    Situation.hasStaticNodes_told, Situation.signer_told, Situation.unlocked_told,
    syncMode_told, verbosity_told, configurationFile, Situation.nodeKeyFile,
    Situation.passwordFile, Situation.jwtSecretFile, Situation.places_eq (hs.trans ht.symm),
    Situation.p2pPort, Situation.rpcPort, Situation.wsPort, Situation.enginePort,
    Situation.portText_inj, Situation.rpcApi, Situation.wsApi, Situation.apiText_inj]
  constructor
  · intro hfacts
    obtain ⟨hflag, hid, hprivate, hkey, hp2p, hsync, hverbosity, hboot, hstatic, hunlocked, -, -,
      hmines, hsigner, hrpc, -, hrpcPort, hrpcApi, hrpcHosts, hrpcDomains, hws, -, hwsPort, hwsApi,
      hwsDomains, hgraphql, hgraphqlHosts, hgraphqlDomains, hengine, henginePort, hengineHosts,
      hjwt⟩ := hfacts
    exact
      { isPrivate := hprivate
        publicName := (network_told.mp ⟨hprivate, hflag⟩).2
        networkId := fun _ => hid
        nodeKey := fun _ => hkey
        p2pPort := hp2p
        bootnodes := hboot
        staticNodes := hstatic
        rpc := hrpc
        rpcPort := hrpcPort.2
        rpcApi := hrpcApi.2
        ws := hws
        wsPort := hwsPort.2
        wsApi := fun _ => hwsApi.2
        graphql := fun _ => hgraphql
        graphqlPort := fun hbesu => absurd hbesu (by decide)
        engine := fun _ => hengine
        enginePort := fun _ => henginePort.2
        jwtSecret := fun _ => (Situation.checksJwt_told hengine).mp hjwt
        syncMode := hsync
        logging := hverbosity
        miner := fun _ => hmines
        signer := hsigner
        unlocked := fun _ => hunlocked
        hosts := Situation.or_imp_iff.mpr
          ⟨Situation.or_imp_iff.mpr ⟨hrpcHosts.2, hgraphqlHosts.2⟩, hengineHosts.2⟩
        corsDomains := Situation.or_imp_iff.mpr
          ⟨Situation.or_imp_iff.mpr ⟨hrpcDomains.2, hwsDomains.2⟩, hgraphqlDomains.2⟩ }
  · intro h
    have hbesu : Client.geth ≠ .besu := by decide
    have hnethermind : Client.geth ≠ .nethermind := by decide
    have hopen : Client.geth ≠ .openEthereum := by decide
    have hunlocked := h.unlocked hbesu
    have hunlocks := (Situation.unlocked_told.mpr hunlocked).1
    have hgraphql := h.graphql rfl
    have hengine := h.engine hopen
    obtain ⟨hcallHosts, hengineHosts⟩ := Situation.or_imp_iff.mp h.hosts
    obtain ⟨hrpcHosts, hgraphqlHosts⟩ := Situation.or_imp_iff.mp hcallHosts
    obtain ⟨hcallDomains, hgraphqlDomains⟩ := Situation.or_imp_iff.mp h.corsDomains
    obtain ⟨hrpcDomains, hwsDomains⟩ := Situation.or_imp_iff.mp hcallDomains
    exact ⟨(network_told.mpr ⟨h.isPrivate, h.publicName⟩).2, h.networkId hnethermind, h.isPrivate,
      h.nodeKey hopen, h.p2pPort, h.syncMode, h.logging, h.bootnodes, h.staticNodes,
      hunlocked, hunlocks, hunlocks, h.miner hopen, h.signer,
      h.rpc, h.rpc, ⟨h.rpc, h.rpcPort⟩, ⟨h.rpc, h.rpcApi⟩, ⟨h.rpc, hrpcHosts⟩, ⟨h.rpc, hrpcDomains⟩,
      h.ws, h.ws, ⟨h.ws, h.wsPort⟩, ⟨h.ws, h.wsApi hnethermind⟩, ⟨h.ws, hwsDomains⟩,
      hgraphql, ⟨hgraphql, hgraphqlHosts⟩, ⟨hgraphql, hgraphqlDomains⟩,
      hengine, ⟨hengine, h.enginePort hopen⟩, ⟨hengine, hengineHosts⟩,
      (Situation.checksJwt_told hengine).mpr (h.jwtSecret hopen)⟩

/-! ## Nethermind -/

theorem Nethermind.readsBack_table : Rule.ReadsBack table s t := by
  refine .cons_always _ (.alternatives (fun _ => rfl) (fun _ => rfl) (fun hback => ?_)
    (Rule.HaveOwnFlags.readsBack (by decide)))
  exact (Rule.tokens_given_eq_iff.mp (hback _ List.mem_cons_self)).1

theorem Nethermind.syncMode_told :
    syncsFast s = syncsFast t ∧ syncsSnap s = syncsSnap t ↔
      Client.nethermind.toldSyncMode s.node.syncMode =
        Client.nethermind.toldSyncMode t.node.syncMode := by
  unfold syncsFast syncsSnap
  cases s.node.syncMode <;> cases t.node.syncMode <;> decide

theorem Nethermind.logLevel_told :
    logLevel s = logLevel t ↔
      Client.nethermind.toldVerbosity s.node.logging =
        Client.nethermind.toldVerbosity t.node.logging := by
  unfold logLevel
  cases s.node.logging <;> cases t.node.logging <;> decide

theorem Nethermind.render_eq_iff (hhome : s.home = t.home) :
    Rule.render table s = Rule.render table t ↔
      Client.nethermind.ToldAlike s.node s.network t.node t.network := by
  rw [readsBack_table.render_eq_iff]
  simp only [table, List.forall_mem_cons, List.not_mem_nil, false_implies, implies_true,
    and_true, true_and, Rule.tokens_always_value_eq_iff, Rule.tokens_given_fixed_eq_iff,
    Rule.tokens_given_value_eq_iff, Situation.publicName_told, Situation.bootnodes_told,
    Situation.hasStaticNodes_told, Situation.signer_told, Situation.unlocked_told, logLevel_told,
    Situation.genesisFile, Situation.staticNodesFile, Situation.passwordFile,
    Situation.nodeKeyFile, Situation.jwtSecretFile, Situation.places_eq hhome, Situation.p2pPort,
    Situation.rpcPort, Situation.wsPort, Situation.enginePort, Situation.portText_inj,
    Situation.rpcApi, Situation.apiText_inj]
  constructor
  · intro hfacts
    obtain ⟨hname, hprivate, -, -, hkey, hp2p, -, hfast, -, -, -, hsnap, hlevel, hboot, hstatic,
      hunlocked, -, hmines, hsigner, hrpc, -, hrpcPort, hrpcApi, hws, hwsPort, hengine,
      henginePort, hjwt⟩ := hfacts
    exact
      { isPrivate := hprivate
        publicName := hname.2
        networkId := fun hnethermind => absurd rfl hnethermind
        nodeKey := fun _ => hkey
        p2pPort := hp2p
        bootnodes := hboot
        staticNodes := hstatic
        rpc := hrpc
        rpcPort := hrpcPort.2
        rpcApi := hrpcApi.2
        ws := hws
        wsPort := hwsPort.2
        wsApi := fun hnethermind => absurd rfl hnethermind
        graphql := fun htells => absurd htells Bool.false_ne_true
        graphqlPort := fun hbesu => absurd hbesu (by decide)
        engine := fun _ => hengine
        enginePort := fun _ => henginePort.2
        jwtSecret := fun _ => (Situation.checksJwt_told hengine).mp hjwt
        syncMode := syncMode_told.mp ⟨hfast, hsnap⟩
        logging := hlevel
        miner := fun _ => hmines
        signer := hsigner
        unlocked := fun _ => hunlocked
        hosts := fun htells => absurd htells Bool.false_ne_true
        corsDomains := fun htells => absurd htells Bool.false_ne_true }
  · intro h
    have hbesu : Client.nethermind ≠ .besu := by decide
    have hopen : Client.nethermind ≠ .openEthereum := by decide
    obtain ⟨hfast, hsnap⟩ := syncMode_told.mpr h.syncMode
    have hunlocked := h.unlocked hbesu
    have hengine := h.engine hopen
    exact ⟨⟨h.isPrivate, h.publicName⟩, h.isPrivate, h.isPrivate, h.isPrivate,
      h.nodeKey hopen, h.p2pPort, h.p2pPort, hfast, hfast, hfast, hfast, hsnap, h.logging,
      h.bootnodes, h.staticNodes, hunlocked, (Situation.unlocked_told.mpr hunlocked).1,
      h.miner hopen, h.signer,
      h.rpc, h.rpc, ⟨h.rpc, h.rpcPort⟩, ⟨h.rpc, h.rpcApi⟩,
      h.ws, ⟨h.ws, h.wsPort⟩,
      hengine, ⟨hengine, h.enginePort hopen⟩,
      (Situation.checksJwt_told hengine).mpr (h.jwtSecret hopen)⟩

/-! ## OpenEthereum -/

theorem OpenEthereum.readsBack_table : Rule.ReadsBack table s t := by
  refine .cons_always _ (.alternatives (fun _ => rfl) (fun _ => rfl) (fun hback => ?_)
    (Rule.HaveOwnFlags.readsBack (by decide)))
  exact (Rule.tokens_given_eq_iff.mp (hback _ List.mem_cons_self)).1

theorem OpenEthereum.syncsFully_told :
    syncsFully s = syncsFully t ↔
      Client.openEthereum.toldSyncMode s.node.syncMode =
        Client.openEthereum.toldSyncMode t.node.syncMode := by
  unfold syncsFully
  cases s.node.syncMode <;> cases t.node.syncMode <;> decide

theorem OpenEthereum.logging_told : logging s = logging t ↔ s.node.logging = t.node.logging := by
  constructor
  · intro h
    exact Verbosity.name_injective h
  · intro h
    unfold logging
    rw [h]

theorem OpenEthereum.listText_eq_toldList (ts : List String) :
    listText ts = Client.openEthereum.toldList ts :=
  rfl

theorem OpenEthereum.render_eq_iff (hhome : s.home = t.home) :
    Rule.render table s = Rule.render table t ↔
      Client.openEthereum.ToldAlike s.node s.network t.node t.network := by
  rw [readsBack_table.render_eq_iff]
  simp only [table, List.forall_mem_cons, List.not_mem_nil, false_implies, implies_true,
    and_true, true_and, Rule.tokens_always_value_eq_iff, Rule.tokens_given_switch_eq_iff,
    Rule.tokens_given_fixed_eq_iff, Rule.tokens_given_value_eq_iff, Situation.publicName_told,
    Situation.networkId_told, Situation.bootnodes_told, Situation.hasStaticNodes_told,
    Situation.signer_told, Situation.unlocked_told, syncsFully_told, logging_told,
    Situation.genesisFile, reservedPeersFile, Situation.passwordFile, Situation.places_eq hhome,
    Situation.p2pPort, Situation.rpcPort, Situation.wsPort, Situation.portText_inj,
    Situation.rpcApi, Situation.wsApi, Situation.apiText_inj, hidesRpc, hidesWs,
    Bool.not_inj_iff, hosts, corsDomains, listText_eq_toldList]
  constructor
  · intro hfacts
    obtain ⟨hname, hprivate, hid, -, hp2p, hsync, hlogging, hboot, hstatic, hunlocked, -,
      hsigner, -, hrpc, -, hrpcPort, hrpcApi, hrpcHosts, hrpcDomains, hws, -, hwsPort, hwsApi, hwsHosts,
      hwsDomains⟩ := hfacts
    exact
      { isPrivate := hprivate
        publicName := hname.2
        networkId := fun _ => hid
        nodeKey := fun hopen => absurd rfl hopen
        p2pPort := hp2p
        bootnodes := hboot
        staticNodes := hstatic
        rpc := hrpc
        rpcPort := hrpcPort.2
        rpcApi := hrpcApi.2
        ws := hws
        wsPort := hwsPort.2
        wsApi := fun _ => hwsApi.2
        graphql := fun htells => absurd htells Bool.false_ne_true
        graphqlPort := fun hbesu => absurd hbesu (by decide)
        engine := fun hopen => absurd rfl hopen
        enginePort := fun hopen => absurd rfl hopen
        jwtSecret := fun hopen => absurd rfl hopen
        syncMode := hsync
        logging := hlogging
        miner := fun hopen => absurd rfl hopen
        signer := hsigner
        unlocked := fun _ => hunlocked
        hosts := Situation.or_imp_iff.mpr ⟨hrpcHosts.2, hwsHosts.2⟩
        corsDomains := Situation.or_imp_iff.mpr ⟨hrpcDomains.2, hwsDomains.2⟩ }
  · intro h
    have hbesu : Client.openEthereum ≠ .besu := by decide
    have hnethermind : Client.openEthereum ≠ .nethermind := by decide
    have hunlocked := h.unlocked hbesu
    obtain ⟨hrpcHosts, hwsHosts⟩ := Situation.or_imp_iff.mp h.hosts
    obtain ⟨hrpcDomains, hwsDomains⟩ := Situation.or_imp_iff.mp h.corsDomains
    exact ⟨⟨h.isPrivate, h.publicName⟩, h.isPrivate, h.networkId hnethermind, h.isPrivate,
      h.p2pPort, h.syncMode, h.logging, h.bootnodes, h.staticNodes, hunlocked,
      (Situation.unlocked_told.mpr hunlocked).1, h.signer, (Situation.signer_told.mpr h.signer).1,
      h.rpc, h.rpc, ⟨h.rpc, h.rpcPort⟩, ⟨h.rpc, h.rpcApi⟩, ⟨h.rpc, hrpcHosts⟩, ⟨h.rpc, hrpcDomains⟩,
      h.ws, h.ws, ⟨h.ws, h.wsPort⟩, ⟨h.ws, h.wsApi hnethermind⟩, ⟨h.ws, hwsHosts⟩,
      ⟨h.ws, hwsDomains⟩⟩

end

/-! ## All clients -/

namespace Client

variable {c : Client} {a b : Node} {m n : Network}

/-- **No setting is lost**: two nodes are started with the same arguments
exactly when the client is told the same of them. -/
theorem arguments_eq_iff_toldAlike :
    c.arguments a m = c.arguments b n ↔ c.ToldAlike a m b n := by
  cases c with
  | besu => exact Besu.render_eq_iff rfl
  | geth => exact Geth.render_eq_iff rfl rfl
  | nethermind => exact Nethermind.render_eq_iff rfl
  | openEthereum => exact OpenEthereum.render_eq_iff rfl

/-- **Nothing else is told**: nodes that differ only in what a client is
not meant to see are started with the same arguments. -/
theorem arguments_eq_of_seenAlike (h : c.SeenAlike a m b n) :
    c.arguments a m = c.arguments b n := by
  have htold := h.toldAlike
  cases c with
  | besu =>
    refine (Besu.render_eq_iff ?_).mpr htold
    rfl
  | geth =>
    refine (Geth.render_eq_iff ?_ ?_).mpr htold
    · rfl
    · rfl
  | nethermind =>
    refine (Nethermind.render_eq_iff ?_).mpr htold
    rfl
  | openEthereum =>
    refine (OpenEthereum.render_eq_iff ?_).mpr htold
    rfl

/-- Two nodes of Geth that differ in their images and secrets and in the
settings of what they do not offer, on private networks that have nothing
but their identity in common. -/
theorem arguments_geth_eq :
    geth.arguments
        { client := .geth, ws := true, rpcPort := 1, graphqlPort := 2, enginePort := 3,
          nodePrivateKeySecretName := some "key", jwtSecretName := some "jwt",
          hosts := ["localhost"], coinbase := some (.zero 20) }
        (.founded (.new 1 1337 (.ethash {}))) =
      geth.arguments
        { client := .besu, image := some "geth:latest", ws := true, rpcApi := [],
          nodePrivateKeySecretName := some "other", hosts := ["example.com"] }
        { publicName := "ropsten", genesis := some (.new 2 1337 (.clique { signers := [] })) } :=
  arguments_eq_of_seenAlike
    { isPrivate := by decide
      publicName := by decide
      networkId := fun _ => by decide
      nodeKey := fun _ => by decide
      p2pPort := by decide
      bootnodes := by decide
      staticNodes := by decide
      rpc := by decide
      rpcPort := by decide
      rpcApi := by decide
      ws := by decide
      wsPort := by decide
      wsApi := by decide
      graphql := by decide
      graphqlPort := by decide
      engine := by decide
      enginePort := by decide
      jwtSecret := by decide
      syncMode := by decide
      logging := by decide
      miner := by decide
      importedAccount := by decide
      coinbase := by decide
      hosts := by decide
      corsDomains := by decide }

end Client

end Provision
