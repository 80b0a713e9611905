/-
Provision.Proofs.Arguments.Enabled — to enable something only adds
arguments.

A node may be switched to offer more, be given what it had not, or be told
of peers where it knew none (`Node.enable`). A rule that applies before
such a change applies after it and adds the same (`Rule.Stays`), so the
command line before is what is left of the command line after when some of
its arguments are left out (`Rule.render_sublist`). OpenEthereum offers
calls unless told not to: its two rules that say so do not stay, and all
others do (`Client.arguments_sublist_enable`).
-/
import Provision.Proofs.Arguments.Rules

namespace Provision

/-! ## More of a node -/

/-- What is switched on, given or listed. -/
structure Enabling where
  rpc : Bool := false
  ws : Bool := false
  graphql : Bool := false
  engine : Bool := false
  miner : Bool := false
  nodePrivateKeySecretName : Option String := none
  jwtSecretName : Option String := none
  importedAccount : Option ImportedAccount := none
  coinbase : Option Address := none
  bootnodes : List Enode := []
  staticNodes : List Enode := []

/-- The node with more enabled: what it has already stays as it is. -/
def Node.enable (n : Node) (e : Enabling) : Node :=
  { n with
    rpc := n.rpc || e.rpc
    ws := n.ws || e.ws
    graphql := n.graphql || e.graphql
    engine := n.engine || e.engine
    miner := n.miner || e.miner
    nodePrivateKeySecretName := n.nodePrivateKeySecretName.or e.nodePrivateKeySecretName
    jwtSecretName := n.jwtSecretName.or e.jwtSecretName
    importedAccount := n.importedAccount.or e.importedAccount
    coinbase := n.coinbase.or e.coinbase
    bootnodes := if n.bootnodes.isEmpty then e.bootnodes else n.bootnodes
    staticNodes := if n.staticNodes.isEmpty then e.staticNodes else n.staticNodes }

/-- A contribution is one of these switches. -/
def Emission.isSwitchAmong (switches : List String) : Emission → Bool
  | .switch flag => flag ∈ switches
  | .fixed _ _ | .value _ _ | .token _ => false

namespace Situation

/-- The situation of the node with more enabled. -/
def enable (s : Situation) (e : Enabling) : Situation :=
  { s with node := s.node.enable e }

variable {s : Situation} {e : Enabling}

/-! ## Values stay -/

@[simp] theorem network_enable :
    (s.enable e).isPrivate = s.isPrivate ∧ (s.enable e).isPublic = s.isPublic ∧
      (s.enable e).publicName = s.publicName ∧ (s.enable e).networkId = s.networkId :=
  ⟨rfl, rfl, rfl, rfl⟩

@[simp] theorem places_enable :
    (s.enable e).dataDirectory = s.dataDirectory ∧ (s.enable e).genesisFile = s.genesisFile ∧
      (s.enable e).staticNodesFile = s.staticNodesFile ∧
      (s.enable e).nodeKeyFile = s.nodeKeyFile ∧ (s.enable e).jwtSecretFile = s.jwtSecretFile ∧
      (s.enable e).passwordFile = s.passwordFile :=
  ⟨rfl, rfl, rfl, rfl, rfl, rfl⟩

@[simp] theorem offers_enable :
    (s.enable e).p2pPort = s.p2pPort ∧ (s.enable e).rpcPort = s.rpcPort ∧
      (s.enable e).wsPort = s.wsPort ∧ (s.enable e).graphqlPort = s.graphqlPort ∧
      (s.enable e).enginePort = s.enginePort ∧ (s.enable e).rpcApi = s.rpcApi ∧
      (s.enable e).wsApi = s.wsApi ∧ (s.enable e).hosts = s.hosts ∧
      (s.enable e).corsDomains = s.corsDomains :=
  ⟨rfl, rfl, rfl, rfl, rfl, rfl, rfl, rfl, rfl⟩

/-! ## Conditions stay -/

@[simp] theorem switched_enable :
    (s.offersRpc = true → (s.enable e).offersRpc = true) ∧
      (s.offersWs = true → (s.enable e).offersWs = true) ∧
      (s.offersGraphql = true → (s.enable e).offersGraphql = true) ∧
      (s.offersEngine = true → (s.enable e).offersEngine = true) ∧
      (s.mines = true → (s.enable e).mines = true) := by
  have hor : ∀ a b : Bool, a = true → (a || b) = true := by decide
  exact ⟨hor _ _, hor _ _, hor _ _, hor _ _, hor _ _⟩

@[simp] theorem hasNodeKey_enable (h : s.hasNodeKey = true) : (s.enable e).hasNodeKey = true := by
  simp only [hasNodeKey] at h
  simp [hasNodeKey, enable, Node.enable, h]

@[simp] theorem hasBootnodes_enable (h : s.hasBootnodes = true) :
    (s.enable e).hasBootnodes = true ∧ (s.enable e).bootnodes = s.bootnodes := by
  simp only [hasBootnodes, Bool.not_eq_true'] at h
  simp [hasBootnodes, bootnodes, enable, Node.enable, h]

@[simp] theorem hasStaticNodes_enable (h : s.hasStaticNodes = true) :
    (s.enable e).hasStaticNodes = true := by
  simp only [hasStaticNodes, Bool.not_eq_true'] at h
  simp [hasStaticNodes, enable, Node.enable, h]

@[simp] theorem checksJwt_enable (h : s.checksJwt = true) : (s.enable e).checksJwt = true := by
  simp only [checksJwt, Bool.and_eq_true] at h
  simp [checksJwt, enable, Node.enable, h]

theorem coinbase_enable (h : s.node.coinbase.isSome = true) :
    (s.enable e).coinbase = s.coinbase := by
  obtain ⟨a, ha⟩ := Option.isSome_iff_exists.mp h
  simp [coinbase, enable, Node.enable, ha]

@[simp] theorem signsBlocks_enable (h : s.signsBlocks = true) :
    (s.enable e).signsBlocks = true ∧ (s.enable e).coinbase = s.coinbase := by
  have hboth := Bool.and_eq_true_iff.mp h
  refine ⟨?_, coinbase_enable hboth.2⟩
  simp [signsBlocks, enable, Node.enable, hboth]

@[simp] theorem unlocksAccount_enable (h : s.unlocksAccount = true) :
    (s.enable e).unlocksAccount = true ∧ (s.enable e).coinbase = s.coinbase := by
  have hboth := Bool.and_eq_true_iff.mp h
  refine ⟨?_, coinbase_enable hboth.2⟩
  simp [unlocksAccount, enable, Node.enable, hboth]

end Situation

namespace Rule

variable {s t : Situation} {table : List Rule}

/-! ## Rules that stay -/

@[simp] theorem emission_always (e : Emission) : (always e).emission = e := rfl

@[simp] theorem emission_given (p : Situation → Bool) (e : Emission) :
    (given p e).emission = e := rfl

/-- A rule that applies in the first situation applies in the second and
adds the same. -/
def Stays (s t : Situation) (r : Rule) : Prop :=
  r.applies s = true → r.applies t = true ∧ r.emission.tokens t = r.emission.tokens s

theorem Stays.sublist {r : Rule} (h : Stays s t r) : (tokens s r).Sublist (tokens t r) := by
  by_cases happlies : r.applies s = true
  · obtain ⟨hstill, hsame⟩ := h happlies
    rw [tokens, tokens, if_pos happlies, if_pos hstill, hsame]
  · rw [tokens, if_neg happlies]
    exact List.nil_sublist _

/-- **Growth**: where every rule stays, the command line only grows. -/
theorem render_sublist (h : ∀ r ∈ table, Stays s t r) :
    (render table s).Sublist (render table t) := by
  induction table with
  | nil => exact List.Sublist.refl _
  | cons r table ih =>
    rw [render_cons, render_cons]
    have hr := h r List.mem_cons_self
    exact hr.sublist.append (ih fun r' hr' => h r' (List.mem_cons_of_mem _ hr'))

section

variable {p : Situation → Bool} {flag text : String} {v : Situation → String}

@[simp] theorem stays_always_value : Stays s t (always (.value flag v)) ↔ v t = v s := by
  simp [Stays, always, Emission.tokens]

@[simp] theorem stays_given_switch :
    Stays s t (given p (.switch flag)) ↔ (p s = true → p t = true) := by
  simp [Stays, given, Emission.tokens]

@[simp] theorem stays_given_fixed :
    Stays s t (given p (.fixed flag text)) ↔ (p s = true → p t = true) := by
  simp [Stays, given, Emission.tokens]

@[simp] theorem stays_given_value :
    Stays s t (given p (.value flag v)) ↔ (p s = true → p t = true ∧ v t = v s) := by
  simp [Stays, given, Emission.tokens]

@[simp] theorem stays_given_token :
    Stays s t (given p (.token v)) ↔ (p s = true → p t = true ∧ v t = v s) := by
  simp [Stays, given, Emission.tokens]

end

/-! ## Rules that are left out -/

theorem render_filter_sublist (table : List Rule) (p : Rule → Bool) (s : Situation) :
    (render (table.filter p) s).Sublist (render table s) := by
  induction table with
  | nil => exact List.Sublist.refl _
  | cons r table ih =>
    rw [List.filter_cons, render_cons]
    split
    · rw [render_cons]
      exact ih.append_left _
    · exact ih.trans (List.sublist_append_right _ _)

/-- What is left of a command line without some switches comes from the other
rules. -/
theorem filter_render_sublist (switches : List String) :
    ((render table s).filter fun a => a ∉ switches).Sublist
      (render (table.filter fun r => !r.emission.isSwitchAmong switches) s) := by
  induction table with
  | nil => exact List.Sublist.refl _
  | cons r table ih =>
    rw [render_cons, List.filter_append, List.filter_cons]
    by_cases hswitch : r.emission.isSwitchAmong switches = true
    · have hgone : (tokens s r).filter (fun a => a ∉ switches) = [] := by
        cases he : r.emission with
        | switch flag =>
          rw [he] at hswitch
          simp only [Emission.isSwitchAmong, decide_eq_true_eq] at hswitch
          unfold tokens
          split <;> simp [he, Emission.tokens, hswitch]
        | fixed flag text | value flag text | token text =>
          rw [he] at hswitch
          cases hswitch
      rw [hgone, if_neg (by simp [hswitch]), List.nil_append]
      exact ih
    · rw [if_pos (by simp [hswitch]), render_cons]
      exact List.filter_sublist.append ih

end Rule

/-! ## The tables of the clients -/

/-- The switches by which OpenEthereum is told to offer no calls. -/
def OpenEthereum.refusals : List String := ["--no-jsonrpc", "--no-ws"]

/-- The rules of OpenEthereum but for those of the refusals. -/
def OpenEthereum.lasting : List Rule :=
  table.filter fun r => !r.emission.isSwitchAmong refusals

section

variable {s : Situation} {e : Enabling}

theorem Besu.offersCalls_enable (h : offersCalls s = true) : offersCalls (s.enable e) = true := by
  simp only [offersCalls, Bool.or_eq_true] at h
  simp only [offersCalls, Situation.enable, Node.enable, Bool.or_eq_true]
  grind

theorem Besu.node_enable :
    offersSyncMode (s.enable e) = offersSyncMode s ∧ syncMode (s.enable e) = syncMode s ∧
      logging (s.enable e) = logging s ∧ rpcApi (s.enable e) = rpcApi s ∧
      wsApi (s.enable e) = wsApi s :=
  ⟨rfl, rfl, rfl, rfl, rfl⟩

theorem Besu.stays_table : ∀ r ∈ table, Rule.Stays s (s.enable e) r := by
  simp +contextual [table, offersCalls_enable, node_enable]

theorem Geth.node_enable :
    joinsOther (s.enable e) = joinsOther s ∧ networkFlag (s.enable e) = networkFlag s ∧
      syncMode (s.enable e) = syncMode s ∧ verbosity (s.enable e) = verbosity s ∧
      configurationFile (s.enable e) = configurationFile s :=
  ⟨rfl, rfl, rfl, rfl, rfl⟩

theorem Geth.stays_table : ∀ r ∈ table, Rule.Stays s (s.enable e) r := by
  simp +contextual [table, node_enable]

theorem Nethermind.node_enable :
    syncsFast (s.enable e) = syncsFast s ∧ syncsSnap (s.enable e) = syncsSnap s ∧
      logLevel (s.enable e) = logLevel s :=
  ⟨rfl, rfl, rfl⟩

theorem Nethermind.stays_table : ∀ r ∈ table, Rule.Stays s (s.enable e) r := by
  simp +contextual [table, node_enable]

theorem OpenEthereum.node_enable :
    syncsFully (s.enable e) = syncsFully s ∧ logging (s.enable e) = logging s ∧
      hosts (s.enable e) = hosts s ∧ corsDomains (s.enable e) = corsDomains s ∧
      reservedPeersFile (s.enable e) = reservedPeersFile s :=
  ⟨rfl, rfl, rfl, rfl, rfl⟩

theorem OpenEthereum.stays_lasting : ∀ r ∈ lasting, Rule.Stays s (s.enable e) r := by
  simp +contextual [table, lasting, refusals, Emission.isSwitchAmong, node_enable]

end

namespace Client

/-- **Enabling**: to switch more on, to give a node what it had not or to
list peers where there were none adds arguments and leaves those that were
there, in their order. Of OpenEthereum's the two may go by which it was
told to offer no calls. -/
theorem arguments_sublist_enable (n : Node) (e : Enabling) (network : Network) :
    (besu.arguments n network).Sublist (besu.arguments (n.enable e) network) ∧
      (geth.arguments n network).Sublist (geth.arguments (n.enable e) network) ∧
      (nethermind.arguments n network).Sublist (nethermind.arguments (n.enable e) network) ∧
      ((openEthereum.arguments n network).filter fun a => a ∉ OpenEthereum.refusals).Sublist
        (openEthereum.arguments (n.enable e) network) ∧
      (Rule.render OpenEthereum.lasting ⟨n, network, openEthereum.homeDirectory⟩).Sublist
        (openEthereum.arguments (n.enable e) network) := by
  have hlasting : (Rule.render OpenEthereum.lasting
      ⟨n, network, openEthereum.homeDirectory⟩).Sublist
        (openEthereum.arguments (n.enable e) network) :=
    (Rule.render_sublist OpenEthereum.stays_lasting).trans (Rule.render_filter_sublist _ _ _)
  refine ⟨Rule.render_sublist Besu.stays_table, Rule.render_sublist Geth.stays_table,
    Rule.render_sublist Nethermind.stays_table, ?_, hlasting⟩
  exact (Rule.filter_render_sublist OpenEthereum.refusals).trans hlasting

end Client

end Provision
