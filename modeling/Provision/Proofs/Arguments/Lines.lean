/-
Provision.Proofs.Arguments.Lines — which arguments stand on one line.

Constants, numbers, names, accounts and the addresses of peers hold no
newline. That leaves the free texts of a description: the name of a public
network, hosts and domains. A command line has one argument on each line
when those that it tells of have no newline (`forall_isLine_arguments_iff`).
-/
import Provision.Arguments
import Provision.Proofs.Peer.Characters

namespace Provision

/-! ## Lines -/

/-- A text that stands on one line. -/
def Text.IsLine (t : String) : Prop := '\n' ∉ t.toList

namespace Text

instance (t : String) : Decidable (IsLine t) := inferInstanceAs (Decidable ('\n' ∉ t.toList))

theorem isLine_append {a b : String} : IsLine (a ++ b) ↔ IsLine a ∧ IsLine b := by
  simp [IsLine]

theorem isLine_intercalate {sep : String} (hsep : IsLine sep) {ts : List String} :
    IsLine (sep.intercalate ts) ↔ ∀ t ∈ ts, IsLine t := by
  induction ts with
  | nil => simp [IsLine]
  | cons t ts ih =>
    cases ts with
    | nil => simp
    | cons u ts =>
      rw [String.intercalate_cons_cons, isLine_append, isLine_append, ih]
      simp [hsep]

/-- A text of characters of a kind that newlines are not. -/
theorem isLine_of_forall {p : Char → Bool} (hp : p '\n' = false) {t : String}
    (h : ∀ c ∈ t.toList, p c = true) : IsLine t := by
  intro hmem
  rw [h _ hmem] at hp
  contradiction

theorem toUpper_of_not_ascii {c : Char} (h : 0x80 ≤ c.toNat) : c.toUpper = c := by
  have hz : ¬ ('a'.val ≤ c.val ∧ c.val ≤ 'z'.val) := by
    rintro ⟨-, hle⟩
    have hle' : c.toNat ≤ 122 := UInt32.le_iff_toNat_le.mp hle
    omega
  exact dif_neg hz

theorem toUpper_eq_newline_iff (c : Char) : c.toUpper = '\n' ↔ c = '\n' :=
  Hex.forall_char (P := fun c => c.toUpper = '\n' ↔ c = '\n') (by decide)
    (fun c hc => by rw [toUpper_of_not_ascii hc]) c

theorem isLine_toUpper {t : String} : IsLine t.toUpper ↔ IsLine t := by
  simp [IsLine, String.toUpper, toUpper_eq_newline_iff]

end Text

open Text

theorem Decimal.isLine_text (n : Nat) : IsLine (Decimal.text n) :=
  isLine_of_forall (p := Char.isDigit) (by decide) fun c hc => by
    rw [Decimal.text, String.toList_ofList] at hc
    exact Decimal.isDigit_of_mem_digits hc

theorem Enode.isLine_text (e : Enode) : IsLine e.text :=
  isLine_of_forall (p := isAddressChar) (by decide) fun _ => isAddressChar_of_mem

theorem Api.isLine_name (a : Api) : IsLine a.name := by
  cases a <;> decide

theorem SyncMode.isLine_name (m : SyncMode) : IsLine m.name := by
  cases m <;> decide

theorem Verbosity.isLine_name (v : Verbosity) : IsLine v.name := by
  cases v <;> decide

theorem Client.isLine_homeDirectory (c : Client) : IsLine c.homeDirectory := by
  cases c <;> decide

theorem Address.newline_not_mem_raiseBy {digest ds : List Char} (h : '\n' ∉ ds) :
    '\n' ∉ raiseBy digest ds := by
  induction digest generalizing ds with
  | nil => simp [raiseBy]
  | cons d digest ih =>
    cases ds with
    | nil => simp [raiseBy]
    | cons c ds =>
      obtain ⟨hc, hds⟩ := not_or.mp (mt List.mem_cons.mpr h)
      simp only [raiseBy, List.zipWith_cons_cons, List.mem_cons, not_or]
      refine ⟨fun heq => ?_, ih hds⟩
      split at heq
      · exact hc ((toUpper_eq_newline_iff c).mp heq.symm).symm
      · exact hc heq

theorem Address.isLine_checksumText (a : Address) : IsLine a.checksumText := by
  have hdigits : '\n' ∉ Hex.encode a.bytes := fun hmem =>
    absurd (List.all_eq_true.mp (Hex.encode_all a.bytes) _ hmem) (by decide)
  unfold IsLine checksumText
  simp [newline_not_mem_raiseBy hdigits]

/-! ## Values -/

namespace Situation

variable {s : Situation}

theorem isLine_configFile (h : IsLine s.home) {name : String} (hname : IsLine name) :
    IsLine (s.configFile name) :=
  isLine_append.mpr ⟨isLine_append.mpr ⟨h, by decide⟩, hname⟩

theorem isLine_secretFile (h : IsLine s.home) {name : String} (hname : IsLine name) :
    IsLine (s.secretFile name) :=
  isLine_append.mpr ⟨isLine_append.mpr ⟨h, by decide⟩, hname⟩

theorem isLine_apiText (apis : List Api) : IsLine (apiText apis) := by
  rw [apiText, isLine_intercalate (by decide)]
  intro t ht
  obtain ⟨a, -, rfl⟩ := List.mem_map.mp ht
  exact a.isLine_name

theorem isLine_coinbase : IsLine s.coinbase := by
  unfold coinbase
  cases s.node.coinbase with
  | none => decide
  | some a => exact a.isLine_checksumText

theorem isLine_bootnodes : IsLine s.bootnodes := by
  rw [bootnodes, isLine_intercalate (by decide)]
  intro t ht
  obtain ⟨e, -, rfl⟩ := List.mem_map.mp ht
  exact e.isLine_text

/-- The values that no free text is part of. -/
def closedValues : List (Situation → String) :=
  [dataDirectory, genesisFile, staticNodesFile, nodeKeyFile, jwtSecretFile, passwordFile,
   configFile "config.toml", configFile "static-nodes", networkId, p2pPort, rpcPort, wsPort,
   graphqlPort, enginePort, rpcApi, wsApi, coinbase, bootnodes]

theorem isLine_of_mem_closedValues (h : IsLine s.home) : ∀ f ∈ closedValues, IsLine (f s) := by
  have hnumber := Decimal.isLine_text
  simp only [closedValues, List.forall_mem_cons]
  refine ⟨isLine_append.mpr ⟨h, by decide⟩, isLine_configFile h (by decide),
    isLine_configFile h (by decide), isLine_secretFile h (by decide),
    isLine_secretFile h (by decide), isLine_secretFile h (by decide),
    isLine_configFile h (by decide), isLine_configFile h (by decide), hnumber _, hnumber _,
    hnumber _, hnumber _, hnumber _, hnumber _, isLine_apiText _, isLine_apiText _,
    isLine_coinbase, isLine_bootnodes, nofun⟩

theorem isLine_hosts : IsLine s.hosts ↔ ∀ t ∈ s.node.hosts, IsLine t :=
  isLine_intercalate (by decide)

theorem isLine_corsDomains : IsLine s.corsDomains ↔ ∀ t ∈ s.node.corsDomains, IsLine t :=
  isLine_intercalate (by decide)

end Situation

/-! ## Free texts -/

namespace Client

/-- The client is told the hosts that calls may be addressed to. -/
def tellsHosts : Client → Node → Bool
  | .besu, n => n.rpc || n.ws || n.graphql || n.engine
  | .geth, n => n.rpc || n.graphql || n.engine
  | .nethermind, _ => false
  | .openEthereum, n => n.rpc || n.ws

/-- The client is told the domains that pages with calls may come from. -/
def tellsDomains : Client → Node → Bool
  | .besu, n => n.rpc || n.graphql
  | .geth, n => n.rpc || n.ws || n.graphql
  | .nethermind, _ => false
  | .openEthereum, n => n.rpc || n.ws

/-- The free texts that stand on the client's command line. -/
def freeTexts (c : Client) (node : Node) (network : Network) : List String :=
  (if network.isPrivate then [] else [network.publicName]) ++
    (if c.tellsHosts node then node.hosts else []) ++
    (if c.tellsDomains node then node.corsDomains else [])

theorem forall_mem_freeTexts_iff {c : Client} {node : Node} {network : Network}
    {P : String → Prop} :
    (∀ t ∈ c.freeTexts node network, P t) ↔
      (network.isPrivate = false → P network.publicName) ∧
        (c.tellsHosts node = true → ∀ t ∈ node.hosts, P t) ∧
        (c.tellsDomains node = true → ∀ t ∈ node.corsDomains, P t) := by
  unfold freeTexts
  cases network.isPrivate <;> cases c.tellsHosts node <;> cases c.tellsDomains node <;>
    simp [or_imp, forall_and]

end Client

/-! ## Tables -/

namespace Rule

/-- What holds of all arguments is what every rule that applies contributes. -/
theorem forall_mem_render_iff {P : String → Prop} {table : List Rule} {s : Situation} :
    (∀ t ∈ render table s, P t) ↔
      ∀ r ∈ table, r.applies s = true → ∀ t ∈ r.emission.tokens s, P t := by
  simp only [render, List.mem_flatMap, tokens]
  constructor
  · intro h r hr happlies t ht
    exact h t ⟨r, hr, by rwa [if_pos happlies]⟩
  · rintro h t ⟨r, hr, ht⟩
    split at ht
    · rename_i happlies
      exact h r hr happlies t ht
    · exact nomatch ht

end Rule

section

variable {s : Situation}

theorem Besu.forall_isLine_iff (h : IsLine s.home) :
    (∀ t ∈ Rule.render table s, IsLine t) ↔
      ∀ t ∈ Client.besu.freeTexts s.node s.network, IsLine t := by
  have hclosed := Situation.isLine_of_mem_closedValues h
  simp only [Situation.closedValues, List.forall_mem_cons] at hclosed
  have hsync : IsLine (syncMode s) := by
    unfold syncMode
    split <;> decide
  have hlogging : IsLine (logging s) := isLine_toUpper.mpr (Verbosity.isLine_name _)
  have hrpc : IsLine (rpcApi s) := isLine_toUpper.mpr (Situation.isLine_apiText _)
  have hws : IsLine (wsApi s) := isLine_toUpper.mpr (Situation.isLine_apiText _)
  rw [Rule.forall_mem_render_iff, Client.forall_mem_freeTexts_iff]
  simp +decide only [table, List.forall_mem_cons, List.not_mem_nil, Rule.always, Rule.given,
    Emission.tokens, false_implies, implies_true, and_true, true_and, hclosed, hsync, hlogging,
    hrpc, hws, Situation.anyInterface, Situation.isLine_hosts, Situation.isLine_corsDomains]
  simp only [Situation.isPublic, Situation.publicName, Situation.offersRpc,
    Situation.offersGraphql, Situation.offersEngine, offersCalls, Client.tellsHosts,
    Client.tellsDomains, Bool.not_eq_true', Bool.or_eq_true]
  grind

/-- The main network has no flag, and its name is a line. -/
theorem Geth.isLine_networkFlag_iff :
    (joinsOther s = true → IsLine (networkFlag s)) ↔
      (s.network.isPrivate = false → IsLine s.network.publicName) := by
  constructor
  · intro hflag hpublic
    by_cases hmain : s.network.publicName = "mainnet"
    · rw [hmain]
      decide
    · have hjoins : joinsOther s = true := by
        simp [joinsOther, Situation.isPublic, Network.isMainnet, hpublic, hmain]
      exact (isLine_append.mp (hflag hjoins)).2
  · intro hname hjoins
    simp only [joinsOther, Situation.isPublic, Bool.and_eq_true, Bool.not_eq_true'] at hjoins
    exact isLine_append.mpr ⟨by decide, hname hjoins.1⟩

theorem Geth.forall_isLine_iff (h : IsLine s.home) :
    (∀ t ∈ Rule.render table s, IsLine t) ↔
      ∀ t ∈ Client.geth.freeTexts s.node s.network, IsLine t := by
  have hclosed := Situation.isLine_of_mem_closedValues h
  simp only [Situation.closedValues, List.forall_mem_cons] at hclosed
  have hsync : IsLine (syncMode s) := SyncMode.isLine_name _
  have hverbosity : IsLine (verbosity s) := by
    unfold verbosity
    split <;> decide
  rw [Rule.forall_mem_render_iff, Client.forall_mem_freeTexts_iff]
  simp +decide only [table, List.forall_mem_cons, List.not_mem_nil, Rule.always, Rule.given,
    Emission.tokens, false_implies, implies_true, and_true, true_and, hclosed, hsync, hverbosity,
    configurationFile, isLine_networkFlag_iff, Situation.anyInterface, Situation.isLine_hosts,
    Situation.isLine_corsDomains]
  simp only [Situation.offersRpc, Situation.offersWs, Situation.offersGraphql,
    Situation.offersEngine, Client.tellsHosts, Client.tellsDomains, Bool.or_eq_true]
  grind

theorem Nethermind.forall_isLine_iff (h : IsLine s.home) :
    (∀ t ∈ Rule.render table s, IsLine t) ↔
      ∀ t ∈ Client.nethermind.freeTexts s.node s.network, IsLine t := by
  have hclosed := Situation.isLine_of_mem_closedValues h
  simp only [Situation.closedValues, List.forall_mem_cons] at hclosed
  have hlevel : IsLine (logLevel s) := by
    unfold logLevel
    split <;> decide
  rw [Rule.forall_mem_render_iff, Client.forall_mem_freeTexts_iff]
  simp +decide only [table, List.forall_mem_cons, List.not_mem_nil, Rule.always, Rule.given,
    Emission.tokens, false_implies, implies_true, and_true, true_and, hclosed, hlevel,
    Situation.anyInterface]
  simp only [Situation.isPublic, Situation.publicName, Client.tellsHosts, Client.tellsDomains,
    Bool.not_eq_true', Bool.false_eq_true, false_implies, and_true]

theorem OpenEthereum.isLine_listText {values : List String} :
    IsLine (listText values) ↔ ∀ t ∈ values, IsLine t := by
  have hevery (v : String) : IsLine (if v = "*" then every else v) ↔ IsLine v := by
    split
    · rename_i hv
      rw [hv]
      decide
    · rfl
  rw [listText, isLine_intercalate (by decide), List.forall_mem_map]
  simp only [hevery]

theorem OpenEthereum.forall_isLine_iff (h : IsLine s.home) :
    (∀ t ∈ Rule.render table s, IsLine t) ↔
      ∀ t ∈ Client.openEthereum.freeTexts s.node s.network, IsLine t := by
  have hclosed := Situation.isLine_of_mem_closedValues h
  simp only [Situation.closedValues, List.forall_mem_cons] at hclosed
  have hlogging : IsLine (logging s) := Verbosity.isLine_name _
  rw [Rule.forall_mem_render_iff, Client.forall_mem_freeTexts_iff]
  simp +decide only [table, List.forall_mem_cons, List.not_mem_nil, Rule.always, Rule.given,
    Emission.tokens, false_implies, implies_true, and_true, true_and, hclosed, hlogging,
    reservedPeersFile, every, hosts, corsDomains, isLine_listText]
  simp only [Situation.isPublic, Situation.publicName, Situation.offersRpc, Situation.offersWs,
    Client.tellsHosts, Client.tellsDomains, Bool.not_eq_true', Bool.or_eq_true]
  grind

end

/-- The arguments stand on one line each when the free texts among them do. -/
theorem Client.forall_isLine_arguments_iff (c : Client) (node : Node) (network : Network) :
    (∀ t ∈ c.arguments node network, IsLine t) ↔ ∀ t ∈ c.freeTexts node network, IsLine t := by
  have hhome := c.isLine_homeDirectory
  cases c with
  | besu => exact Besu.forall_isLine_iff hhome
  | geth => exact Geth.forall_isLine_iff hhome
  | nethermind => exact Nethermind.forall_isLine_iff hhome
  | openEthereum => exact OpenEthereum.forall_isLine_iff hhome

end Provision
