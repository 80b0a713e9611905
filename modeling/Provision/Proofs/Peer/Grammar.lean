/-
Provision.Proofs.Peer.Grammar — the texts that are the address of a peer.

An address is made of parts (`Parts`) that are written one after the other.
The reader has to find the parts again: it cuts at the first `@`, at the
first `?` and at the last colon. None of these marks stands where it would
mislead the reader, although an IPv6 address is full of colons, so the
addresses are the texts written from parts that fit (`isEnode_iff`).

Parts fit when the host has one of its forms and the ports are ports. What a
port is, is left open in `Parts.Fit`: the reader of numbers takes a plus sign
in front of one (`SignedPort`), which no address should have
(`DecimalPort`).
-/
import Provision.Peer.Enode
import Provision.Proofs.Peer.Host

namespace Provision.Enode

/-! ## Ports -/

/-- At least one digit, for a number of 16 bits. -/
structure DecimalPort (s : List Char) : Prop where
  nonempty : s ≠ []
  digits : ∀ c ∈ s, c.isDigit = true
  value : Decimal.value s ≤ 65535

/-- The same with perhaps a plus sign in front. -/
def SignedPort (s : List Char) : Prop :=
  DecimalPort s ∨ ∃ port, s = '+' :: port ∧ DecimalPort port

theorem DecimalPort.signed {s : List Char} (h : DecimalPort s) : SignedPort s :=
  .inl h

/-- Without a plus sign a port is its digits. -/
theorem SignedPort.decimal {s : List Char} (h : SignedPort s) (hplus : '+' ∉ s) :
    DecimalPort s := by
  obtain h | ⟨port, rfl, -⟩ := h
  · exact h
  · exact absurd List.mem_cons_self hplus

theorem DecimalPort.plus_not_mem {s : List Char} (h : DecimalPort s) : '+' ∉ s :=
  fun hplus => absurd (h.digits '+' hplus) (by decide)

theorem SignedPort.char {s : List Char} (h : SignedPort s) {c : Char} (hc : c ∈ s) :
    c.isDigit = true ∨ c = '+' := by
  obtain h | ⟨port, rfl, h⟩ := h
  · exact .inl (h.digits c hc)
  · obtain rfl | hc := List.mem_cons.mp hc
    · exact .inr rfl
    · exact .inl (h.digits c hc)

theorem isPort_iff_dropPlus {s : List Char} :
    isPort s = true ↔ DecimalPort (Decimal.dropPlus s) := by
  simp only [isPort, Option.isSome_iff_exists, Decimal.readBelow_eq_some_iff, List.all_eq_true]
  constructor
  · rintro ⟨n, hne, hdigits, rfl, hlt⟩
    exact ⟨hne, hdigits, Nat.le_of_lt_succ hlt⟩
  · rintro ⟨hne, hdigits, hle⟩
    exact ⟨_, hne, hdigits, rfl, Nat.lt_succ_of_le hle⟩

theorem isPort_iff {s : List Char} : isPort s = true ↔ SignedPort s := by
  rw [isPort_iff_dropPlus]
  constructor
  · intro h
    unfold Decimal.dropPlus at h
    split at h
    · exact .inr ⟨_, rfl, h⟩
    · exact .inl h
  · rintro (h | ⟨port, rfl, h⟩)
    · have hdrop : Decimal.dropPlus s = s := by
        unfold Decimal.dropPlus
        split
        · exact absurd List.mem_cons_self h.plus_not_mem
        · rfl
      rwa [hdrop]
    · exact h

/-! ## Parts -/

/-- The parts of an address. -/
structure Parts where
  nodeId : List Char
  host : List Char
  port : List Char
  /-- The port for discovery, if it is another one. -/
  discovery : Option (List Char)

namespace Parts

/-- How the port for discovery is written. -/
def discoveryText : Option (List Char) → List Char
  | none => []
  | some port => '?' :: (discoveryKey ++ port)

/-- The address with these parts. -/
def write (p : Parts) : List Char :=
  scheme ++ (p.nodeId ++ '@' :: (p.host ++ ':' :: p.port ++ discoveryText p.discovery))

/-- The parts are those of an address, in which the ports are of this kind. -/
structure Fit (Port : List Char → Prop) (p : Parts) : Prop where
  length_nodeId : p.nodeId.length = 128
  nodeId : ∀ c ∈ p.nodeId, Hex.isDigit c = true
  host : Host.HostForm p.host
  port : Port p.port
  discovery : ∀ port ∈ p.discovery, Port port

end Parts

/-- The text of an address in which the ports are of this kind. -/
def Grammar (Port : List Char → Prop) (s : List Char) : Prop :=
  ∃ p : Parts, p.Fit Port ∧ p.write = s

/-! ## Reading the parts -/

theorem isNodeId_iff {s : List Char} :
    isNodeId s = true ↔ s.length = 128 ∧ ∀ c ∈ s, Hex.isDigit c = true := by
  simp only [isNodeId, Bool.and_eq_true, decide_eq_true_eq, List.all_eq_true]

theorem isEndpoint_iff {s : List Char} :
    isEndpoint s = true ↔
      ∃ host port, s = host ++ ':' :: port ∧ Host.HostForm host ∧ SignedPort port := by
  constructor
  · intro h
    unfold isEndpoint at h
    split at h
    · rename_i host port hcut
      obtain ⟨hhost, hport⟩ := (Bool.and_eq_true _ _).mp h
      exact ⟨host, port, (Text.cutLast_eq_some_iff.mp hcut).1, Host.isHost_iff.mp hhost,
        isPort_iff.mp hport⟩
    · exact nomatch h
  · rintro ⟨host, port, rfl, hhost, hport⟩
    -- The host may have colons of its own, but no port has one.
    have hcut : Text.cutLast ':' (host ++ ':' :: port) = some (host, port) :=
      Text.cutLast_eq_some_iff.mpr ⟨rfl, fun hc => absurd (hport.char hc) (by decide)⟩
    rw [isEndpoint, hcut]
    exact (Bool.and_eq_true _ _).mpr ⟨Host.isHost_iff.mpr hhost, isPort_iff.mpr hport⟩

theorem isQuery_iff {s : List Char} :
    isQuery s = true ↔ ∃ port, s = discoveryKey ++ port ∧ SignedPort port := by
  constructor
  · intro h
    unfold isQuery at h
    split at h
    · rename_i port hport
      exact ⟨port, (List.append_eq_of_isPrefixOf?_eq_some hport).symm, isPort_iff.mp h⟩
    · exact nomatch h
  · rintro ⟨port, rfl, hport⟩
    rw [isQuery, List.isPrefixOf?_eq_some_iff_append_eq.mpr rfl]
    exact isPort_iff.mpr hport

theorem question_not_mem_endpoint {s : List Char} (h : isEndpoint s = true) : '?' ∉ s := by
  obtain ⟨host, port, rfl, hhost, hport⟩ := isEndpoint_iff.mp h
  simp only [List.mem_append, List.mem_cons, not_or]
  exact ⟨fun hc => absurd (hhost.char hc) (by decide),
    by decide, fun hc => absurd (hport.char hc) (by decide)⟩

theorem isLocation_iff {s : List Char} :
    isLocation s = true ↔
      ∃ endpoint discovery, s = endpoint ++ Parts.discoveryText discovery ∧
        isEndpoint endpoint = true ∧ ∀ port ∈ discovery, SignedPort port := by
  constructor
  · intro h
    unfold isLocation at h
    split at h
    · rename_i endpoint query hcut
      obtain ⟨hquery, hendpoint⟩ := (Bool.and_eq_true _ _).mp h
      obtain ⟨port, rfl, hport⟩ := isQuery_iff.mp hquery
      exact ⟨endpoint, some port, (Text.cutFirst_eq_some_iff.mp hcut).1, hendpoint,
        fun _ hp => Option.some.inj hp ▸ hport⟩
    · exact ⟨s, none, (List.append_nil s).symm, h, nofun⟩
  · rintro ⟨endpoint, discovery, rfl, hendpoint, hport⟩
    have hmark := question_not_mem_endpoint hendpoint
    cases discovery with
    | none =>
      rw [Parts.discoveryText, List.append_nil, isLocation, Text.cutFirst_eq_none_iff.mpr hmark]
      exact hendpoint
    | some port =>
      rw [Parts.discoveryText, isLocation, Text.cutFirst_append hmark]
      exact (Bool.and_eq_true _ _).mpr ⟨isQuery_iff.mpr ⟨port, rfl, hport port rfl⟩, hendpoint⟩

/-- **Reading the parts**: an address is a text written from parts that fit. -/
theorem isEnode_iff {s : List Char} : isEnode s = true ↔ Grammar SignedPort s := by
  constructor
  · intro h
    unfold isEnode at h
    split at h
    · rename_i nodeId location hcut
      obtain ⟨t, hscheme, hcut⟩ := Option.bind_eq_some_iff.mp hcut
      obtain rfl := List.append_eq_of_isPrefixOf?_eq_some hscheme
      obtain ⟨rfl, -⟩ := Text.cutFirst_eq_some_iff.mp hcut
      obtain ⟨hnodeId, hlocation⟩ := (Bool.and_eq_true _ _).mp h
      obtain ⟨hlength, hdigits⟩ := isNodeId_iff.mp hnodeId
      obtain ⟨endpoint, discovery, rfl, hendpoint, hdiscovery⟩ := isLocation_iff.mp hlocation
      obtain ⟨host, port, rfl, hhost, hport⟩ := isEndpoint_iff.mp hendpoint
      exact ⟨⟨nodeId, host, port, discovery⟩, ⟨hlength, hdigits, hhost, hport, hdiscovery⟩, rfl⟩
    · exact nomatch h
  · rintro ⟨p, hp, rfl⟩
    have hat : '@' ∉ p.nodeId := fun hc => absurd (hp.nodeId '@' hc) (by decide)
    have hendpoint := isEndpoint_iff.mpr ⟨p.host, p.port, rfl, hp.host, hp.port⟩
    rw [isEnode, Parts.write, List.isPrefixOf?_eq_some_iff_append_eq.mpr rfl, Option.bind_eq_bind,
      Option.bind_some, Text.cutFirst_append hat]
    exact (Bool.and_eq_true _ _).mpr ⟨isNodeId_iff.mpr ⟨hp.length_nodeId, hp.nodeId⟩,
      isLocation_iff.mpr ⟨_, p.discovery, rfl, hendpoint, hp.discovery⟩⟩

/-! ## Plus signs -/

/-- The only parts of an address that may have a plus sign are its ports. -/
theorem plus_not_mem_of_grammar {s : List Char} (h : Grammar DecimalPort s) : '+' ∉ s := by
  obtain ⟨p, hp, rfl⟩ := h
  have hnodeId : '+' ∉ p.nodeId := fun hc => absurd (hp.nodeId _ hc) (by decide)
  have hhost : '+' ∉ p.host := fun hc => absurd (hp.host.char hc) (by decide)
  have hdiscovery : '+' ∉ Parts.discoveryText p.discovery := by
    cases hd : p.discovery with
    | none => exact List.not_mem_nil
    | some port =>
      have hport := (hp.discovery port hd).plus_not_mem
      simp [Parts.discoveryText, discoveryKey, hport]
  simp [Parts.write, scheme, hnodeId, hhost, hp.port.plus_not_mem, hdiscovery]

/-- The addresses whose ports are digits are those without a plus sign. -/
theorem grammar_decimalPort_iff {s : List Char} :
    Grammar DecimalPort s ↔ Grammar SignedPort s ∧ '+' ∉ s := by
  constructor
  · intro h
    refine ⟨?_, plus_not_mem_of_grammar h⟩
    obtain ⟨p, hp, rfl⟩ := h
    exact ⟨p, { hp with
      port := hp.port.signed
      discovery := fun port hport => (hp.discovery port hport).signed }, rfl⟩
  · rintro ⟨⟨p, hp, rfl⟩, hplus⟩
    simp only [Parts.write, List.mem_append, List.mem_cons, not_or] at hplus
    obtain ⟨-, -, -, ⟨-, -, hport⟩, hquery⟩ := hplus
    refine ⟨p, { hp with
      port := hp.port.decimal hport
      discovery := fun port hd => (hp.discovery port hd).decimal fun hc => hquery ?_ }, rfl⟩
    rw [Option.mem_def.mp hd]
    exact List.mem_cons_of_mem _ (List.mem_append_right _ hc)

/-! ## Addresses -/

theorem exists_ofText_iff {s : String} :
    (∃ e, ofText s = .ok e) ↔ Grammar SignedPort s.toList := by
  rw [← isEnode_iff]
  constructor
  · rintro ⟨e, he⟩
    rw [← text_eq_of_ofText he]
    exact e.valid
  · intro h
    exact ⟨⟨s, h⟩, ofText_text ⟨s, h⟩⟩

/-- **Addresses**: a text is read, and kept as it is, exactly when it is
written from parts that fit, where a port may have a plus sign in front;
every other text is refused by name. The texts written with plain ports are
those of them that have no plus sign. -/
theorem address_is_read_iff (s : String) :
    ((∃ e, ofText s = .ok e ∧ e.text = s) ↔ Grammar SignedPort s.toList) ∧
      (ofText s = .error (.invalidEnode s) ↔ ¬ Grammar SignedPort s.toList) ∧
      (Grammar DecimalPort s.toList ↔ (∃ e, ofText s = .ok e) ∧ '+' ∉ s.toList) := by
  refine ⟨?_, ?_, ?_⟩
  · rw [← exists_ofText_iff]
    exact exists_congr fun e => and_iff_left_of_imp text_eq_of_ofText
  · rw [ofText_eq_error_iff, ← isEnode_iff, Bool.not_eq_true]
    exact and_iff_left rfl
  · rw [exists_ofText_iff]
    exact grammar_decimalPort_iff

/-- The parts of an address with a plus sign in front of its port. -/
def signedParts : Parts where
  nodeId := List.replicate 128 '0'
  host := ['1', '0', '.', '5', '.', '0', '.', '2']
  port := ['+', '3', '0', '3', '0', '3']
  discovery := none

/-- A port with a plus sign in front is let through, although it is none of
an address. -/
theorem signed_port_is_let_through :
    (∃ e, ofText (String.ofList signedParts.write) = .ok e) ∧
      ¬ Grammar DecimalPort (String.ofList signedParts.write).toList := by
  rw [exists_ofText_iff, String.toList_ofList]
  constructor
  · refine ⟨signedParts, ?_, rfl⟩
    exact {
      length_nodeId := List.length_replicate
      nodeId := fun c hc => (List.eq_of_mem_replicate hc).symm ▸ rfl
      host := .ipv4 ⟨10, 5, 0, 2, by decide⟩
      port := .inr ⟨_, rfl, by decide, by simp, by decide⟩
      discovery := nofun }
  · intro h
    refine plus_not_mem_of_grammar h ?_
    simp [Parts.write, signedParts]

end Provision.Enode
