/-
Provision.Proofs.Peer.DottedNumbers — hosts that look like IPv4 addresses.

Four runs of digits with dots between them (`DottedNumbers`) are an IPv4
address when each of them is the number of an octet. When one is not, the
runs are still the labels of a name, and names are let through: the rule for
IPv4 addresses lets no host through that the rule for names would refuse
(`isHost_eq_isName`). So a mistyped address is a host unless it is too long
for a name (`dotted_numbers_are_a_host_iff`).
-/
import Provision.Proofs.Peer.Grammar

namespace Provision

namespace Host

/-- Four runs of digits. -/
structure DottedNumbers where
  runs : List (List Char)
  four : runs.length = 4
  nonempty : ∀ r ∈ runs, r ≠ []
  digits : ∀ r ∈ runs, ∀ c ∈ r, c.isDigit = true

namespace DottedNumbers

/-- The runs with dots between them. -/
def text (n : DottedNumbers) : List Char :=
  ['.'].intercalate n.runs

/-- Every run is a number up to 255, without redundant zeros. -/
def Octets (n : DottedNumbers) : Prop :=
  ∀ r ∈ n.runs, Decimal.value r ≤ 255 ∧ (r.head? = some '0' → r.length = 1)

/-- Neither a run nor the whole is too long for a name. -/
def Short (n : DottedNumbers) : Prop :=
  n.text.length ≤ 253 ∧ ∀ r ∈ n.runs, r.length ≤ 63

end DottedNumbers

/-! ## The rule for IPv4 addresses -/

/-- The rule for IPv4 addresses lets nothing through that is no name. -/
theorem isHost_eq_isName {s : List Char} (h : bracketed? s = none) : isHost s = isName s := by
  have hname : isIPv4 s = true → isName s = true := fun hs =>
    isName_iff.mpr (.of_dottedQuad (isIPv4_iff.mp hs))
  rw [isHost, h]
  cases hs : isIPv4 s with
  | false => rfl
  | true => exact (hname hs).symm

/-- A run of digits is the number of an octet when it is small enough and has
no redundant zeros. -/
theorem exists_octet_iff {r : List Char} (hne : r ≠ []) (hdigits : ∀ c ∈ r, c.isDigit = true) :
    (∃ o : UInt8, r = Decimal.digits o.toNat) ↔
      Decimal.value r ≤ 255 ∧ (r.head? = some '0' → r.length = 1) := by
  constructor
  · rintro ⟨o, rfl⟩
    rw [Decimal.value_digits]
    have hwritten := congrArg Decimal.digits (Decimal.value_digits o.toNat)
    exact ⟨Nat.le_of_lt_succ o.toNat_lt, (Decimal.digits_value_eq_iff.mp hwritten).2.2⟩
  · rintro ⟨hle, hzero⟩
    refine ⟨UInt8.ofNat (Decimal.value r), ?_⟩
    rw [UInt8.toNat_ofNat_of_lt' (Nat.lt_succ_of_le hle)]
    exact (Decimal.digits_value_eq_iff.mpr ⟨hne, hdigits, hzero⟩).symm

namespace DottedNumbers

variable (n : DottedNumbers)

theorem dot_not_mem {r : List Char} (hr : r ∈ n.runs) : '.' ∉ r :=
  fun hdot => absurd (n.digits r hr '.' hdot) (by decide)

theorem runs_ne_nil : n.runs ≠ [] :=
  List.ne_nil_of_length_eq_add_one n.four

/-- The text is taken apart into the runs. -/
theorem pieces_text : Text.pieces '.' n.text = n.runs :=
  Text.pieces_intercalate_eq_iff.mpr ⟨n.runs_ne_nil, fun _ => n.dot_not_mem⟩

theorem bracketed?_text : bracketed? n.text = none := by
  refine Option.eq_none_iff_forall_not_mem.mpr fun inner hinner => ?_
  have hopen : '[' ∈ n.text := by
    rw [bracketed?_eq_some_iff.mp hinner]
    exact List.mem_cons_self
  obtain hdot | ⟨r, hr, hc⟩ := Text.mem_intercalate hopen
  · exact absurd (List.mem_singleton.mp hdot) (by decide)
  · exact absurd (n.digits r hr '[' hc) (by decide)

/-- A run of digits is a label when it is short enough. -/
theorem isLabel_iff_length {r : List Char} (hr : r ∈ n.runs) :
    isLabel r = true ↔ r.length ≤ 63 := by
  rw [isLabel_iff]
  exact ⟨fun h => h.short, fun hshort => .of_digits (n.nonempty r hr) hshort (n.digits r hr)⟩

theorem isName_iff_short : isName n.text = true ↔ n.Short := by
  simp only [isName, Short, Bool.and_eq_true, decide_eq_true_eq, List.all_eq_true, n.pieces_text]
  exact and_congr_right fun _ => forall₂_congr fun r hr => n.isLabel_iff_length hr

theorem isHost_iff_short : isHost n.text = true ↔ n.Short := by
  rw [isHost_eq_isName n.bracketed?_text, isName_iff_short]

theorem isIPv4_iff_octets : isIPv4 n.text = true ↔ n.Octets := by
  have hoctet {r : List Char} (hr : r ∈ n.runs) :=
    exists_octet_iff (n.nonempty r hr) (n.digits r hr)
  rw [isIPv4_iff]
  constructor
  · rintro ⟨a, b, c, d, htext⟩ r hr
    -- Both sides are cut at the dots, which gives the runs on either side.
    have hruns : n.runs = [a, b, c, d].map fun o => Decimal.digits o.toNat := by
      rw [← n.pieces_text, htext]
      refine Text.pieces_intercalate_eq_iff.mpr ⟨by simp, fun l hl => ?_⟩
      obtain ⟨o, -, rfl⟩ := List.mem_map.mp hl
      exact (Label.of_octet o).dot_not_mem
    obtain ⟨o, -, ho⟩ := List.mem_map.mp (hruns ▸ hr)
    exact (hoctet hr).mp ⟨o, ho.symm⟩
  · intro h
    obtain ⟨ra, rb, rc, rd, hruns⟩ := List.length_eq_four.mp n.four
    have hwritten {r : List Char} (hr : r ∈ n.runs) : ∃ o : UInt8, r = Decimal.digits o.toNat :=
      (hoctet hr).mpr (h r hr)
    obtain ⟨a, rfl⟩ := hwritten (r := ra) (by simp [hruns])
    obtain ⟨b, rfl⟩ := hwritten (r := rb) (by simp [hruns])
    obtain ⟨c, rfl⟩ := hwritten (r := rc) (by simp [hruns])
    obtain ⟨d, rfl⟩ := hwritten (r := rd) (by simp [hruns])
    exact ⟨a, b, c, d, by rw [text, hruns]; rfl⟩

end DottedNumbers

end Host

/-! ## Addresses of peers -/

namespace Enode

open Host

/-- The address is written with this host. -/
def HasHost (e : Enode) (host : List Char) : Prop :=
  ∃ p : Parts, p.Fit SignedPort ∧ p.write = e.text.toList ∧ p.host = host

/-- The address of a peer of zeros at this host. -/
def partsAt (host : List Char) : Parts where
  nodeId := List.replicate 128 '0'
  host := host
  port := ['3', '0', '3', '0', '3']
  discovery := none

theorem fit_partsAt {host : List Char} (h : HostForm host) : (partsAt host).Fit SignedPort where
  length_nodeId := List.length_replicate
  nodeId c hc := (List.eq_of_mem_replicate hc).symm ▸ rfl
  host := h
  port := .inl (show DecimalPort ['3', '0', '3', '0', '3'] from ⟨by simp, by simp, by decide⟩)
  discovery := nofun

/-- The hosts of addresses are those that are let through. -/
theorem exists_hasHost_iff {host : List Char} :
    (∃ e : Enode, e.HasHost host) ↔ isHost host = true := by
  rw [isHost_iff]
  constructor
  · rintro ⟨e, p, hp, -, rfl⟩
    exact hp.host
  · intro h
    have hvalid : isEnode (partsAt host).write = true :=
      isEnode_iff.mpr ⟨_, fit_partsAt h, rfl⟩
    refine ⟨⟨String.ofList (partsAt host).write, ?_⟩, partsAt host, fit_partsAt h, ?_, rfl⟩
    · rwa [String.toList_ofList]
    · exact String.toList_ofList.symm

/-- **Dotted numbers**: four runs of digits are an IPv4 address when each is
the number of an octet, but they are a host, and the host of an address of a
peer, when they are short enough for a name. So they have to be an IPv4
address to be let through only if they are one or are too long for a name. -/
theorem dotted_numbers_are_a_host_iff (n : DottedNumbers) :
    (isHost n.text = true ↔ n.Short) ∧
      (isIPv4 n.text = true ↔ n.Octets) ∧
      ((∃ e : Enode, e.HasHost n.text) ↔ n.Short) ∧
      ((isHost n.text = true → isIPv4 n.text = true) ↔ n.Octets ∨ ¬ n.Short) := by
  refine ⟨n.isHost_iff_short, n.isIPv4_iff_octets, ?_, ?_⟩
  · rw [exists_hasHost_iff, n.isHost_iff_short]
  · rw [n.isHost_iff_short, n.isIPv4_iff_octets, imp_iff_not_or, or_comm]

/-- An address with a typing error in its first number. -/
def mistyped : DottedNumbers where
  runs := [['2', '5', '6'], ['1'], ['1'], ['1']]
  four := rfl
  nonempty := by simp
  digits := by simp

/-- A host of four numbers that are no IPv4 address is let through. -/
theorem mistyped_address_is_let_through :
    isHost mistyped.text = true ∧ isIPv4 mistyped.text = false ∧
      ∃ e, ofText (String.ofList (partsAt mistyped.text).write) = .ok e := by
  refine ⟨by decide, by decide, ?_⟩
  rw [exists_ofText_iff, String.toList_ofList]
  exact ⟨_, fit_partsAt (.name (isName_iff.mp (by decide))), rfl⟩

end Enode

end Provision
