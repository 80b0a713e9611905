/-
Provision.Proofs.Peer.Characters — the characters of a peer's address.

The parts of an address and the marks between them are made of letters,
digits and a few marks, so an address has no character that ends a line or
separates the entries of a list (`isAddressChar_of_mem`).
-/
import Provision.Proofs.Peer.Grammar

namespace Provision.Enode

/-- A character that may stand in the address of a peer. -/
def isAddressChar (c : Char) : Bool :=
  c.isAlphanum || c ∈ [':', '/', '@', '.', '-', '?', '=', '+', '[', ']']

theorem isAddressChar_of_isHostChar {c : Char} (h : Host.isHostChar c = true) :
    isAddressChar c = true := by
  simp only [Host.isHostChar, List.mem_cons, List.not_mem_nil, or_false, Bool.or_eq_true,
    decide_eq_true_eq] at h
  rcases h with h | rfl | rfl | rfl | rfl | rfl
  · simp [isAddressChar, h]
  all_goals decide

theorem SignedPort.isAddressChar {s : List Char} (h : SignedPort s) {c : Char} (hc : c ∈ s) :
    isAddressChar c = true := by
  obtain hdigit | rfl := h.char hc
  · exact isAddressChar_of_isHostChar (Host.isHostChar_of_isDigit hdigit)
  · decide

theorem Parts.Fit.isAddressChar {p : Parts} (h : p.Fit SignedPort) {c : Char} (hc : c ∈ p.write) :
    isAddressChar c = true := by
  have hscheme : scheme.all Enode.isAddressChar = true := by decide
  have hkey : discoveryKey.all Enode.isAddressChar = true := by decide
  have hdiscovery (hc : c ∈ discoveryText p.discovery) : Enode.isAddressChar c = true := by
    cases hd : p.discovery with
    | none => exact absurd (hd ▸ hc) List.not_mem_nil
    | some port =>
      rw [hd] at hc
      simp only [discoveryText, List.mem_cons, List.mem_append] at hc
      obtain rfl | hc | hc := hc
      · decide
      · exact List.all_eq_true.mp hkey c hc
      · exact (h.discovery port hd).isAddressChar hc
  simp only [write, List.mem_append, List.mem_cons] at hc
  obtain hc | hc | rfl | (hc | rfl | hc) | hc := hc
  · exact List.all_eq_true.mp hscheme c hc
  · exact isAddressChar_of_isHostChar (Host.isHostChar_of_isHexDigit (h.nodeId c hc))
  · decide
  · exact isAddressChar_of_isHostChar (h.host.char hc)
  · decide
  · exact h.port.isAddressChar hc
  · exact hdiscovery hc

/-- **Characters**: an address is made of letters, digits and a few marks. -/
theorem isAddressChar_of_mem {e : Enode} {c : Char} (h : c ∈ e.text.toList) :
    isAddressChar c = true := by
  obtain ⟨p, hp, hwrite⟩ := isEnode_iff.mp e.valid
  exact hp.isAddressChar (hwrite ▸ h)

end Provision.Enode
