/-
Provision.Proofs.Network.Validation — what the validation of a network says.

Three things are asked of a private network: that it declares no other
consensus than that of its engine, that somebody may seal the first blocks
where the engine names the sealers, and that its forks are in order. The
first of them that fails is reported, and forks that are out of order with
every pair of neighbours that is (`validation_reports_every_fault`).
-/
import Provision.Proofs.Fork
import Provision.Proofs.Network

namespace Provision

/-- Somebody may seal the first blocks: anybody by proof of work, and
otherwise those that the engine names. -/
def Engine.HasSealer : Engine → Prop
  | .ethash _ => True
  | .clique c => c.signers ≠ []
  | .istanbul i => i.validators ≠ []

namespace Network

/-- The network declares no other consensus than that of the genesis. -/
def DeclaresEngine (n : Network) (g : Genesis) : Prop :=
  n.consensus = none ∨ n.consensus = some g.engine.consensus

/-- What is reported of a private network that is not sound. -/
inductive Fault (n : Network) (g : Genesis) : NetworkError → Prop
  | consensus {declared : Consensus} (hdeclared : n.consensus = some declared)
      (hother : declared ≠ g.engine.consensus) :
      Fault n g (.consensusMismatch declared g.engine.consensus)
  | sealers (hengine : n.DeclaresEngine g) (hnone : ¬ g.engine.HasSealer) :
      Fault n g (.noSealers g.engine.consensus)
  | order {vs : List ForkSchedule.Violation} (hengine : n.DeclaresEngine g)
      (hsealer : g.engine.HasSealer) (horder : ¬ g.forks.InOrder) (hall : g.forks.Reports vs) :
      Fault n g (.forkOrder vs)

variable {n : Network} {g : Genesis}

theorem hasSealer_iff {e : Engine} : e.HasSealer ↔ e.sealers? ≠ some [] := by
  cases e <;> simp [Engine.HasSealer, Engine.sealers?]

theorem declaresEngine_iff :
    n.DeclaresEngine g ↔ ∀ declared, n.consensus = some declared → declared = g.consensus := by
  unfold DeclaresEngine Genesis.consensus
  cases n.consensus <;> simp

/-- A private network is sound when none of the three checks fails. -/
theorem validate_eq_ok_iff_of_genesis (hg : n.genesis = some g) :
    n.validate = .ok () ↔ n.DeclaresEngine g ∧ g.engine.HasSealer ∧ g.forks.InOrder := by
  rw [validate_eq_ok_iff hg, declaresEngine_iff, hasSealer_iff, ForkSchedule.inOrder_iff]

/-! ## Faults -/

theorem validate_of_fault (hg : n.genesis = some g) {e : NetworkError} (h : n.Fault g e) :
    n.validate = .error e := by
  have hfilter (hengine : n.DeclaresEngine g) :
      n.consensus.filter (fun declared => declared ≠ g.consensus) = none := by
    simpa [Option.filter_eq_none_iff] using declaresEngine_iff.mp hengine
  unfold validate
  simp only [hg]
  cases h with
  | @consensus declared hdeclared hother =>
    have hsome : n.consensus.filter (fun declared => declared ≠ g.consensus) = some declared :=
      Option.filter_eq_some_iff.mpr ⟨hdeclared, decide_eq_true hother⟩
    rw [hsome]
    rfl
  | sealers hengine hnone =>
    have hempty : g.engine.sealers? = some [] := by simpa [hasSealer_iff] using hnone
    rw [hfilter hengine]
    simp only [hempty, if_true]
    rfl
  | @order vs hengine hsealer horder hall =>
    obtain rfl := ForkSchedule.reports_iff.mp hall
    rw [hfilter hengine]
    simp only [if_neg (hasSealer_iff.mp hsealer)]
    split
    · rename_i hnil
      exact absurd (ForkSchedule.inOrder_iff.mpr hnil) horder
    · rename_i v vs hcons
      rw [hcons]

/-- Where a check fails there is a fault to report. -/
theorem exists_fault (h : ¬ (n.DeclaresEngine g ∧ g.engine.HasSealer ∧ g.forks.InOrder)) :
    ∃ e, n.Fault g e := by
  by_cases hengine : n.DeclaresEngine g
  · by_cases hsealer : g.engine.HasSealer
    · have horder : ¬ g.forks.InOrder := fun horder => h ⟨hengine, hsealer, horder⟩
      exact ⟨_, .order hengine hsealer horder g.forks.reports_violations⟩
    · exact ⟨_, .sealers hengine hsealer⟩
  · unfold DeclaresEngine at hengine
    cases hdeclared : n.consensus with
    | none => exact absurd (.inl hdeclared) hengine
    | some declared =>
      refine ⟨_, .consensus hdeclared fun hsame => hengine (.inr ?_)⟩
      rw [hdeclared, hsame]

theorem validate_eq_error_iff (hg : n.genesis = some g) {e : NetworkError} :
    n.validate = .error e ↔ n.Fault g e := by
  constructor
  · intro herror
    have hunsound : ¬ (n.DeclaresEngine g ∧ g.engine.HasSealer ∧ g.forks.InOrder) := by
      rw [← validate_eq_ok_iff_of_genesis hg, herror]
      exact nofun
    obtain ⟨e', he'⟩ := exists_fault hunsound
    have hsame := (validate_of_fault hg he').symm.trans herror
    exact Except.error.inj hsame ▸ he'
  · exact validate_of_fault hg

/-- **Validation**: a network is sound when it has no genesis of its own, or
when it declares no other consensus than that of its engine, somebody may
seal, and of every two forks the later has no smaller block. Otherwise the
first of these that fails is reported, and forks that are out of order with
all the neighbours that are, in their order. -/
theorem validation_reports_every_fault (n : Network) :
    (n.validate = .ok () ↔ ∀ g, n.genesis = some g →
      n.DeclaresEngine g ∧ g.engine.HasSealer ∧ g.forks.InOrder) ∧
    (∀ e, n.validate = .error e ↔ ∃ g, n.genesis = some g ∧ n.Fault g e) ∧
    ∀ s : ForkSchedule,
      s.Adjacent (.homestead, s.homestead) (.eip150, s.eip150) ↔ s.dao = none := by
  refine ⟨?_, fun e => ?_, ForkSchedule.adjacent_beside_dao_iff⟩
  · cases hg : n.genesis with
    | none => simp [validate, hg]
    | some g => simp [validate_eq_ok_iff_of_genesis hg]
  · cases hg : n.genesis with
    | none => simp [validate, hg]
    | some g => simp [validate_eq_error_iff hg]

end Network

end Provision
