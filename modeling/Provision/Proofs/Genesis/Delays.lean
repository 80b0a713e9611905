/-
Provision.Proofs.Genesis.Delays — what the delays of the difficulty tell.

The document tells, for each block, by how much the growth of the
difficulty is delayed from it on; where several forks share a block there
is one sum for all of them (`delayAt_bombDelays`). Two forks have no other
part in the document, the two glaciers. They can be told from the sums
nonetheless once the other forks are known, since no sum of the smaller
delay comes up to the larger (`glaciers_of_bombDelays`).
-/
import Provision.Genesis.Chainspec
import Provision.Proofs.OrderedMap

namespace Provision.Genesis.Chainspec

/-- The delay that begins at a block. -/
def delayAt (m : OrderedMap UInt64 Nat) (block : UInt64) : Nat :=
  (m.get? block).getD 0

/-- The part of a delay that begins at a block: all of it, or nothing. -/
def partAt (block : UInt64) (d : UInt64 × Nat) : Nat :=
  if d.1 = block then d.2 else 0

/-- What these delays come to at a block. -/
def sumAt (block : UInt64) : List (UInt64 × Nat) → Nat
  | [] => 0
  | d :: l => partAt block d + sumAt block l

theorem partAt_self (block : UInt64) (delay : Nat) : partAt block (block, delay) = delay :=
  if_pos rfl

theorem partAt_le (block : UInt64) (d : UInt64 × Nat) : partAt block d ≤ d.2 := by
  unfold partAt
  split
  · exact Nat.le_refl _
  · exact Nat.zero_le _

theorem eq_of_partAt_pos {block : UInt64} {d : UInt64 × Nat} (h : 0 < partAt block d) :
    d.1 = block := by
  unfold partAt at h
  split at h
  · assumption
  · exact absurd h (Nat.lt_irrefl 0)

theorem delayAt_addDelay (m : OrderedMap UInt64 Nat) (d : UInt64 × Nat) (block : UInt64) :
    delayAt (addDelay m d) block = delayAt m block + partAt block d := by
  rw [delayAt, addDelay, OrderedMap.get?_insert, partAt]
  by_cases h : block = d.1
  · rw [if_pos h, if_pos h.symm, Option.getD_some, delayAt, h]
  · rw [if_neg h, if_neg (Ne.symm h), Nat.add_zero, delayAt]

theorem delayAt_foldl_addDelay (l : List (UInt64 × Nat)) (m : OrderedMap UInt64 Nat)
    (block : UInt64) :
    delayAt (l.foldl addDelay m) block = delayAt m block + sumAt block l := by
  induction l generalizing m with
  | nil => rfl
  | cons d l ih =>
    rw [List.foldl_cons, ih, delayAt_addDelay, sumAt, Nat.add_assoc]

/-- **Sums**: at every block the document tells the sum of the delays that
begin there. -/
theorem delayAt_bombDelays (s : ForkSchedule) (block : UInt64) :
    delayAt (bombDelays s) block = sumAt block (delays s) := by
  rw [bombDelays, delayAt_foldl_addDelay]
  exact Nat.zero_add _

/-- **Glaciers**: the delays tell the blocks of the two forks that do
nothing but delay, where the other forks are known. -/
theorem glaciers_of_bombDelays {s t : ForkSchedule} (h : bombDelays s = bombDelays t)
    (hbyzantium : s.byzantium = t.byzantium) (hconstantinople : s.constantinople = t.constantinople)
    (hlondon : s.london = t.london) :
    s.muirGlacier = t.muirGlacier ∧ s.arrowGlacier = t.arrowGlacier := by
  have hat : ∀ block,
      partAt block (s.muirGlacier, 4000000) + partAt block (s.arrowGlacier, 1000000) =
        partAt block (t.muirGlacier, 4000000) + partAt block (t.arrowGlacier, 1000000) := by
    intro block
    have hsum := delayAt_bombDelays s block
    rw [h, delayAt_bombDelays t block] at hsum
    simp only [delays, sumAt, hbyzantium, hconstantinople, hlondon] at hsum
    omega
  have hmuir : t.muirGlacier = s.muirGlacier := by
    have hblock := hat s.muirGlacier
    have hsmall := partAt_le s.muirGlacier (t.arrowGlacier, 1000000)
    rw [partAt_self] at hblock
    -- The smaller delay alone does not come up to what begins at this block.
    exact eq_of_partAt_pos (d := (t.muirGlacier, 4000000)) (by simp only at hsmall; omega)
  have harrow : t.arrowGlacier = s.arrowGlacier := by
    have hblock := hat s.arrowGlacier
    rw [hmuir, Nat.add_left_cancel_iff, partAt_self] at hblock
    exact eq_of_partAt_pos (d := (t.arrowGlacier, 1000000)) (by omega)
  exact ⟨hmuir.symm, harrow.symm⟩

end Provision.Genesis.Chainspec
