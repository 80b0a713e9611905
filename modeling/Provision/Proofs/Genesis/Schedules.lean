/-
Provision.Proofs.Genesis.Schedules — the schedules of a proof-of-work
chainspec mean what the forks mean.

A chainspec tells the rewards and the delays of the difficulty by the block
from which they hold. Both stand in objects whose keys are hexadecimal
texts, in the order of their characters, so the schedule has to be read
from them before it means anything (`readSchedule?`). Nothing is lost on
the way (`readSchedule?_byBlock`). Of two rewards from one block on the
later fork's is paid, which is right where the forks are in order; delays
that begin at one block add up, which is right for all schedules
(`ethash_schedules_mean_the_forks`).
-/
import Provision.Proofs.Genesis.NestedContent

namespace Provision.Genesis

open Json

/-! ## Reading a schedule -/

/-- The number that a member is keyed by and the number that it has. -/
def readRow? (e : String × Json) : Option (Nat × Nat) :=
  match e.2 with
  | .str value => (hexNumber? e.1).bind fun k => (hexNumber? value).map fun v => (k, v)
  | _ => none

/-- The rows of a schedule, as they stand in its object. -/
def readSchedule? (j : Json) : Option (List (Nat × Nat)) :=
  j.members.mapM readRow?

/-- The row with the greatest number not above a block has this value. -/
def InForce (rows : List (Nat × Nat)) (block value : Nat) : Prop :=
  ∃ key, (key, value) ∈ rows ∧ key ≤ block ∧ ∀ e ∈ rows, e.1 ≤ block → e.1 ≤ key

/-- The sum of the values of the rows whose number is not above a block. -/
def sumUpTo (block : Nat) : List (Nat × Nat) → Nat
  | [] => 0
  | e :: rows => (if e.1 ≤ block then e.2 else 0) + sumUpTo block rows

/-- The sum of the values of all rows. -/
def sumOf : List (Nat × Nat) → Nat
  | [] => 0
  | e :: rows => e.2 + sumOf rows

/-- The number of the smallest units in an ether. -/
def ether : Nat := 10 ^ 18

theorem mapM_eq_some_map {α β : Type} {f : α → Option β} {g : α → β} {l : List α}
    (h : ∀ a ∈ l, f a = some (g a)) : l.mapM f = some (l.map g) := by
  induction l with
  | nil => rfl
  | cons a l ih =>
    have ha := h a List.mem_cons_self
    have hl := ih fun b hb => h b (List.mem_cons_of_mem _ hb)
    simp [List.mapM_cons, ha, hl]

theorem sumUpTo_perm {rows rows' : List (Nat × Nat)} (h : rows.Perm rows') (block : Nat) :
    sumUpTo block rows = sumUpTo block rows' := by
  induction h with
  | nil => rfl
  | cons e _ ih => rw [sumUpTo, sumUpTo, ih]
  | swap e e' rows =>
    simp only [sumUpTo]
    omega
  | trans _ _ ih ih' => exact ih.trans ih'

theorem sumUpTo_eq_sumOf {block : Nat} {rows : List (Nat × Nat)} (h : ∀ e ∈ rows, e.1 ≤ block) :
    sumUpTo block rows = sumOf rows := by
  induction rows with
  | nil => rfl
  | cons e rows ih =>
    obtain ⟨he, hrows⟩ := List.forall_mem_cons.mp h
    rw [sumUpTo, sumOf, if_pos he, ih hrows]

namespace Chainspec

/-- The rows of a map by block. -/
def rowsOf {ν : Type} (amount : ν → Nat) (m : OrderedMap UInt64 ν) : List (Nat × Nat) :=
  m.entries.map fun e => (e.1.toNat, amount e.2)

/-- **Nothing is lost**: the rows that are read from an object by block are
those of the map, in another order. -/
theorem readSchedule?_byBlock {ν : Type} {encode : ν → String} {amount : ν → Nat}
    {m : OrderedMap UInt64 ν}
    (hencode : ∀ e ∈ m.entries, hexNumber? (encode e.2) = some (amount e.2)) :
    ∃ rows, readSchedule? (byBlock encode m).canonical = some rows ∧
      rows.Perm (rowsOf amount m) := by
  have hdistinct := ((distinctKeys_obj _).mp (distinctKeys_byBlock encode m)).1
  have hperm := members_canonical_perm hdistinct
  have hread : ∀ e ∈ (byBlock encode m).canonical.members,
      readRow? e = some ((readRow? e).getD (0, 0)) := by
    intro e he
    obtain ⟨e', he', rfl⟩ := List.mem_map.mp (hperm.mem_iff.mp he)
    obtain ⟨x, hx, rfl⟩ := List.mem_map.mp he'
    simp [readRow?, canonical, hexNumber?_numberText, hencode x hx]
  refine ⟨_, mapM_eq_some_map hread, ?_⟩
  refine (hperm.map _).trans (List.Perm.of_eq ?_)
  rw [List.map_map, List.map_map, rowsOf]
  refine List.map_congr_left fun x hx => ?_
  simp [readRow?, canonical, hexNumber?_numberText, hencode x hx]

theorem nodup_rowsOf {ν : Type} (amount : ν → Nat) (m : OrderedMap UInt64 ν) :
    ((rowsOf amount m).map Prod.fst).Nodup := by
  rw [rowsOf, List.map_map]
  refine List.pairwise_map.mpr ((List.pairwise_map.mp m.keys_nodup).imp ?_)
  intro a b hne heq
  exact hne (UInt64.toNat_inj.mp heq)

theorem mem_rowsOf {ν : Type} {amount : ν → Nat} {m : OrderedMap UInt64 ν} {key value : Nat} :
    (key, value) ∈ rowsOf amount m ↔
      ∃ block v, m.get? block = some v ∧ block.toNat = key ∧ amount v = value := by
  simp [rowsOf, OrderedMap.get?_eq_some_iff]

/-! ## Rewards -/

/-- The reward that a text gives, in the smallest unit. -/
def rewardOf (text : String) : Nat :=
  (hexNumber? text).getD 0

theorem get?_rewards (s : ForkSchedule) (block : UInt64) :
    (rewards s).get? block =
      if block = s.constantinople then some constantinopleReward
      else if block = s.byzantium then some byzantiumReward
      else if block = 0 then some frontierReward
      else none := by
  rw [rewards, OrderedMap.ofList]
  simp only [OrderedMap.insertAll, List.foldl_cons, List.foldl_nil, OrderedMap.get?_insert,
    OrderedMap.get?_empty]

theorem hexNumber?_frontierReward : hexNumber? frontierReward = some (5 * ether) := by
  decide

theorem hexNumber?_byzantiumReward : hexNumber? byzantiumReward = some (3 * ether) := by
  decide

theorem hexNumber?_constantinopleReward :
    hexNumber? constantinopleReward = some (2 * ether) := by
  decide

theorem hexNumber?_of_mem_rewards {s : ForkSchedule} {e : UInt64 × String}
    (h : e ∈ (rewards s).entries) : hexNumber? (id e.2) = some (rewardOf e.2) := by
  have hmem := OrderedMap.mem_of_mem_ofList h
  simp only [List.mem_cons, List.not_mem_nil, or_false] at hmem
  rcases hmem with rfl | rfl | rfl
  · simp [rewardOf, hexNumber?_frontierReward]
  · simp [rewardOf, hexNumber?_byzantiumReward]
  · simp [rewardOf, hexNumber?_constantinopleReward]

/-- The rewards begin at the first block and at two forks. -/
theorem key_of_mem_rewards {s : ForkSchedule} {e : Nat × Nat}
    (h : e ∈ rowsOf rewardOf (rewards s)) :
    e.1 = 0 ∨ e.1 = s.byzantium.toNat ∨ e.1 = s.constantinople.toNat := by
  obtain ⟨x, hx, rfl⟩ := List.mem_map.mp h
  have hmem := OrderedMap.mem_of_mem_ofList hx
  simp only [List.mem_cons, List.not_mem_nil, or_false] at hmem
  rcases hmem with rfl | rfl | rfl
  · exact Or.inl rfl
  · exact Or.inr (Or.inl rfl)
  · exact Or.inr (Or.inr rfl)

theorem inForce_of_get? {s : ForkSchedule} {start : UInt64} {text : String} {block : Nat}
    (h : (rewards s).get? start = some text) (hstart : start.toNat ≤ block)
    (hbyzantium : s.byzantium.toNat ≤ block → s.byzantium.toNat ≤ start.toNat)
    (hconstantinople : s.constantinople.toNat ≤ block → s.constantinople.toNat ≤ start.toNat) :
    InForce (rowsOf rewardOf (rewards s)) block (rewardOf text) := by
  refine ⟨start.toNat, mem_rowsOf.mpr ⟨start, text, h, rfl, rfl⟩, hstart, ?_⟩
  intro e he hblock
  rcases key_of_mem_rewards he with hkey | hkey | hkey
  · exact hkey ▸ Nat.zero_le _
  · exact hkey ▸ hbyzantium (hkey ▸ hblock)
  · exact hkey ▸ hconstantinople (hkey ▸ hblock)

/-- The reward of a block: 5 ether, then 3, then 2. -/
def rewardAt (s : ForkSchedule) (block : Nat) : Nat :=
  if block < s.byzantium.toNat then 5 * ether
  else if block < s.constantinople.toNat then 3 * ether
  else 2 * ether

/-- In a schedule in order the rewards say what each block pays. -/
theorem inForce_rewards {s : ForkSchedule} (h : s.byzantium ≤ s.constantinople) (block : Nat) :
    InForce (rowsOf rewardOf (rewards s)) block (rewardAt s block) := by
  have hle : s.byzantium.toNat ≤ s.constantinople.toNat := h
  by_cases hbyzantium : block < s.byzantium.toNat
  · have hb : (0 : UInt64) ≠ s.byzantium := by
      intro heq
      exact absurd (heq ▸ hbyzantium) (Nat.not_lt_zero _)
    have hc : (0 : UInt64) ≠ s.constantinople := by
      intro heq
      exact absurd (heq ▸ Nat.lt_of_lt_of_le hbyzantium hle) (Nat.not_lt_zero _)
    have hget : (rewards s).get? 0 = some frontierReward := by simp [get?_rewards, hb, hc]
    have hpaid := inForce_of_get? hget (Nat.zero_le block) (by omega) (by omega)
    rw [rewardOf, hexNumber?_frontierReward] at hpaid
    rwa [rewardAt, if_pos hbyzantium]
  · by_cases hconstantinople : block < s.constantinople.toNat
    · have hc : s.byzantium ≠ s.constantinople := by
        intro heq
        exact hbyzantium (heq ▸ hconstantinople)
      have hget : (rewards s).get? s.byzantium = some byzantiumReward := by
        simp [get?_rewards, hc]
      have hpaid := inForce_of_get? hget (Nat.not_lt.mp hbyzantium) (by omega) (by omega)
      rw [rewardOf, hexNumber?_byzantiumReward] at hpaid
      rwa [rewardAt, if_neg hbyzantium, if_pos hconstantinople]
    · have hget : (rewards s).get? s.constantinople = some constantinopleReward := by
        simp [get?_rewards]
      have hpaid := inForce_of_get? hget (Nat.not_lt.mp hconstantinople) (by omega) (by omega)
      rw [rewardOf, hexNumber?_constantinopleReward] at hpaid
      rwa [rewardAt, if_neg hbyzantium, if_neg hconstantinople]

/-! ## Delays -/

/-- What is added to the value of a key is added from that key on. -/
theorem sumUpTo_insertEntry (block : Nat) (k : UInt64) (added : Nat) {l : List (UInt64 × Nat)}
    (h : l.Pairwise fun a b => compare a.1 b.1 = .lt) :
    sumUpTo block ((OrderedMap.insertEntry k ((OrderedMap.lookup k l).getD 0 + added) l).map
        fun e => (e.1.toNat, e.2)) =
      sumUpTo block (l.map fun e => (e.1.toNat, e.2)) +
        if k.toNat ≤ block then added else 0 := by
  induction l with
  | nil =>
    simp only [OrderedMap.insertEntry, OrderedMap.lookup, Option.getD_none, Nat.zero_add,
      List.map_cons, List.map_nil, sumUpTo, Nat.add_zero]
  | cons e l ih =>
    obtain ⟨k', v'⟩ := e
    obtain ⟨hlt, hl⟩ := List.pairwise_cons.mp h
    rw [OrderedMap.insertEntry]
    split
    · rename_i hc
      have hnone : OrderedMap.lookup k ((k', v') :: l) = none := by
        refine OrderedMap.lookup_eq_none_of_lt fun e he => ?_
        rcases List.mem_cons.mp he with rfl | he
        · exact hc
        · exact Std.TransCmp.lt_trans hc (hlt e he)
      simp [hnone, sumUpTo, Nat.add_comm]
    · rename_i hc
      cases Std.LawfulEqCmp.eq_of_compare hc
      simp only [OrderedMap.lookup, hc, if_true, Option.getD_some, List.map_cons, sumUpTo]
      by_cases hk : k.toNat ≤ block
      · simp only [if_pos hk]
        omega
      · simp only [if_neg hk, Nat.add_zero]
    · rename_i hc
      have hne : compare k k' ≠ .eq := by simp [hc]
      rw [OrderedMap.lookup, if_neg hne, List.map_cons, List.map_cons, sumUpTo, sumUpTo,
        ih hl, Nat.add_assoc]

theorem sumUpTo_addDelay (block : Nat) (m : OrderedMap UInt64 Nat) (d : UInt64 × Nat) :
    sumUpTo block (rowsOf id (addDelay m d)) =
      sumUpTo block (rowsOf id m) + if d.1.toNat ≤ block then d.2 else 0 :=
  sumUpTo_insertEntry block d.1 d.2 m.sorted

theorem sumUpTo_foldl_addDelay (block : Nat) (l : List (UInt64 × Nat)) (m : OrderedMap UInt64 Nat) :
    sumUpTo block (rowsOf id (l.foldl addDelay m)) =
      sumUpTo block (rowsOf id m) + sumUpTo block (l.map fun d => (d.1.toNat, d.2)) := by
  induction l generalizing m with
  | nil => rfl
  | cons d l ih =>
    rw [List.foldl_cons, ih, sumUpTo_addDelay, List.map_cons, sumUpTo, Nat.add_assoc]

/-- The delays that begin up to a block come to those of the forks up to it. -/
theorem sumUpTo_bombDelays (s : ForkSchedule) (block : Nat) :
    sumUpTo block (rowsOf id (bombDelays s)) =
      (if s.byzantium.toNat ≤ block then 3000000 else 0) +
      (if s.constantinople.toNat ≤ block then 2000000 else 0) +
      (if s.muirGlacier.toNat ≤ block then 4000000 else 0) +
      (if s.london.toNat ≤ block then 700000 else 0) +
      (if s.arrowGlacier.toNat ≤ block then 1000000 else 0) := by
  have hempty : sumUpTo block (rowsOf id (.empty : OrderedMap UInt64 Nat)) = 0 := rfl
  rw [bombDelays, sumUpTo_foldl_addDelay, hempty, Nat.zero_add]
  simp only [delays, List.map_cons, List.map_nil, sumUpTo, Nat.add_zero, Nat.add_assoc]

end Chainspec

/-! ## The schedules of a chainspec -/

/-- What the rewards and the delays, as they are read from a document, say
of the forks. -/
structure SchedulesOf (s : ForkSchedule) (rewards delays : List (Nat × Nat)) : Prop where
  rewardKeys : (rewards.map Prod.fst).Nodup
  delayKeys : (delays.map Prod.fst).Nodup
  frontier : s.violations = [] →
    ∀ block < s.byzantium.toNat, InForce rewards block (5 * ether)
  byzantium : s.violations = [] →
    ∀ block, s.byzantium.toNat ≤ block → block < s.constantinople.toNat →
      InForce rewards block (3 * ether)
  constantinople : s.violations = [] →
    ∀ block, s.constantinople.toNat ≤ block → InForce rewards block (2 * ether)
  /-- The delays need no order of the forks. -/
  delayed : ∀ block, sumUpTo block delays =
    (if s.byzantium.toNat ≤ block then 3000000 else 0) +
    (if s.constantinople.toNat ≤ block then 2000000 else 0) +
    (if s.muirGlacier.toNat ≤ block then 4000000 else 0) +
    (if s.london.toNat ≤ block then 700000 else 0) +
    (if s.arrowGlacier.toNat ≤ block then 1000000 else 0)
  /-- No delay is left out and none is counted twice. -/
  total : sumOf delays = 10700000

theorem InForce.of_perm {rows rows' : List (Nat × Nat)} (h : rows.Perm rows') {block value : Nat}
    (hf : InForce rows' block value) : InForce rows block value := by
  obtain ⟨key, hmem, hle, hmax⟩ := hf
  exact ⟨key, h.mem_iff.mpr hmem, hle, fun e he => hmax e (h.mem_iff.mp he)⟩

/-- Rows that are those of the two maps, in any order, say what the forks
mean. -/
theorem schedulesOf_of_perm {s : ForkSchedule} {rewards delays : List (Nat × Nat)}
    (hrewards : rewards.Perm (Chainspec.rowsOf Chainspec.rewardOf (Chainspec.rewards s)))
    (hdelays : delays.Perm (Chainspec.rowsOf id (Chainspec.bombDelays s))) :
    SchedulesOf s rewards delays := by
  have hle : s.violations = [] → s.byzantium ≤ s.constantinople := by
    intro h
    exact ForkSchedule.le_of_violations_eq_nil h (j := .byzantium) (k := .constantinople)
      (by decide) rfl rfl
  have hpaid : s.violations = [] →
      ∀ block, InForce rewards block (Chainspec.rewardAt s block) := by
    intro h block
    exact (Chainspec.inForce_rewards (hle h) block).of_perm hrewards
  constructor
  case rewardKeys => exact (hrewards.map _).nodup_iff.mpr (Chainspec.nodup_rowsOf _ _)
  case delayKeys => exact (hdelays.map _).nodup_iff.mpr (Chainspec.nodup_rowsOf _ _)
  case frontier =>
    intro h block hblock
    simpa [Chainspec.rewardAt, hblock] using hpaid h block
  case byzantium =>
    intro h block hbyzantium hconstantinople
    simpa [Chainspec.rewardAt, Nat.not_lt.mpr hbyzantium, hconstantinople] using hpaid h block
  case constantinople =>
    intro h block hblock
    have hbyzantium : s.byzantium.toNat ≤ block := Nat.le_trans (hle h) hblock
    simpa [Chainspec.rewardAt, Nat.not_lt.mpr hbyzantium, Nat.not_lt.mpr hblock] using
      hpaid h block
  case delayed =>
    intro block
    rw [sumUpTo_perm hdelays, Chainspec.sumUpTo_bombDelays]
  case total =>
    -- No block is above this one, so the sum up to it is that of all rows.
    have hbelow : ∀ b : UInt64, b.toNat ≤ 2 ^ 64 := fun b => Nat.le_of_lt b.toNat_lt
    have hall : ∀ e ∈ delays, e.1 ≤ 2 ^ 64 := by
      intro e he
      obtain ⟨x, -, rfl⟩ := List.mem_map.mp (hdelays.mem_iff.mp he)
      exact hbelow x.1
    rw [← sumUpTo_eq_sumOf hall, sumUpTo_perm hdelays, Chainspec.sumUpTo_bombDelays,
      if_pos (hbelow _), if_pos (hbelow _), if_pos (hbelow _), if_pos (hbelow _),
      if_pos (hbelow _)]

/-- **Schedules**: from the chainspec of a proof-of-work network one reads a
schedule of rewards and one of delays. Where the forks are in order, a
block pays what its fork says, and in any order the delays that begin up to
a block are those of the forks up to it. -/
theorem ethash_schedules_mean_the_forks {client : Client} {g : Genesis} {c : Ethash}
    (hclient : client = .openEthereum ∨ client = .nethermind) (hengine : g.engine = .ethash c)
    (hnonce : g.nonce.toNat < 2 ^ 64) :
    ∃ doc rewards delays, g.document client = .ok doc ∧
      (doc.at? ["engine", "Ethash", "params", "blockReward"]).bind readSchedule? = some rewards ∧
      (doc.at? ["engine", "Ethash", "params", "difficultyBombDelays"]).bind readSchedule? =
        some delays ∧
      SchedulesOf g.forks rewards delays := by
  have hconsensus : g.consensus ≠ .istanbul := by
    simp [consensus, Engine.consensus, hengine]
  obtain ⟨doc, hdoc⟩ : ∃ doc, Chainspec.document client g = .ok doc :=
    Chainspec.exists_document_iff.mpr ⟨hconsensus, hnonce⟩
  obtain ⟨engine, extra, nonce, he, -, hat⟩ := Chainspec.at?_of_document hdoc
  simp only [Chainspec.engineAndExtra?, hengine, Option.some.injEq, Prod.mk.injEq] at he
  obtain ⟨rfl, rfl⟩ := he
  have hparam : ∀ key, doc.at? ["engine", "Ethash", "params", key] =
      ((Chainspec.ethashParams g.forks c).get? key).map canonical := by
    intro key
    rw [hat, at?_ethashParams]
  obtain ⟨rewards, hrewards, hrewardPerm⟩ :=
    Chainspec.readSchedule?_byBlock fun _ (h : _ ∈ (Chainspec.rewards g.forks).entries) =>
      Chainspec.hexNumber?_of_mem_rewards h
  obtain ⟨delays, hdelays, hdelayPerm⟩ :=
    Chainspec.readSchedule?_byBlock fun e (_ : e ∈ (Chainspec.bombDelays g.forks).entries) =>
      hexNumber?_numberText (id e.2)
  refine ⟨doc, rewards, delays, ?_, ?_, ?_, schedulesOf_of_perm hrewardPerm hdelayPerm⟩
  · rw [document_of_nested hclient, hdoc]
  · rw [hparam]
    exact hrewards
  · rw [hparam]
    exact hdelays

/-- A schedule in which two rewards and four delays begin at one block. -/
def crowdedForks : ForkSchedule where
  byzantium := 7
  constantinople := 7
  petersburg := 7
  istanbul := 7
  muirGlacier := 7
  berlin := 7
  london := 7
  arrowGlacier := 9

theorem schedules_of_crowdedForks :
    ∃ doc rewards delays, (minedNetwork ⟨[], rfl⟩ crowdedForks).document .nethermind = .ok doc ∧
      (doc.at? ["engine", "Ethash", "params", "blockReward"]).bind readSchedule? = some rewards ∧
      (doc.at? ["engine", "Ethash", "params", "difficultyBombDelays"]).bind readSchedule? =
        some delays ∧
      InForce rewards 6 (5 * ether) ∧ InForce rewards 7 (2 * ether) ∧
      sumUpTo 6 delays = 0 ∧ sumUpTo 7 delays = 9700000 ∧ sumUpTo 9 delays = 10700000 := by
  obtain ⟨doc, rewards, delays, hdoc, hrewards, hdelays, h⟩ :=
    ethash_schedules_mean_the_forks (g := minedNetwork ⟨[], rfl⟩ crowdedForks)
      (.inr rfl) rfl (by decide)
  have horder : crowdedForks.violations = [] := by decide
  exact ⟨doc, rewards, delays, hdoc, hrewards, hdelays, h.frontier horder 6 (by decide),
    h.constantinople horder 7 (by decide), h.delayed 6, h.delayed 7, h.delayed 9⟩

end Provision.Genesis
