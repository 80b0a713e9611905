/-
Provision.Proofs.Fork — what the blocks of the forks tell of a schedule,
and what is said of one that is out of order.

A schedule is the blocks of its forks (`ext_block?`), and it has no
violations when no fork has a greater block than one that comes after it,
be they neighbours or not (`inOrder_iff`). The violations are told by the
order of the forks alone: two forks are neighbours when both are scheduled
and none between them is (`Adjacent`), and the list of violations is the
one that names every two neighbours out of order, in the order of the
forks and each of them once (`reports_iff`).
-/
import Mathlib.Data.List.Nodup
import Provision.Fork

namespace Provision.ForkSchedule

theorem ext_block? {s t : ForkSchedule} (h : ∀ k, s.block? k = t.block? k) : s = t := by
  cases s
  cases t
  rw [ForkSchedule.mk.injEq]
  exact ⟨Option.some.inj (h .homestead), h .dao, Option.some.inj (h .eip150),
    Option.some.inj (h .eip155), Option.some.inj (h .eip158), Option.some.inj (h .byzantium),
    Option.some.inj (h .constantinople), Option.some.inj (h .petersburg),
    Option.some.inj (h .istanbul), Option.some.inj (h .muirGlacier), Option.some.inj (h .berlin),
    Option.some.inj (h .london), Option.some.inj (h .arrowGlacier)⟩

/-! ## Order -/

/-- Of every two scheduled forks the later has no smaller block. -/
def InOrder (s : ForkSchedule) : Prop :=
  ∀ j k, [j, k].Sublist Fork.all → ∀ m n, s.block? j = some m → s.block? k = some n → m ≤ n

/-- **Order**: there are no violations exactly when the blocks of any two
forks are in order, neighbours or not. -/
theorem inOrder_iff {s : ForkSchedule} : s.InOrder ↔ s.violations = [] := by
  rw [violations_eq_nil_iff, ordered, List.pairwise_filterMap, List.pairwise_iff_forall_sublist]
  simp only [Option.map_eq_some_iff]
  constructor
  · rintro h j k hjk _ ⟨m, hm, rfl⟩ _ ⟨n, hn, rfl⟩
    exact h j k hjk m n hm hn
  · intro h j k hjk m n hm hn
    exact h hjk (j, m) ⟨m, hm, rfl⟩ (k, n) ⟨n, hn, rfl⟩

/-- In a schedule in order the blocks of two forks are, neighbours or not. -/
theorem le_of_violations_eq_nil {s : ForkSchedule} (h : s.violations = []) {j k : Fork}
    (hjk : [j, k].Sublist Fork.all) {m n : UInt64} (hj : s.block? j = some m)
    (hk : s.block? k = some n) : m ≤ n :=
  inOrder_iff.mpr h j k hjk m n hj hk

/-! ## Neighbours -/

/-- Two scheduled forks with no scheduled fork between them. -/
structure Adjacent (s : ForkSchedule) (a b : Fork × UInt64) : Prop where
  before : [a.1, b.1].Sublist Fork.all
  earlier : s.block? a.1 = some a.2
  later : s.block? b.1 = some b.2
  between : ∀ k, [a.1, k, b.1].Sublist Fork.all → s.block? k = none

theorem nodup_all : Fork.all.Nodup := by decide

/-- Two results are neighbours when nothing between their origins has a
result. -/
theorem infix_filterMap_iff {α β : Type} {f : α → Option β} {l : List α} {x y : β} :
    [x, y] <:+: l.filterMap f ↔
      ∃ front a between b back, l = front ++ a :: (between ++ b :: back) ∧
        f a = some x ∧ f b = some y ∧ ∀ c ∈ between, f c = none := by
  constructor
  · rintro ⟨p, q, h⟩
    rw [List.append_assoc] at h
    obtain ⟨l₁, l₂, rfl, -, h⟩ := List.filterMap_eq_append_iff.mp h.symm
    obtain ⟨m₁, a, m₂, rfl, -, ha, h⟩ := List.filterMap_eq_cons_iff.mp h
    obtain ⟨between, b, back, rfl, hbetween, hb, -⟩ := List.filterMap_eq_cons_iff.mp h
    exact ⟨l₁ ++ m₁, a, between, b, back, by simp, ha, hb, hbetween⟩
  · rintro ⟨front, a, between, b, back, rfl, ha, hb, hbetween⟩
    refine ⟨front.filterMap f, back.filterMap f, ?_⟩
    rw [List.filterMap_append, List.filterMap_cons_some ha, List.filterMap_append,
      List.filterMap_eq_nil_iff.mpr hbetween, List.filterMap_cons_some hb]
    simp

/-- Where nothing stands twice, what stands between two elements is in the
part between them. -/
theorem mem_of_sublist_between {α : Type} {front between back : List α} {a b c : α}
    (hnodup : (front ++ a :: (between ++ b :: back)).Nodup)
    (h : [a, c, b].Sublist (front ++ a :: (between ++ b :: back))) : c ∈ between := by
  obtain ⟨-, hback, hfront⟩ := List.nodup_append.mp hnodup
  obtain ⟨l₁, l₂, heq, h₁, h₂⟩ := List.sublist_append_iff.mp h
  cases l₁ with
  | cons x l₁ =>
    obtain ⟨rfl, -⟩ := List.cons.inj heq
    exact absurd rfl (hfront a (h₁.subset List.mem_cons_self) a List.mem_cons_self)
  | nil =>
    obtain rfl : [a, c, b] = l₂ := heq
    have hrest := List.cons_sublist_cons.mp h₂
    obtain ⟨-, htail⟩ := List.nodup_cons.mp hback
    obtain ⟨-, hb, -⟩ := List.nodup_append.mp htail
    obtain ⟨m₁, m₂, heq, hm₁, hm₂⟩ := List.sublist_append_iff.mp hrest
    cases m₁ with
    | cons x m₁ =>
      obtain ⟨rfl, -⟩ := List.cons.inj heq
      exact hm₁.subset List.mem_cons_self
    | nil =>
      -- Then `b` would stand behind itself.
      obtain rfl : [c, b] = m₂ := heq
      exfalso
      refine (List.nodup_cons.mp hb).1 ?_
      rcases List.sublist_cons_iff.mp hm₂ with hmem | ⟨r, hr, hmem⟩
      · exact hmem.subset (by simp)
      · obtain ⟨-, rfl⟩ := List.cons.inj hr
        exact hmem.subset List.mem_cons_self

/-- Where nothing stands twice, no two elements stand one before the other
both ways. -/
theorem not_sublist_swap {α : Type} {l : List α} (hnodup : l.Nodup) {a b : α}
    (h : [a, b].Sublist l) : ¬ [b, a].Sublist l := by
  intro hswap
  obtain ⟨front, back, rfl, ha, hb⟩ := List.cons_sublist_iff.mp h
  have hdisjoint := (List.nodup_append.mp hnodup).2.2
  obtain ⟨l₁, l₂, heq, h₁, h₂⟩ := List.sublist_append_iff.mp hswap
  cases l₁ with
  | nil =>
    obtain rfl : [b, a] = l₂ := heq
    exact hdisjoint a ha a (h₂.subset (by simp)) rfl
  | cons x l₁ =>
    obtain ⟨rfl, -⟩ := List.cons.inj heq
    exact hdisjoint b (h₁.subset List.mem_cons_self) b (List.singleton_sublist.mp hb) rfl

/-- Neighbours stand one behind the other in the list of scheduled forks. -/
theorem adjacent_iff {s : ForkSchedule} {a b : Fork × UInt64} :
    s.Adjacent a b ↔ [a, b] <:+: s.ordered := by
  have hblock {k : Fork} {e : Fork × UInt64} :
      (s.block? k).map (fun n => (k, n)) = some e ↔ k = e.1 ∧ s.block? e.1 = some e.2 := by
    obtain ⟨k', n⟩ := e
    simp only [Option.map_eq_some_iff, Prod.mk.injEq]
    constructor
    · rintro ⟨_, hn, rfl, rfl⟩
      exact ⟨rfl, hn⟩
    · rintro ⟨rfl, hn⟩
      exact ⟨n, hn, rfl, rfl⟩
  rw [ordered, infix_filterMap_iff]
  constructor
  · rintro ⟨hbefore, hearlier, hlater, hbetween⟩
    obtain ⟨r₁, r₂, hall, ha, hb⟩ := List.cons_sublist_iff.mp hbefore
    obtain ⟨front, mid, rfl⟩ := List.append_of_mem ha
    obtain ⟨mid', back, rfl⟩ := List.append_of_mem (List.singleton_sublist.mp hb)
    refine ⟨front, a.1, mid ++ mid', b.1, back, by simp [hall], hblock.mpr ⟨rfl, hearlier⟩,
      hblock.mpr ⟨rfl, hlater⟩, fun k hk => ?_⟩
    rw [Option.map_eq_none_iff]
    refine hbetween k ?_
    rw [hall, List.append_assoc, List.cons_append, ← List.append_assoc mid]
    refine List.Sublist.trans ?_ (List.sublist_append_right front _)
    refine List.cons_sublist_cons.mpr (List.cons_sublist_iff.mpr ?_)
    exact ⟨mid ++ mid', b.1 :: back, rfl, hk, by simp⟩
  · rintro ⟨front, j, mid, k, back, hall, hj, hk, hmid⟩
    obtain ⟨rfl, hearlier⟩ := hblock.mp hj
    obtain ⟨rfl, hlater⟩ := hblock.mp hk
    refine ⟨?_, hearlier, hlater, fun i hi => ?_⟩
    · rw [hall]
      refine List.Sublist.trans ?_ (List.sublist_append_right front _)
      exact List.cons_sublist_cons.mpr (List.singleton_sublist.mpr (by simp))
    · exact Option.map_eq_none_iff.mp
        (hmid i (mem_of_sublist_between (hall ▸ nodup_all) (hall ▸ hi)))

/-- Where the DAO fork is left out the forks on its two sides are
neighbours, and only there. -/
theorem adjacent_beside_dao_iff (s : ForkSchedule) :
    s.Adjacent (.homestead, s.homestead) (.eip150, s.eip150) ↔ s.dao = none := by
  have hbetween : ∀ k, [Fork.homestead, k, .eip150].Sublist Fork.all ↔ k = .dao := by
    intro k
    cases k <;> decide
  constructor
  · intro h
    exact h.between .dao ((hbetween .dao).mpr rfl)
  · intro hdao
    have hbefore : [Fork.homestead, .eip150].Sublist Fork.all := by decide
    exact ⟨hbefore, rfl, rfl, fun k hk => (hbetween k).mp hk ▸ hdao⟩

/-! ## Reports -/

/-- The violations in a list are those of its neighbours that are out of
order. -/
theorem mem_descents_iff {l : List (Fork × UInt64)} {v : Violation} :
    v ∈ descents l ↔ [v.earlier, v.later] <:+: l ∧ v.later.2 < v.earlier.2 := by
  obtain ⟨x, y⟩ := v
  induction l with
  | nil => simp [descents]
  | cons a l ih =>
    cases l with
    | nil => simp [descents, List.infix_cons_iff]
    | cons b rest =>
      rw [descents, List.infix_cons_iff, List.cons_prefix_cons, List.cons_prefix_cons]
      simp only [List.nil_prefix, and_true]
      split
      · rename_i hlt
        rw [List.mem_cons, ih, Violation.mk.injEq]
        constructor
        · rintro (⟨rfl, rfl⟩ | h)
          · exact ⟨.inl ⟨rfl, rfl⟩, hlt⟩
          · exact ⟨.inr h.1, h.2⟩
        · rintro ⟨h | h, hlt'⟩
          · exact .inl h
          · exact .inr ⟨h, hlt'⟩
      · rename_i hge
        rw [ih]
        constructor
        · exact fun h => ⟨.inr h.1, h.2⟩
        · rintro ⟨⟨rfl, rfl⟩ | h, hlt⟩
          · exact absurd hlt hge
          · exact ⟨h, hlt⟩

theorem map_earlier_descents_sublist (l : List (Fork × UInt64)) :
    ((descents l).map Violation.earlier).Sublist l := by
  induction l with
  | nil => exact List.Sublist.refl _
  | cons a l ih =>
    cases l with
    | nil => exact List.nil_sublist _
    | cons b rest =>
      rw [descents]
      split
      · exact ih.cons_cons a
      · exact ih.cons a

theorem map_fst_ordered_sublist (s : ForkSchedule) : (s.ordered.map Prod.fst).Sublist Fork.all := by
  rw [ordered, List.map_filterMap]
  have hkeep : (fun k => ((s.block? k).map fun n => (k, n)).map Prod.fst) =
      Option.guard fun k => (s.block? k).isSome := by
    funext k
    cases h : s.block? k <;> simp [Option.guard, h]
  rw [hkeep, List.filterMap_eq_filter]
  exact List.filter_sublist

/-- These violations are all the neighbours out of order, in the order of
the forks, so that none of them is named twice. -/
structure Reports (s : ForkSchedule) (vs : List Violation) : Prop where
  exact : ∀ v, v ∈ vs ↔ s.Adjacent v.earlier v.later ∧ v.later.2 < v.earlier.2
  inOrder : vs.Pairwise fun v w => [v.earlier.1, w.earlier.1].Sublist Fork.all

theorem Reports.nodup {s : ForkSchedule} {vs : List Violation} (h : s.Reports vs) : vs.Nodup := by
  refine h.inOrder.imp fun {v w} hbefore heq => ?_
  have hnodup := nodup_all.sublist (heq ▸ hbefore)
  simp at hnodup

theorem reports_violations (s : ForkSchedule) : s.Reports s.violations := by
  constructor
  case exact =>
    intro v
    rw [violations, mem_descents_iff, adjacent_iff]
  case inOrder =>
    have hsub : (s.violations.map fun v => v.earlier.1).Sublist Fork.all := by
      have hmap := (map_earlier_descents_sublist s.ordered).map Prod.fst
      rw [List.map_map] at hmap
      exact hmap.trans s.map_fst_ordered_sublist
    have hpairs : (s.violations.map fun v => v.earlier.1).Pairwise
        fun j k => [j, k].Sublist Fork.all :=
      List.pairwise_iff_forall_sublist.mpr fun h => h.trans hsub
    exact List.pairwise_map.mp hpairs

/-- **Violations**: a list reports a schedule exactly when it is the list of
its violations. -/
theorem reports_iff {s : ForkSchedule} {vs : List Violation} :
    s.Reports vs ↔ vs = s.violations := by
  constructor
  · intro h
    have hviolations := s.reports_violations
    refine List.Perm.eq_of_pairwise ?_ h.inOrder hviolations.inOrder
      ((List.perm_ext_iff_of_nodup h.nodup hviolations.nodup).mpr fun v => ?_)
    · intro v w _ _ hvw hwv
      exact absurd hwv (not_sublist_swap nodup_all hvw)
    · rw [h.exact, hviolations.exact]
  · rintro rfl
    exact s.reports_violations

end Provision.ForkSchedule
