/-
Provision.Proofs.Json.Canonical — canonical form, seen in the text.

To put a value into canonical form is to reorder it, where no object repeats
a key (`reorder_canonical`). In the tree of a value in canonical form the
keys of every object ascend in the order of their bytes (`KeysAscend`), so
no key stands twice in it (`KeysAscend.distinctKeys`).
-/
import Provision.Json.Canonical
import Provision.Proofs.Json.Order
import Provision.Proofs.Text.Bytes

namespace Provision.Json

open Source

/-! ## Canonical form is an order -/

theorem keys_canonicalMembers (ms : List (String × Json)) :
    (canonicalMembers ms).map Prod.fst = ms.map Prod.fst := by
  rw [canonicalMembers_eq_map, List.map_map]
  rfl

/-- The members of a map of distinct keys are those it was made of. -/
theorem ofMembers_ofList_perm (e : Closing) {ms : List (String × Json)}
    (h : (ms.map Prod.fst).Nodup) :
    (ofMembers e ms).Perm (ofMembers e (OrderedMap.ofList ms).entries) := by
  rw [ofMembers_eq_map, ofMembers_eq_map]
  exact ((OrderedMap.ofList_perm h).map _).symm

mutual
/-- **Nothing is lost**: a value in canonical form differs from what it was
made of only in the order of members. -/
theorem reorder_canonical (e : Closing) :
    ∀ {j : Json}, j.DistinctKeys → (ofJson e j).Reorder (ofJson e j.canonical)
  | .null, _ | .bool _, _ | .nat _, _ | .str _, _ => by
    simp only [canonical]
    exact .refl _
  | .arr items, h => by
    rw [Json.DistinctKeys] at h
    rw [canonical]
    exact .array e (reorder_canonicalItems e h)
  | .obj ms, h => by
    rw [Json.DistinctKeys] at h
    rw [canonical]
    have hkeys : ((canonicalMembers ms).map Prod.fst).Nodup := by
      rw [keys_canonicalMembers]
      exact h.1
    exact .object e (reorder_canonicalMembers e h.2) (ofMembers_ofList_perm e hkeys)
theorem reorder_canonicalItems (e : Closing) : ∀ {js : List Json}, AllDistinct js →
    List.Forall₂ Reorder (ofItems e js) (ofItems e (canonicalItems js))
  | [], _ => .nil
  | j :: js, h => by
    rw [AllDistinct] at h
    exact .cons (reorder_canonical e h.1) (reorder_canonicalItems e h.2)
theorem reorder_canonicalMembers (e : Closing) : ∀ {ms : List (String × Json)},
    MembersDistinct ms →
      List.Forall₂ (SameKey Reorder) (ofMembers e ms) (ofMembers e (canonicalMembers ms))
  | [], _ => .nil
  | (k, j) :: ms, h => by
    rw [MembersDistinct] at h
    exact .cons (.mk _ (reorder_canonical e h.1)) (reorder_canonicalMembers e h.2)
end

/-! ## Ascending keys -/

/-- In every object the keys ascend strictly, in the order of their bytes. -/
def Source.KeysAscend (x : Source) : Prop :=
  ∀ ms closing, Part (.object ms closing) x →
    (Source.keys ms).Pairwise fun a b => Text.utf8 a < Text.utf8 b

/-- Keys that ascend are different. -/
theorem Source.KeysAscend.distinctKeys {x : Source} (h : x.KeysAscend) : x.DistinctKeys := by
  intro ms closing hp
  refine (h ms closing hp).imp fun hlt heq => ?_
  rw [heq] at hlt
  exact List.lt_irrefl _ hlt

theorem allCanonical_iff (js : List Json) : AllCanonical js ↔ ∀ j ∈ js, IsCanonical j := by
  induction js with
  | nil => simp [AllCanonical]
  | cons j js ih => simp [AllCanonical, ih]

/-- A part of the tree of a value in canonical form is the tree of another. -/
theorem exists_canonical_of_part {e : Closing} {p : Source} {j : Json} (h : Part p (ofJson e j))
    (hj : j.IsCanonical) : ∃ i : Json, p = ofJson e i ∧ i.IsCanonical := by
  generalize hx : ofJson e j = x at h
  induction h generalizing j with
  | refl => exact ⟨j, hx.symm, hj⟩
  | item hs _ ih =>
    cases j with
    | arr items =>
      rw [IsCanonical, allCanonical_iff] at hj
      cases hx
      rw [ofItems_eq_map] at hs
      obtain ⟨i, hi, hs⟩ := List.mem_map.mp hs
      exact ih (hj i hi) hs
    | _ => cases hx
  | member hs _ ih =>
    cases j with
    | obj ms =>
      rw [IsCanonical, membersCanonical_iff] at hj
      cases hx
      rw [ofMembers_eq_map] at hs
      obtain ⟨m, hm, heq⟩ := List.mem_map.mp hs
      exact ih (hj.2 m hm) (Prod.mk.inj heq).2
    | _ => cases hx

/-- The order of a canonical form is that of the bytes of the keys. -/
theorem IsCanonical.keysAscend {j : Json} (h : j.IsCanonical) (e : Closing) :
    (ofJson e j).KeysAscend := by
  intro ms closing hp
  obtain ⟨i, hi, hcanonical⟩ := exists_canonical_of_part hp h
  cases i with
  | obj ms =>
    rw [IsCanonical] at hcanonical
    cases hi
    rw [keys_ofMembers, List.pairwise_map]
    exact hcanonical.1.imp fun hlt => Text.utf8_lt_of_lt (compareOfLessAndEq_eq_lt.mp hlt)
  | _ => cases hi

end Provision.Json
