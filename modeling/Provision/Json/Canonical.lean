/-
Provision.Json.Canonical — values whose objects have ascending keys.

`canonical` puts the members of every object in ascending order of their
keys; of two members with one key it keeps the later. A value is in
canonical form when it has no object out of order, which is so of what
`canonical` makes (`isCanonical_canonical`), and `canonical` leaves such a
value as it is (`canonical_eq_self`).
-/
import Provision.Json.Basic

namespace Provision.Json

mutual
/-- The value with the members of every object in ascending order. -/
def canonical : Json → Json
  | .arr items => .arr (canonicalItems items)
  | .obj ms => .obj (OrderedMap.ofList (canonicalMembers ms)).entries
  | j => j
/-- The elements with the members of every object in ascending order. -/
def canonicalItems : List Json → List Json
  | [] => []
  | j :: js => canonical j :: canonicalItems js
/-- The members, in whose values every object is in ascending order. -/
def canonicalMembers : List (String × Json) → List (String × Json)
  | [] => []
  | (k, j) :: ms => (k, canonical j) :: canonicalMembers ms
end

mutual
/-- Whether the keys of every object ascend. -/
def IsCanonical : Json → Prop
  | .arr items => AllCanonical items
  | .obj ms => ms.Pairwise (fun a b => compare a.1 b.1 = .lt) ∧ MembersCanonical ms
  | _ => True
/-- Whether the keys of every object in the elements ascend. -/
def AllCanonical : List Json → Prop
  | [] => True
  | j :: js => IsCanonical j ∧ AllCanonical js
/-- Whether the keys of every object in the values of the members ascend. -/
def MembersCanonical : List (String × Json) → Prop
  | [] => True
  | (_, j) :: ms => IsCanonical j ∧ MembersCanonical ms
end

theorem membersCanonical_iff (ms : List (String × Json)) :
    MembersCanonical ms ↔ ∀ e ∈ ms, IsCanonical e.2 := by
  induction ms with
  | nil => simp [MembersCanonical]
  | cons e ms ih => simp [MembersCanonical, ih]

theorem membersCanonical_ofList {ms : List (String × Json)} (h : MembersCanonical ms) :
    MembersCanonical (OrderedMap.ofList ms).entries := by
  rw [membersCanonical_iff] at h ⊢
  intro e he
  exact h e (OrderedMap.mem_of_mem_ofList he)

mutual
/-- **What `canonical` makes is in canonical form.** -/
theorem isCanonical_canonical : ∀ j : Json, IsCanonical (canonical j)
  | .arr items => by
    rw [canonical, IsCanonical]
    exact allCanonical_canonicalItems items
  | .obj ms => by
    rw [canonical, IsCanonical]
    exact ⟨OrderedMap.sorted _,
      membersCanonical_ofList (membersCanonical_canonicalMembers ms)⟩
  | .null | .bool _ | .nat _ | .str _ => by simp [canonical, IsCanonical]
theorem allCanonical_canonicalItems : ∀ js : List Json, AllCanonical (canonicalItems js)
  | [] => by simp [canonicalItems, AllCanonical]
  | j :: js => by
    rw [canonicalItems, AllCanonical]
    exact ⟨isCanonical_canonical j, allCanonical_canonicalItems js⟩
theorem membersCanonical_canonicalMembers :
    ∀ ms : List (String × Json), MembersCanonical (canonicalMembers ms)
  | [] => by simp [canonicalMembers, MembersCanonical]
  | (_, j) :: ms => by
    rw [canonicalMembers, MembersCanonical]
    exact ⟨isCanonical_canonical j, membersCanonical_canonicalMembers ms⟩
end

mutual
/-- A value in canonical form stays as it is. -/
theorem canonical_eq_self : ∀ j : Json, IsCanonical j → canonical j = j
  | .arr items, h => by
    rw [IsCanonical] at h
    rw [canonical, canonicalItems_eq_self items h]
  | .obj ms, h => by
    rw [IsCanonical] at h
    rw [canonical, canonicalMembers_eq_self ms h.2, OrderedMap.ofList_entries ⟨ms, h.1⟩]
  | .null, _ | .bool _, _ | .nat _, _ | .str _, _ => by simp [canonical]
theorem canonicalItems_eq_self : ∀ js : List Json, AllCanonical js → canonicalItems js = js
  | [], _ => by simp [canonicalItems]
  | j :: js, h => by
    rw [AllCanonical] at h
    rw [canonicalItems, canonical_eq_self j h.1, canonicalItems_eq_self js h.2]
theorem canonicalMembers_eq_self :
    ∀ ms : List (String × Json), MembersCanonical ms → canonicalMembers ms = ms
  | [], _ => by simp [canonicalMembers]
  | (_, j) :: ms, h => by
    rw [MembersCanonical] at h
    rw [canonicalMembers, canonical_eq_self j h.1, canonicalMembers_eq_self ms h.2]
end

end Provision.Json
