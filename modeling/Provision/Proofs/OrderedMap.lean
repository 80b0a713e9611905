/-
Provision.Proofs.OrderedMap — maps that are built from a list of entries.

`ofList` commutes with what leaves the keys alone: with a change of the
values (`entries_ofList_map`) and with a choice by the key
(`entries_ofList_filter`). Where no key of the list stands twice, nothing
is overwritten, and the map has the entries of the list in another order
(`ofList_perm`).
-/
import Provision.OrderedMap

namespace Provision.OrderedMap

variable {κ ν μ : Type} [Ord κ]

/-! ## Entries and answers -/

theorem lookup_eq_list_lookup [Std.LawfulEqOrd κ] [BEq κ] [LawfulBEq κ] (k : κ)
    (l : List (κ × ν)) : lookup k l = l.lookup k := by
  induction l with
  | nil => rfl
  | cons hd tl ih =>
    obtain ⟨k', v'⟩ := hd
    rw [lookup, List.lookup_cons, ih]
    by_cases h : k = k'
    · simp [h]
    · have hb : (k == k') = false := beq_eq_false_iff_ne.mpr h
      simp [h, hb]

theorem mem_of_lookup_eq_some [Std.LawfulEqOrd κ] {k : κ} {v : ν} {l : List (κ × ν)}
    (h : lookup k l = some v) : (k, v) ∈ l := by
  induction l with
  | nil => simp [lookup] at h
  | cons hd tl ih =>
    obtain ⟨k', v'⟩ := hd
    rw [lookup] at h
    split at h
    · rename_i hk
      cases Std.LawfulEqCmp.eq_of_compare hk
      cases h
      exact List.mem_cons_self
    · exact List.mem_cons_of_mem _ (ih h)

/-- The keys ascend, so no key stands twice. -/
theorem keys_nodup [Std.TransOrd κ] [Std.LawfulEqOrd κ] (m : OrderedMap κ ν) : m.keys.Nodup := by
  refine List.pairwise_map.mpr (m.sorted.imp ?_)
  intro a b hlt heq
  simp [heq] at hlt

theorem get?_eq_some_iff [Std.TransOrd κ] [Std.LawfulEqOrd κ] {m : OrderedMap κ ν} {k : κ}
    {v : ν} : m.get? k = some v ↔ (k, v) ∈ m.entries := by
  refine ⟨mem_of_lookup_eq_some, fun h => ?_⟩
  obtain ⟨l, hl⟩ := m
  simp only [get?] at h ⊢
  induction l with
  | nil => exact absurd h List.not_mem_nil
  | cons hd tl ih =>
    obtain ⟨hlt, htl⟩ := List.pairwise_cons.mp hl
    rcases List.mem_cons.mp h with rfl | h
    · simp [lookup]
    · have hne : compare k hd.1 ≠ .eq := by
        rw [Std.OrientedCmp.gt_of_lt (hlt (k, v) h)]
        decide
      rw [lookup, if_neg hne, ih htl h]

theorem mem_keys_iff [Std.TransOrd κ] [Std.LawfulEqOrd κ] {m : OrderedMap κ ν} {k : κ} :
    k ∈ m.keys ↔ (m.get? k).isSome = true := by
  simp [keys, Option.isSome_iff_exists, get?_eq_some_iff]

/-- Two keys may be bound in any order. -/
theorem insert_comm [Std.TransOrd κ] [Std.LawfulEqOrd κ] [DecidableEq κ] (m : OrderedMap κ ν)
    {k k' : κ} (hne : k ≠ k') (v v' : ν) :
    (m.insert k v).insert k' v' = (m.insert k' v').insert k v := by
  refine ext_get? fun q => ?_
  simp only [get?_insert]
  by_cases hq : q = k
  · rw [hq, if_neg hne, if_pos rfl, if_pos rfl]
  · rw [if_neg hq, if_neg hq]

/-! ## A change of the values -/

theorem insertEntry_map (f : κ → ν → μ) (k : κ) (v : ν) (l : List (κ × ν)) [Std.LawfulEqOrd κ] :
    insertEntry k (f k v) (l.map fun e => (e.1, f e.1 e.2)) =
      (insertEntry k v l).map fun e => (e.1, f e.1 e.2) := by
  induction l with
  | nil => rfl
  | cons hd tl ih =>
    obtain ⟨k', v'⟩ := hd
    simp only [List.map_cons, insertEntry]
    split
    · rfl
    · rfl
    · rw [List.map_cons, ih]

theorem entries_insertAll_map [Std.TransOrd κ] [Std.LawfulEqOrd κ] (f : κ → ν → μ)
    (l : List (κ × ν)) (m : OrderedMap κ ν) (n : OrderedMap κ μ)
    (h : n.entries = m.entries.map fun e => (e.1, f e.1 e.2)) :
    (n.insertAll (l.map fun e => (e.1, f e.1 e.2))).entries =
      (m.insertAll l).entries.map fun e => (e.1, f e.1 e.2) := by
  induction l generalizing m n with
  | nil => exact h
  | cons e l ih =>
    refine ih (m.insert e.1 e.2) (n.insert e.1 (f e.1 e.2)) ?_
    simp only [insert, h, insertEntry_map]

/-- A change of the values may be made before or after the map is built. -/
theorem entries_ofList_map [Std.TransOrd κ] [Std.LawfulEqOrd κ] (f : κ → ν → μ)
    (l : List (κ × ν)) :
    (ofList (l.map fun e => (e.1, f e.1 e.2))).entries =
      (ofList l).entries.map fun e => (e.1, f e.1 e.2) :=
  entries_insertAll_map f l empty empty rfl

theorem get?_mapValues (f : ν → μ) (m : OrderedMap κ ν) (k : κ) :
    (m.mapValues f).get? k = (m.get? k).map f := by
  obtain ⟨l, hl⟩ := m
  simp only [get?, mapValues]
  clear hl
  induction l with
  | nil => rfl
  | cons hd tl ih =>
    simp only [List.map_cons, lookup]
    split
    · rfl
    · exact ih

/-- The entries of a map with their values changed are a map again. -/
theorem ofList_entries_map [Std.TransOrd κ] [Std.LawfulEqOrd κ] (f : ν → μ)
    (m : OrderedMap κ ν) : ofList (m.entries.map fun e => (e.1, f e.2)) = m.mapValues f := by
  have h := entries_ofList_map (fun _ v => f v) m.entries
  rw [ofList_entries] at h
  exact ext_get? fun k => by rw [get?, h]; rfl

/-! ## Overlays -/

/-- The entries that are laid over others are asked first. -/
theorem get?_ofList_append [Std.TransOrd κ] [Std.LawfulEqOrd κ] [DecidableEq κ]
    (below above : List (κ × ν)) (q : κ) :
    (ofList (below ++ above)).get? q = ((ofList above).get? q).or ((ofList below).get? q) := by
  simp only [get?_ofList, List.reverse_append, List.find?_append]
  cases above.reverse.find? fun e => e.1 = q <;> simp

/-! ## A choice by the key -/

theorem lookup_filter [Std.LawfulEqOrd κ] [DecidableEq κ] (p : κ → Bool) (q : κ)
    (l : List (κ × ν)) :
    lookup q (l.filter fun e => p e.1) = if p q then lookup q l else none := by
  induction l with
  | nil => simp [lookup]
  | cons hd tl ih =>
    obtain ⟨k, v⟩ := hd
    by_cases hq : q = k
    · subst hq
      by_cases hp : p q
      · simp [hp, lookup]
      · simp [hp, ih]
    · by_cases hp : p k <;> simp [hp, lookup, hq, ih]

omit [Ord κ] in
theorem find?_reverse_filter [DecidableEq κ] (p : κ → Bool) (q : κ) (l : List (κ × ν)) :
    ((l.filter fun e => p e.1).reverse.find? fun e => decide (e.1 = q)) =
      if p q then l.reverse.find? (fun e => decide (e.1 = q)) else none := by
  rw [← List.filter_reverse]
  induction l.reverse with
  | nil => simp
  | cons e l ih =>
    by_cases hq : e.1 = q
    · subst hq
      by_cases hp : p e.1
      · simp [hp]
      · simpa [hp] using ih
    · by_cases hp : p e.1 <;> simp [hp, hq, ih]

/-- A choice by the key may be made before or after the map is built. -/
theorem entries_ofList_filter [Std.TransOrd κ] [Std.LawfulEqOrd κ] [DecidableEq κ] (p : κ → Bool)
    (l : List (κ × ν)) :
    (ofList (l.filter fun e => p e.1)).entries = (ofList l).entries.filter fun e => p e.1 := by
  refine entries_ext (ofList _).sorted ((ofList l).sorted.filter _) fun q => ?_
  have h₁ := get?_ofList (l.filter fun e => p e.1) q
  have h₂ := get?_ofList l q
  simp only [get?] at h₁ h₂
  rw [lookup_filter, h₁, h₂, find?_reverse_filter]
  split <;> rfl

/-! ## Lists without a repeated key -/

theorem insertEntry_perm [Std.LawfulEqOrd κ] {k : κ} {v : ν} {l : List (κ × ν)}
    (h : k ∉ l.map Prod.fst) : (insertEntry k v l).Perm ((k, v) :: l) := by
  induction l with
  | nil => exact .refl _
  | cons hd tl ih =>
    obtain ⟨k', v'⟩ := hd
    simp only [List.map_cons, List.mem_cons, not_or] at h
    rw [insertEntry]
    split
    · exact .refl _
    · rename_i hc
      exact absurd (Std.LawfulEqCmp.eq_of_compare hc) h.1
    · exact ((ih h.2).cons _).trans (.swap ..)

theorem insertAll_perm [Std.TransOrd κ] [Std.LawfulEqOrd κ] (m : OrderedMap κ ν)
    (l : List (κ × ν)) (h : ((m.entries ++ l).map Prod.fst).Nodup) :
    (m.insertAll l).entries.Perm (m.entries ++ l) := by
  induction l generalizing m with
  | nil => simp [insertAll]
  | cons e l ih =>
    have hmid : (m.entries ++ e :: l).Perm (e :: (m.entries ++ l)) := List.perm_middle
    have hnd : (((e :: m.entries) ++ l).map Prod.fst).Nodup := (hmid.map _).nodup_iff.mp h
    have hnew : e.1 ∉ m.entries.map Prod.fst := by
      intro hmem
      simp only [List.cons_append, List.map_cons, List.nodup_cons, List.map_append,
        List.mem_append, not_or] at hnd
      exact hnd.1.1 hmem
    have hins : (m.insert e.1 e.2).entries.Perm (e :: m.entries) := insertEntry_perm hnew
    have hstep := ih (m.insert e.1 e.2) (((hins.append_right l).map _).nodup_iff.mpr hnd)
    exact (hstep.trans (hins.append_right l)).trans hmid.symm

/-- Where no key stands twice, the map has the entries of the list. -/
theorem ofList_perm [Std.TransOrd κ] [Std.LawfulEqOrd κ] {l : List (κ × ν)}
    (h : (l.map Prod.fst).Nodup) : (ofList l).entries.Perm l :=
  insertAll_perm empty l h

/-- Where no key stands twice, the map answers the entries of the list. -/
theorem get?_ofList_of_nodup [Std.TransOrd κ] [Std.LawfulEqOrd κ] [BEq κ] [LawfulBEq κ]
    {l : List (κ × ν)} (h : (l.map Prod.fst).Nodup) (q : κ) :
    (ofList l).get? q = l.lookup q := by
  have hmem : ∀ v, (ofList l).get? q = some v ↔ (q, v) ∈ l := fun v => by
    rw [get?_eq_some_iff]
    exact (ofList_perm h).mem_iff
  cases hl : l.lookup q with
  | some v =>
    rw [← lookup_eq_list_lookup] at hl
    exact (hmem v).mpr (mem_of_lookup_eq_some hl)
  | none =>
    cases hm : (ofList l).get? q with
    | none => rfl
    | some v =>
      have hv := (hmem v).mp hm
      rw [List.lookup_eq_none_iff] at hl
      exact absurd (hl (q, v) hv) (by simp)

end Provision.OrderedMap
