/-
Provision.OrderedMap — finite maps kept in ascending key order.

A map is its list of entries together with the proof that the keys
ascend, so two maps with the same entries are the same list and a map is
printed in one way only. Inserting a key that is present replaces its
value: in `ofList` the last entry of a key wins.

The main statements are `get?_insert`, which says what an insertion does
to every key, and `ext_get?`, which says that a map is determined by what
it answers.
-/

namespace Provision

/-- A finite map whose entries are in strictly ascending key order. -/
structure OrderedMap (κ ν : Type) [Ord κ] where
  entries : List (κ × ν)
  sorted : entries.Pairwise fun a b => compare a.1 b.1 = .lt

namespace OrderedMap

variable {κ ν μ : Type} [Ord κ]

instance [DecidableEq κ] [DecidableEq ν] : DecidableEq (OrderedMap κ ν) := fun a b =>
  decidable_of_iff (a.entries = b.entries) <| by
    constructor
    · intro h
      cases a; cases b; cases h; rfl
    · rintro rfl; rfl

/-! ## Insertion -/

/-- Puts an entry at its place in an ascending list, replacing the entry
of an equal key. -/
def insertEntry (k : κ) (v : ν) : List (κ × ν) → List (κ × ν)
  | [] => [(k, v)]
  | (k', v') :: rest =>
    match compare k k' with
    | .lt => (k, v) :: (k', v') :: rest
    | .eq => (k, v) :: rest
    | .gt => (k', v') :: insertEntry k v rest

theorem mem_insertEntry {k : κ} {v : ν} {e : κ × ν} {l : List (κ × ν)}
    (h : e ∈ insertEntry k v l) : e = (k, v) ∨ e ∈ l := by
  induction l with
  | nil => simpa [insertEntry] using h
  | cons hd tl ih =>
    obtain ⟨k', v'⟩ := hd
    rw [insertEntry] at h
    split at h
    · simpa using h
    · rcases List.mem_cons.mp h with h | h
      · exact Or.inl h
      · exact Or.inr (List.mem_cons_of_mem _ h)
    · rcases List.mem_cons.mp h with h | h
      · exact Or.inr (h ▸ List.mem_cons_self)
      · exact (ih h).imp id (List.mem_cons_of_mem _)

theorem insertEntry_sorted [Std.TransOrd κ] (k : κ) (v : ν) {l : List (κ × ν)}
    (h : l.Pairwise fun a b => compare a.1 b.1 = .lt) :
    (insertEntry k v l).Pairwise fun a b => compare a.1 b.1 = .lt := by
  induction l with
  | nil => simp [insertEntry]
  | cons hd tl ih =>
    obtain ⟨k', v'⟩ := hd
    obtain ⟨hlt, htl⟩ := List.pairwise_cons.mp h
    rw [insertEntry]
    split
    · rename_i hc
      refine List.pairwise_cons.mpr ⟨fun e he => ?_, h⟩
      rcases List.mem_cons.mp he with rfl | he
      · exact hc
      · exact Std.TransCmp.lt_trans hc (hlt e he)
    · rename_i hc
      exact List.pairwise_cons.mpr
        ⟨fun e he => Std.TransCmp.lt_of_eq_of_lt hc (hlt e he), htl⟩
    · rename_i hc
      refine List.pairwise_cons.mpr ⟨fun e he => ?_, ih htl⟩
      rcases mem_insertEntry he with rfl | he
      · exact Std.OrientedCmp.lt_of_gt hc
      · exact hlt e he

/-- The map without entries. -/
def empty : OrderedMap κ ν := ⟨[], List.Pairwise.nil⟩

/-- The map with `k` bound to `v` and every other key as before. -/
def insert [Std.TransOrd κ] (m : OrderedMap κ ν) (k : κ) (v : ν) : OrderedMap κ ν :=
  ⟨insertEntry k v m.entries, insertEntry_sorted k v m.sorted⟩

/-- Binds every key of the list; of two entries with one key the later wins. -/
def insertAll [Std.TransOrd κ] (m : OrderedMap κ ν) (l : List (κ × ν)) : OrderedMap κ ν :=
  l.foldl (fun m e => m.insert e.1 e.2) m

/-- The map of a list of entries; of two entries with one key the later wins. -/
def ofList [Std.TransOrd κ] (l : List (κ × ν)) : OrderedMap κ ν :=
  empty.insertAll l

theorem mem_of_mem_insertAll [Std.TransOrd κ] {m : OrderedMap κ ν} {l : List (κ × ν)} {e : κ × ν}
    (h : e ∈ (m.insertAll l).entries) : e ∈ m.entries ∨ e ∈ l := by
  induction l generalizing m with
  | nil => exact Or.inl h
  | cons a l ih =>
    rcases ih h with h | h
    · rcases mem_insertEntry h with rfl | h
      · exact Or.inr List.mem_cons_self
      · exact Or.inl h
    · exact Or.inr (List.mem_cons_of_mem _ h)

/-- Every entry of `ofList` is one of the list. -/
theorem mem_of_mem_ofList [Std.TransOrd κ] {l : List (κ × ν)} {e : κ × ν}
    (h : e ∈ (ofList l).entries) : e ∈ l :=
  (mem_of_mem_insertAll h).resolve_left List.not_mem_nil

/-! ## Lookup -/

/-- The value of a key in a list of entries. -/
def lookup (k : κ) : List (κ × ν) → Option ν
  | [] => none
  | (k', v) :: rest => if compare k k' = .eq then some v else lookup k rest

/-- The value of a key. -/
def get? (m : OrderedMap κ ν) (k : κ) : Option ν :=
  lookup k m.entries

/-- The keys, in ascending order. -/
def keys (m : OrderedMap κ ν) : List κ :=
  m.entries.map Prod.fst

/-- Changes every value and keeps the keys. -/
def mapValues (f : ν → μ) (m : OrderedMap κ ν) : OrderedMap κ μ :=
  ⟨m.entries.map fun e => (e.1, f e.2), List.Pairwise.map _ (fun _ _ h => h) m.sorted⟩

@[simp] theorem get?_empty (k : κ) : (empty : OrderedMap κ ν).get? k = none := rfl

theorem lookup_insertEntry [Std.TransOrd κ] [Std.LawfulEqOrd κ] [DecidableEq κ]
    (k q : κ) (v : ν) (l : List (κ × ν)) :
    lookup q (insertEntry k v l) = if q = k then some v else lookup q l := by
  induction l with
  | nil => simp [insertEntry, lookup]
  | cons hd tl ih =>
    obtain ⟨k', v'⟩ := hd
    rw [insertEntry]
    split
    · simp [lookup]
    · rename_i hc
      have hk : k = k' := Std.LawfulEqCmp.eq_of_compare hc
      subst hk
      by_cases hq : q = k <;> simp [lookup, hq]
    · rename_i hc
      have hk : k ≠ k' := by
        rintro rfl
        simp at hc
      by_cases hq : q = k
      · subst hq
        simp [lookup, hk, ih]
      · by_cases hq' : q = k' <;> simp [lookup, hq, hq', ih, Ne.symm hk]

/-- **Insertion**: the inserted key answers the new value and every other
key answers as before. -/
theorem get?_insert [Std.TransOrd κ] [Std.LawfulEqOrd κ] [DecidableEq κ]
    (m : OrderedMap κ ν) (k q : κ) (v : ν) :
    (m.insert k v).get? q = if q = k then some v else m.get? q :=
  lookup_insertEntry k q v m.entries

theorem get?_insertAll [Std.TransOrd κ] [Std.LawfulEqOrd κ] [DecidableEq κ]
    (m : OrderedMap κ ν) (l : List (κ × ν)) (q : κ) :
    (m.insertAll l).get? q =
      ((l.reverse.find? fun e => e.1 = q).map Prod.snd).or (m.get? q) := by
  induction l generalizing m with
  | nil => simp [insertAll]
  | cons e l ih =>
    have h := ih (m.insert e.1 e.2)
    simp only [insertAll, List.foldl_cons] at h ⊢
    rw [h, get?_insert]
    simp only [List.reverse_cons, List.find?_append]
    cases l.reverse.find? fun e => e.1 = q with
    | some x => simp
    | none => by_cases hq : e.1 = q <;> simp [hq, eq_comm (a := q)]

/-- A key of `ofList` answers its last entry. -/
theorem get?_ofList [Std.TransOrd κ] [Std.LawfulEqOrd κ] [DecidableEq κ]
    (l : List (κ × ν)) (q : κ) :
    (ofList l).get? q = (l.reverse.find? fun e => e.1 = q).map Prod.snd := by
  simp [ofList, get?_insertAll]

/-! ## Extensionality -/

theorem lookup_eq_none_of_lt [Std.TransOrd κ] {k : κ} {l : List (κ × ν)}
    (h : ∀ e ∈ l, compare k e.1 = .lt) : lookup k l = none := by
  induction l with
  | nil => rfl
  | cons hd tl ih =>
    obtain ⟨k', v'⟩ := hd
    have hk := h (k', v') List.mem_cons_self
    simp only at hk
    simp [lookup, hk, ih fun e he => h e (List.mem_cons_of_mem _ he)]

theorem entries_ext [Std.TransOrd κ] [Std.LawfulEqOrd κ] {l₁ l₂ : List (κ × ν)}
    (h₁ : l₁.Pairwise fun a b => compare a.1 b.1 = .lt)
    (h₂ : l₂.Pairwise fun a b => compare a.1 b.1 = .lt)
    (h : ∀ k, lookup k l₁ = lookup k l₂) : l₁ = l₂ := by
  induction l₁ generalizing l₂ with
  | nil =>
    cases l₂ with
    | nil => rfl
    | cons e l₂ =>
      have := h e.1
      simp [lookup] at this
  | cons e₁ l₁ ih =>
    cases l₂ with
    | nil =>
      have := h e₁.1
      simp [lookup] at this
    | cons e₂ l₂ =>
      obtain ⟨k₁, v₁⟩ := e₁
      obtain ⟨k₂, v₂⟩ := e₂
      obtain ⟨hlt₁, hs₁⟩ := List.pairwise_cons.mp h₁
      obtain ⟨hlt₂, hs₂⟩ := List.pairwise_cons.mp h₂
      have hk : k₁ = k₂ := by
        match hc : compare k₁ k₂ with
        | .eq => exact Std.LawfulEqCmp.eq_of_compare hc
        | .lt =>
          have hn : lookup k₁ ((k₂, v₂) :: l₂) = none :=
            lookup_eq_none_of_lt fun e he => by
              rcases List.mem_cons.mp he with rfl | he
              · exact hc
              · exact Std.TransCmp.lt_trans hc (hlt₂ e he)
          have := h k₁
          rw [hn] at this
          simp [lookup] at this
        | .gt =>
          have hc' : compare k₂ k₁ = .lt := Std.OrientedCmp.lt_of_gt hc
          have hn : lookup k₂ ((k₁, v₁) :: l₁) = none :=
            lookup_eq_none_of_lt fun e he => by
              rcases List.mem_cons.mp he with rfl | he
              · exact hc'
              · exact Std.TransCmp.lt_trans hc' (hlt₁ e he)
          have := h k₂
          rw [hn] at this
          simp [lookup] at this
      subst hk
      have hv : v₁ = v₂ := by
        have := h k₁
        simpa [lookup] using this
      subst hv
      have htl : l₁ = l₂ := ih hs₁ hs₂ fun q => by
        have := h q
        by_cases hq : compare q k₁ = .eq
        · have hq' : q = k₁ := Std.LawfulEqCmp.eq_of_compare hq
          subst hq'
          rw [lookup_eq_none_of_lt hlt₁, lookup_eq_none_of_lt hlt₂]
        · simpa [lookup, hq] using this
      rw [htl]

/-- **Extensionality**: a map is determined by what it answers. -/
theorem ext_get? [Std.TransOrd κ] [Std.LawfulEqOrd κ] {m₁ m₂ : OrderedMap κ ν}
    (h : ∀ k, m₁.get? k = m₂.get? k) : m₁ = m₂ := by
  obtain ⟨l₁, s₁⟩ := m₁
  obtain ⟨l₂, s₂⟩ := m₂
  have : l₁ = l₂ := entries_ext s₁ s₂ h
  subst this
  rfl

/-! ## Rebuilding a map from its entries -/

theorem insertEntry_append [Std.TransOrd κ] {k : κ} {v : ν} {l : List (κ × ν)}
    (h : ∀ e ∈ l, compare e.1 k = .lt) : insertEntry k v l = l ++ [(k, v)] := by
  induction l with
  | nil => rfl
  | cons hd tl ih =>
    obtain ⟨k', v'⟩ := hd
    have hk : compare k k' = .gt :=
      Std.OrientedCmp.gt_of_lt (h (k', v') List.mem_cons_self)
    simp only [insertEntry, hk, List.cons_append]
    rw [ih fun e he => h e (List.mem_cons_of_mem _ he)]

theorem insertAll_entries [Std.TransOrd κ] (m : OrderedMap κ ν) (l : List (κ × ν))
    (h : (m.entries ++ l).Pairwise fun a b => compare a.1 b.1 = .lt) :
    (m.insertAll l).entries = m.entries ++ l := by
  induction l generalizing m with
  | nil => simp [insertAll]
  | cons e l ih =>
    have hlast : (m.insert e.1 e.2).entries = m.entries ++ [e] := by
      refine insertEntry_append fun x hx => ?_
      exact (List.pairwise_append.mp h).2.2 x hx e List.mem_cons_self
    have hstep := ih (m.insert e.1 e.2) (by rw [hlast]; simpa using h)
    simp only [insertAll, List.foldl_cons] at hstep ⊢
    rw [hstep, hlast]
    simp

/-- A map is the map of its entries. -/
theorem ofList_entries [Std.TransOrd κ] (m : OrderedMap κ ν) : ofList m.entries = m := by
  have h : (ofList m.entries).entries = m.entries := by
    simpa [ofList, empty] using insertAll_entries empty m.entries (by simpa [empty] using m.sorted)
  obtain ⟨l, hl⟩ := m
  cases hm : ofList l with
  | mk l' hl' =>
    simp only [hm] at h
    subst h
    rfl

end OrderedMap

end Provision
