/-
Provision.Text.Cut — taking a text apart at a character.

`cutFirst` and `cutLast` cut at one occurrence of a mark and drop it,
`pieces` cuts at all of them. The main statements say that a cut loses
nothing but the mark: `cutFirst_eq_some_iff` and `cutLast_eq_some_iff`.
-/

namespace Provision.Text

/-- What stands before and after the first mark. -/
def cutFirst (mark : Char) (s : List Char) : Option (List Char × List Char) :=
  match s.dropWhile (· != mark) with
  | _ :: after => some (s.takeWhile (· != mark), after)
  | [] => none

/-- What stands before and after the last mark. -/
def cutLast (mark : Char) (s : List Char) : Option (List Char × List Char) :=
  (cutFirst mark s.reverse).map fun (after, before) => (before.reverse, after.reverse)

/-- The parts between the marks; there is one more of them than of marks. -/
def pieces (mark : Char) : List Char → List (List Char)
  | [] => [[]]
  | c :: s =>
    if c = mark then [] :: pieces mark s
    else match pieces mark s with
      | p :: ps => (c :: p) :: ps
      | [] => [[c]]

/-! ## What a cut keeps -/

theorem cutFirst_append {mark : Char} {a b : List Char} (h : mark ∉ a) :
    cutFirst mark (a ++ mark :: b) = some (a, b) := by
  induction a with
  | nil => simp [cutFirst]
  | cons c a ih =>
    have hc : c ≠ mark := fun e => h (e ▸ List.mem_cons_self)
    have := ih fun hm => h (List.mem_cons_of_mem _ hm)
    simp only [cutFirst] at this
    simp only [cutFirst, List.cons_append, List.dropWhile_cons, List.takeWhile_cons]
    have hb : (c != mark) = true := by simpa using hc
    simp only [hb, if_true]
    split at this
    · rename_i hd
      simp only [Option.some.injEq, Prod.mk.injEq] at this ⊢
      exact ⟨by rw [this.1], this.2⟩
    · simp at this

theorem eq_append_of_cutFirst {mark : Char} {s a b : List Char}
    (h : cutFirst mark s = some (a, b)) : s = a ++ mark :: b ∧ mark ∉ a := by
  induction s generalizing a with
  | nil => simp [cutFirst] at h
  | cons c s ih =>
    by_cases hc : c = mark
    · subst hc
      simp only [cutFirst, List.dropWhile_cons, List.takeWhile_cons, bne_self_eq_false,
        Bool.false_eq_true, if_false, Option.some.injEq, Prod.mk.injEq] at h
      obtain ⟨rfl, rfl⟩ := h
      simp
    · have hb : (c != mark) = true := by simpa using hc
      simp only [cutFirst, List.dropWhile_cons, List.takeWhile_cons, hb, if_true] at h
      split at h
      · rename_i hd
        simp only [Option.some.injEq, Prod.mk.injEq] at h
        obtain ⟨rfl, rfl⟩ := h
        rename_i after
        have hs : cutFirst mark s = some (s.takeWhile (· != mark), after) := by
          simp only [cutFirst, hd]
        obtain ⟨h1, h2⟩ := ih hs
        refine ⟨by rw [List.cons_append, ← h1], fun hm => ?_⟩
        rcases List.mem_cons.mp hm with rfl | hm
        · exact hc rfl
        · exact h2 hm
      · simp at h

/-- A text is cut at its first mark, which is all that is lost. -/
theorem cutFirst_eq_some_iff {mark : Char} {s a b : List Char} :
    cutFirst mark s = some (a, b) ↔ s = a ++ mark :: b ∧ mark ∉ a :=
  ⟨eq_append_of_cutFirst, fun ⟨h, hm⟩ => h ▸ cutFirst_append hm⟩

/-- Only a text without the mark is not cut. -/
theorem cutFirst_eq_none_iff {mark : Char} {s : List Char} :
    cutFirst mark s = none ↔ mark ∉ s := by
  constructor
  · intro h hm
    obtain ⟨a, b, rfl, ha⟩ := List.eq_append_cons_of_mem hm
    exact nomatch (cutFirst_append ha).symm.trans h
  · intro hm
    cases h : cutFirst mark s with
    | none => rfl
    | some cut => exact absurd (by simp [(eq_append_of_cutFirst h).1]) hm

/-- A text is cut at its last mark, which is all that is lost. -/
theorem cutLast_eq_some_iff {mark : Char} {s a b : List Char} :
    cutLast mark s = some (a, b) ↔ s = a ++ mark :: b ∧ mark ∉ b := by
  simp only [cutLast, Option.map_eq_some_iff, Prod.exists, Prod.mk.injEq,
    cutFirst_eq_some_iff]
  constructor
  · rintro ⟨x, y, ⟨h, hm⟩, rfl, rfl⟩
    refine ⟨?_, by simpa using hm⟩
    rw [← List.reverse_reverse s, h]
    simp
  · rintro ⟨rfl, hm⟩
    exact ⟨b.reverse, a.reverse, ⟨by simp, by simpa using hm⟩, by simp, by simp⟩

end Provision.Text
