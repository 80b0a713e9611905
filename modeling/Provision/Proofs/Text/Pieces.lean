/-
Provision.Proofs.Text.Pieces — cutting a text at every mark.

A cut at every mark is undone by putting the mark between the pieces. It
undoes that itself when there are pieces and none of them holds the mark,
and in no other case (`pieces_intercalate_eq_iff`). Lines are pieces too, up
to how a line may end (`linesOf_intercalate`).
-/
import Mathlib.Data.List.Basic
import Provision.Text.Cut

namespace Provision.Text

theorem pieces_eq_splitOn (mark : Char) (s : List Char) : pieces mark s = s.splitOn mark := by
  induction s with
  | nil => rfl
  | cons c s ih =>
    rw [pieces, ih, List.splitOn_cons_eq_if_modifyHead]
    by_cases hc : c = mark
    · simp [hc]
    · cases hs : s.splitOn mark with
      | nil => exact absurd hs (List.splitOn_ne_nil mark s)
      | cons p ps => simp [hc]

theorem pieces_ne_nil (mark : Char) (s : List Char) : pieces mark s ≠ [] := by
  rw [pieces_eq_splitOn]
  exact List.splitOn_ne_nil mark s

/-- No piece holds the mark. -/
theorem not_mem_of_mem_pieces {mark : Char} {s p : List Char} (h : p ∈ pieces mark s) :
    mark ∉ p := by
  induction s generalizing p with
  | nil =>
    obtain rfl := List.mem_singleton.mp h
    exact List.not_mem_nil
  | cons c s ih =>
    rw [pieces] at h
    by_cases hc : c = mark
    · rw [if_pos hc] at h
      obtain rfl | h := List.mem_cons.mp h
      · exact List.not_mem_nil
      · exact ih h
    · rw [if_neg hc] at h
      cases hs : pieces mark s with
      | nil => exact absurd hs (pieces_ne_nil mark s)
      | cons q qs =>
        rw [hs] at h ih
        obtain rfl | h := List.mem_cons.mp h
        · rintro (_ | ⟨_, hmem⟩)
          · exact hc rfl
          · exact ih List.mem_cons_self hmem
        · exact ih (List.mem_cons_of_mem q h)

/-- The pieces with the mark between them are the text. -/
theorem intercalate_pieces (mark : Char) (s : List Char) :
    [mark].intercalate (pieces mark s) = s := by
  rw [pieces_eq_splitOn]
  exact List.intercalate_splitOn mark

/-- Texts with a mark between them are cut into these texts when there are
any, and none of them holds the mark. -/
theorem pieces_intercalate_eq_iff {mark : Char} {ps : List (List Char)} :
    pieces mark ([mark].intercalate ps) = ps ↔ ps ≠ [] ∧ ∀ p ∈ ps, mark ∉ p := by
  constructor
  · intro h
    exact ⟨h ▸ pieces_ne_nil mark _, fun p hp => not_mem_of_mem_pieces (h ▸ hp)⟩
  · rintro ⟨hne, hmark⟩
    rw [pieces_eq_splitOn]
    exact List.splitOn_intercalate mark hmark hne

/-! ## Lines -/

/-- Drops a carriage return at the end. -/
def dropReturn (l : List Char) : List Char :=
  if l.getLast? = some '\r' then l.dropLast else l

/-- The lines of a text. A newline ends a line, together with a carriage
return before it; the last line may do without, and is none if it is empty. -/
def linesOf (s : List Char) : List (List Char) :=
  (pieces '\n' s).dropLast.map dropReturn ++ (pieces '\n' s).getLast?.toList.filter (· ≠ [])

theorem dropReturn_of_not_mem {l : List Char} (h : '\r' ∉ l) : dropReturn l = l :=
  if_neg fun hlast => h (List.mem_of_getLast? hlast)

/-- Texts with newlines between them are the lines of what they make up when
none of them is empty or has a mark of its own. -/
theorem linesOf_intercalate {ls : List (List Char)}
    (h : ∀ l ∈ ls, l ≠ [] ∧ '\n' ∉ l ∧ '\r' ∉ l) : linesOf (['\n'].intercalate ls) = ls := by
  obtain rfl | ⟨front, last, rfl⟩ := List.eq_nil_or_concat' ls
  · rfl
  · have hpieces : pieces '\n' (['\n'].intercalate (front ++ [last])) = front ++ [last] :=
      pieces_intercalate_eq_iff.mpr ⟨by simp, fun l hl => (h l hl).2.1⟩
    have hfront : front.map dropReturn = front :=
      (List.map_congr_left fun l hl =>
        dropReturn_of_not_mem (h l (List.mem_append_left _ hl)).2.2).trans (List.map_id front)
    have hlast : last ≠ [] := (h last (by simp)).1
    simp [linesOf, hpieces, hfront, hlast]

/-! ## Characters -/

/-- The characters of texts with a separator between them. -/
theorem mem_intercalate {c : Char} {sep : List Char} {ps : List (List Char)}
    (h : c ∈ sep.intercalate ps) : c ∈ sep ∨ ∃ p ∈ ps, c ∈ p := by
  induction ps with
  | nil => simp at h
  | cons p ps ih =>
    cases ps with
    | nil => exact .inr ⟨p, List.mem_cons_self, by simpa using h⟩
    | cons q qs =>
      rw [List.intercalate_cons_cons, List.mem_append, List.mem_append] at h
      obtain (h | h) | h := h
      · exact .inr ⟨p, List.mem_cons_self, h⟩
      · exact .inl h
      · obtain hsep | ⟨p', hp', hc⟩ := ih h
        · exact .inl hsep
        · exact .inr ⟨p', List.mem_cons_of_mem p hp', hc⟩

end Provision.Text
