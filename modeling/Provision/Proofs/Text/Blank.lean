/-
Provision.Proofs.Text.Blank — what is left of a text that is trimmed.

Trimming takes blanks off both ends and stops at the first character that is
none (`trimmed_trim`). So what is left is no blank text, unless it is empty
(`Trimmed.blank_iff`).
-/
import Provision.Text.Blank

namespace Provision.Text

/-- Nothing but blanks, or nothing at all. -/
def Blank (s : List Char) : Prop :=
  ∀ c ∈ s, isBlank c = true

/-- `t` is what stands between the blanks at the ends of `s`. -/
structure Trimmed (s t : List Char) : Prop where
  between : ∃ front back, s = front ++ t ++ back ∧ Blank front ∧ Blank back
  first : ∀ c ∈ t.head?, isBlank c = false
  last : ∀ c ∈ t.getLast?, isBlank c = false

theorem blank_takeWhile (s : List Char) : Blank (s.takeWhile isBlank) :=
  List.all_eq_true.mp List.all_takeWhile

theorem not_isBlank_head?_dropWhile {s : List Char} {c : Char}
    (hc : c ∈ (s.dropWhile isBlank).head?) : isBlank c = false := by
  have hhead := List.head?_dropWhile_not isBlank s
  rw [Option.mem_def.mp hc] at hhead
  exact hhead

theorem trimmed_trim (s : List Char) : Trimmed s (trimChars s) := by
  -- The front is taken off first, then the back of what is left of it.
  have hback : s.dropWhile isBlank =
      trimChars s ++ ((s.dropWhile isBlank).reverse.takeWhile isBlank).reverse := by
    rw [trimChars, trimEnd, ← List.reverse_append, List.takeWhile_append_dropWhile,
      List.reverse_reverse]
  constructor
  case between =>
    refine ⟨s.takeWhile isBlank, ((s.dropWhile isBlank).reverse.takeWhile isBlank).reverse, ?_,
      blank_takeWhile s, ?_⟩
    · rw [List.append_assoc, ← hback, List.takeWhile_append_dropWhile]
    · intro c hc
      exact blank_takeWhile _ c (List.mem_reverse.mp hc)
  case first =>
    intro c hc
    refine not_isBlank_head?_dropWhile (s := s) ?_
    rw [hback, List.head?_append, Option.mem_def.mp hc]
    rfl
  case last =>
    intro c hc
    rw [trimChars, trimEnd, List.getLast?_reverse] at hc
    exact not_isBlank_head?_dropWhile hc

/-- What is left of a text is blank only when nothing is left. -/
theorem Trimmed.blank_iff {s t : List Char} (h : Trimmed s t) : Blank t ↔ t = [] := by
  constructor
  · intro hblank
    cases t with
    | nil => rfl
    | cons c t => exact nomatch (hblank c List.mem_cons_self).symm.trans (h.first c rfl)
  · rintro rfl
    exact nofun

/-- Nothing is left only of a text that is blank. -/
theorem Trimmed.eq_nil_iff {s t : List Char} (h : Trimmed s t) : t = [] ↔ Blank s := by
  obtain ⟨front, back, rfl, hfront, hback⟩ := h.between
  rw [← h.blank_iff]
  constructor
  · intro ht c hc
    obtain hc | hc := List.mem_append.mp hc
    · obtain hc | hc := List.mem_append.mp hc
      · exact hfront c hc
      · exact ht c hc
    · exact hback c hc
  · intro hs c hc
    exact hs c (List.mem_append_left _ (List.mem_append_right _ hc))

theorem trim_eq_empty_iff {s : String} : trim s = "" ↔ Blank s.toList := by
  rw [trim, String.ofList_eq_empty_iff, (trimmed_trim s.toList).eq_nil_iff]

end Provision.Text
