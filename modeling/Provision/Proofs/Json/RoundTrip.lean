/-
Provision.Proofs.Json.RoundTrip — a written value is read back.

A style may put blanks before a part and after a colon, and nothing else
(`IsBlank`). The reader passes over blanks, so it takes the text of a value
for the tree of that value in either style, and no part of what follows:
`readValue_write` says so of values, `readItems_write` and
`readMembers_write` of the elements and members behind a bracket. A whole
text is therefore a document of the value (`ofChars_write`), values with
the same text are the same, and what a codec writes it reads
(`Codec.Lawful.decodeDocument_compact`).
-/
import Provision.Json.Codec
import Provision.Proofs.Json.Scalar

namespace Provision.Json

/-! ## Blanks -/

/-- Whether a style sets the parts of a value apart by blanks only. -/
structure Style.IsBlank (st : Style) : Prop where
  gap : ∀ depth, ∀ c ∈ st.gap depth, isBlank c = true
  afterColon : ∀ c ∈ st.afterColon, isBlank c = true

theorem Style.isBlank_compact : compact.IsBlank where
  gap _ _ h := absurd h List.not_mem_nil
  afterColon _ h := absurd h List.not_mem_nil

theorem Style.isBlank_pretty : pretty.IsBlank where
  gap depth c h := by
    rcases List.mem_cons.mp h with rfl | h
    · rfl
    · rw [List.eq_of_mem_replicate h]
      rfl
  afterColon c h := by
    rw [List.mem_singleton.mp h]
    rfl

theorem skipBlanks_append {b : List Char} (h : ∀ c ∈ b, isBlank c = true) (s : List Char) :
    skipBlanks (b ++ s) = skipBlanks s :=
  List.dropWhile_append_of_pos h

theorem skipBlanks_cons {c : Char} (h : isBlank c = false) (s : List Char) :
    skipBlanks (c :: s) = c :: s := by
  simp [skipBlanks, h]

/-- Blanks before a value make no difference to its reader. -/
theorem readValue_append {b : List Char} (h : ∀ c ∈ b, isBlank c = true) (fuel : Nat)
    (s : List Char) : readValue fuel (b ++ s) = readValue fuel s := by
  cases fuel with
  | zero => rfl
  | succ fuel => rw [readValue, readValue, skipBlanks_append h]

theorem not_digit_of_isBlank {c : Char} (h : isBlank c = true) :
    c.isDigit = false ∧ c ≠ '.' ∧ c ≠ 'e' ∧ c ≠ 'E' := by
  simp only [isBlank, Bool.or_eq_true, beq_iff_eq] at h
  rcases h with ((rfl | rfl) | rfl) | rfl <;> decide

/-- A number ends where a blank or the mark behind the blanks stands. -/
theorem ends_append {b : List Char} (h : ∀ c ∈ b, isBlank c = true) {s : List Char}
    (hs : Ends s) : Ends (b ++ s) := by
  cases b with
  | nil => exact hs
  | cons c b => exact ends_cons _ (not_digit_of_isBlank (h c List.mem_cons_self))

/-! ## Where a value begins -/

/-- A value begins with a character that is no blank and closes nothing. -/
theorem exists_cons_write (st : Style) (depth : Nat) (j : Json) :
    ∃ c s, st.write depth j = c :: s ∧ isBlank c = false ∧ c ≠ ']' := by
  cases j with
  | null => exact ⟨_, _, by rw [Style.write], rfl, by decide⟩
  | bool b => cases b <;> exact ⟨_, _, by rw [Style.write], rfl, by decide⟩
  | nat n =>
    cases hd : Decimal.digits n.toNat with
    | nil => exact absurd hd (Decimal.digits_ne_nil _)
    | cons d ds =>
      have hdigit : d.isDigit = true := Decimal.isDigit_of_mem_digits (hd ▸ List.mem_cons_self)
      refine ⟨d, ds, by rw [Style.write, hd], ?_, ?_⟩
      · rw [← Bool.not_eq_true]
        intro hblank
        rw [(not_digit_of_isBlank hblank).1] at hdigit
        cases hdigit
      · rintro rfl
        exact absurd hdigit (by decide)
  | str s => exact ⟨_, _, by rw [Style.write, quote], rfl, by decide⟩
  | arr items => cases items <;> exact ⟨_, _, by rw [Style.write], rfl, by decide⟩
  | obj ms => cases ms <;> exact ⟨_, _, by rw [Style.write], rfl, by decide⟩

theorem readValue_nat (fuel : Nat) (n : UInt64) {rest : List Char} (h : Ends rest) :
    readValue (fuel + 1) (Decimal.digits n.toNat ++ rest) = (.number (.natural n), some rest) := by
  obtain ⟨c, s, hw, hblank, -⟩ := exists_cons_write .compact 0 (.nat n)
  rw [Style.write] at hw
  have hdigit : c.isDigit = true := Decimal.isDigit_of_mem_digits (hw ▸ List.mem_cons_self)
  have hread := readNumber_digits n.toNat h
  rw [hw, List.cons_append] at hread ⊢
  rw [readValue, skipBlanks_cons hblank]
  split <;> simp_all [Reading.ofNumber, NumberLiteral.read_ofNat]

/-! ## Brackets

What stands behind an opening bracket is handed to the reader of elements
or members, which reads one and looks whether a comma or the other bracket
comes next.
-/

section

variable {fuel : Nat} {s s' rest rest' : List Char} {c : Char} {k : String} {v : Source}

theorem readValue_array (hs : skipBlanks s = c :: s') (hc : c ≠ ']') :
    readValue (fuel + 1) ('[' :: s) =
      (.array (readItems fuel (c :: s')).1 (readItems fuel (c :: s')).2.1,
        (readItems fuel (c :: s')).2.2) := by
  rw [readValue, skipBlanks_cons rfl]
  simp only [hs]
  split
  · rename_i heq
    exact absurd (List.cons.inj heq).1 hc
  · rfl

theorem readItems_last (hv : readValue fuel s = (v, some rest))
    (hrest : skipBlanks rest = ']' :: rest') :
    readItems (fuel + 1) s = ([v], .closed, some rest') := by
  rw [readItems, hv]
  simp only [hrest]

theorem readItems_comma (hv : readValue fuel s = (v, some rest))
    (hrest : skipBlanks rest = ',' :: rest') (hs : skipBlanks rest' = c :: s') (hc : c ≠ ']') :
    readItems (fuel + 1) s =
      (v :: (readItems fuel (c :: s')).1, (readItems fuel (c :: s')).2.1,
        (readItems fuel (c :: s')).2.2) := by
  rw [readItems, hv]
  simp only [hrest, hs]
  split
  · rename_i heq
    exact absurd (List.cons.inj heq).1 hc
  · rfl

theorem readValue_object (hs : skipBlanks s = '"' :: s') :
    readValue (fuel + 1) ('\x7b' :: s) =
      (.object (readMembers fuel ('"' :: s')).1 (readMembers fuel ('"' :: s')).2.1,
        (readMembers fuel ('"' :: s')).2.2) := by
  rw [readValue, skipBlanks_cons rfl]
  simp only [hs]
  rfl

/-- Blanks before a member make no difference to its reader. -/
theorem readMembers_append {b : List Char} (h : ∀ c ∈ b, isBlank c = true) :
    readMembers fuel (b ++ s) = readMembers fuel s := by
  cases fuel with
  | zero => rfl
  | succ fuel => rw [readMembers, readMembers, skipBlanks_append h]

theorem readMembers_last (hv : readValue fuel s = (v, some rest))
    (hrest : skipBlanks rest = '\x7d' :: rest') :
    readMembers (fuel + 1) (quote k ++ ':' :: s) = ([(some k, v)], .closed, some rest') := by
  have hcolon : skipBlanks (':' :: s) = ':' :: s := skipBlanks_cons rfl s
  rw [readMembers, quote, List.cons_append, List.append_assoc, skipBlanks_cons rfl]
  simp only [List.singleton_append, readText_quoted, Except.toOption, hcolon, hv, hrest]

theorem readMembers_comma (hv : readValue fuel s = (v, some rest))
    (hrest : skipBlanks rest = ',' :: rest') :
    readMembers (fuel + 1) (quote k ++ ':' :: s) =
      ((some k, v) :: (readMembers fuel rest').1, (readMembers fuel rest').2.1,
        (readMembers fuel rest').2.2) := by
  have hcolon : skipBlanks (':' :: s) = ':' :: s := skipBlanks_cons rfl s
  rw [readMembers, quote, List.cons_append, List.append_assoc, skipBlanks_cons rfl]
  simp only [List.singleton_append, readText_quoted, Except.toOption, hcolon, hv, hrest]

end

/-! ## Values

Every opening bracket and every comma costs the reader one step more than
the part behind it, so twice the length of the text is enough.
-/

section

variable {st : Style} (hst : st.IsBlank)
include hst

mutual
/-- **A value is read back** from its text, up to where the text ends. -/
theorem readValue_write : ∀ (j : Json) (depth fuel : Nat) (rest : List Char),
    2 * (st.write depth j).length ≤ fuel → Ends rest →
    readValue fuel (st.write depth j ++ rest) = (.ofJson .closed j, some rest)
  | j, depth, 0, _, hfuel, _ => by
    obtain ⟨c, s, hw, -, -⟩ := exists_cons_write st depth j
    rw [hw, List.length_cons] at hfuel
    omega
  | .null, _, fuel + 1, _, _, _ => by rw [Style.write]; rfl
  | .bool true, _, fuel + 1, _, _, _ => by rw [Style.write]; rfl
  | .bool false, _, fuel + 1, _, _, _ => by rw [Style.write]; rfl
  | .nat n, _, fuel + 1, _, _, hrest => by
    rw [Style.write, readValue_nat fuel n hrest, Source.ofJson]
  | .str s, _, fuel + 1, _, _, _ => by
    rw [Style.write, quote, List.cons_append, List.append_assoc, readValue, skipBlanks_cons rfl]
    simp only [List.singleton_append, readText_quoted]
    rfl
  | .arr [], _, fuel + 1, _, _, _ => by rw [Style.write]; rfl
  | .arr (j :: js), depth, fuel + 1, rest, hfuel, _ => by
    simp only [Style.write, List.length_cons, List.length_append] at hfuel
    have hitems := readItems_write j js (depth + 1) depth fuel rest (by omega)
    obtain ⟨c, s, hw, hblank, hclose⟩ := exists_cons_write st (depth + 1) j
    rw [Style.write]
    rw [hw] at hitems ⊢
    simp only [List.cons_append, List.append_assoc, List.nil_append] at hitems ⊢
    rw [readValue_array (by rw [skipBlanks_append (hst.gap _), skipBlanks_cons hblank]) hclose,
      hitems, Source.ofJson]
  | .obj [], _, fuel + 1, _, _, _ => by rw [Style.write]; rfl
  | .obj ((k, j) :: ms), depth, fuel + 1, rest, hfuel, _ => by
    simp only [Style.write, List.length_cons, List.length_append] at hfuel
    have hmembers := readMembers_write k j ms (depth + 1) depth fuel rest (by omega)
    rw [Style.write]
    rw [quote] at hmembers ⊢
    simp only [List.cons_append, List.append_assoc, List.nil_append] at hmembers ⊢
    rw [readValue_object (by rw [skipBlanks_append (hst.gap _), skipBlanks_cons rfl]), hmembers,
      Source.ofJson]
termination_by j => sizeOf j

/-- The elements behind a bracket are read back, up to the other bracket. -/
theorem readItems_write : ∀ (j : Json) (js : List Json) (depth outer fuel : Nat) (rest : List Char),
    2 * ((st.write depth j).length + (st.writeItems depth js).length) < fuel →
    readItems fuel
        (st.write depth j ++ (st.writeItems depth js ++ (st.gap outer ++ ']' :: rest))) =
      (Source.ofItems .closed (j :: js), .closed, some rest)
  | _, _, _, _, 0, _, hfuel => absurd hfuel (Nat.not_lt_zero _)
  | j, [], depth, outer, fuel + 1, rest, hfuel => by
    have hv := readValue_write j depth fuel (st.gap outer ++ ']' :: rest) (by omega)
      (ends_append (hst.gap outer) (ends_cons rest (by decide)))
    rw [Style.writeItems, List.nil_append,
      readItems_last hv (by rw [skipBlanks_append (hst.gap _), skipBlanks_cons rfl])]
    rfl
  | j, j' :: js, depth, outer, fuel + 1, rest, hfuel => by
    simp only [Style.writeItems, List.length_cons, List.length_append] at hfuel
    have hitems := readItems_write j' js depth outer fuel rest (by omega)
    obtain ⟨c, s, hw, hblank, hclose⟩ := exists_cons_write st depth j'
    rw [Style.writeItems]
    rw [hw] at hitems ⊢
    simp only [List.cons_append, List.append_assoc] at hitems ⊢
    have hv := readValue_write j depth fuel
      (',' :: (st.gap depth ++ c :: (s ++ (st.writeItems depth js ++ (st.gap outer ++ ']' :: rest)))))
      (by omega) (ends_cons _ (by decide))
    rw [readItems_comma hv (skipBlanks_cons rfl _)
      (by rw [skipBlanks_append (hst.gap _), skipBlanks_cons hblank]) hclose, hitems]
    rfl
termination_by j js => sizeOf j + sizeOf js

/-- The members behind a bracket are read back, up to the other bracket. -/
theorem readMembers_write : ∀ (k : String) (j : Json) (ms : List (String × Json))
    (depth outer fuel : Nat) (rest : List Char),
    2 * ((quote k).length + ((st.write depth j).length + (st.writeMembers depth ms).length)) <
      fuel →
    readMembers fuel
        (quote k ++ ':' :: (st.afterColon ++ (st.write depth j ++
          (st.writeMembers depth ms ++ (st.gap outer ++ '\x7d' :: rest))))) =
      (Source.ofMembers .closed ((k, j) :: ms), .closed, some rest)
  | _, _, _, _, _, 0, _, hfuel => absurd hfuel (Nat.not_lt_zero _)
  | k, j, [], depth, outer, fuel + 1, rest, hfuel => by
    have hv := readValue_write j depth fuel (st.gap outer ++ '\x7d' :: rest) (by omega)
      (ends_append (hst.gap outer) (ends_cons rest (by decide)))
    rw [← readValue_append hst.afterColon] at hv
    rw [Style.writeMembers, List.nil_append,
      readMembers_last hv (by rw [skipBlanks_append (hst.gap _), skipBlanks_cons rfl])]
    rfl
  | k, j, (k', j') :: ms, depth, outer, fuel + 1, rest, hfuel => by
    simp only [Style.writeMembers, List.length_cons, List.length_append] at hfuel
    have hmembers := readMembers_write k' j' ms depth outer fuel rest (by omega)
    rw [Style.writeMembers]
    simp only [List.append_assoc, List.cons_append]
    have hv := readValue_write j depth fuel
      (',' :: (st.gap depth ++ (quote k' ++ ':' :: (st.afterColon ++ (st.write depth j' ++
        (st.writeMembers depth ms ++ (st.gap outer ++ '\x7d' :: rest)))))))
      (by omega) (ends_cons _ (by decide))
    rw [← readValue_append hst.afterColon] at hv
    rw [readMembers_comma hv (skipBlanks_cons rfl _), readMembers_append (hst.gap _), hmembers]
    rfl
termination_by _ j ms => sizeOf j + sizeOf ms
end

/-- A text that holds a value and nothing else is a document of the value. -/
theorem ofChars_write (j : Json) :
    Document.ofChars (st.write 0 j) = ⟨.ofJson .closed j, false⟩ := by
  have hread := readValue_write hst j 0 (2 * (st.write 0 j).length + 2) [] (by omega) ends_nil
  rw [List.append_nil] at hread
  simp only [Document.ofChars, hread]
  rfl

theorem ofText_write (j : Json) :
    Document.ofText (String.ofList (st.write 0 j)) = ⟨.ofJson .closed j, false⟩ := by
  rw [Document.ofText, String.toList_ofList, ofChars_write hst]

/-- The text of a value holds that value. -/
theorem parse?_write (j : Json) : parse? (String.ofList (st.write 0 j)) = some j := by
  have hwhole := Source.toJson?_ofJson Closing.isWhole_closed j
  simp only [parse?, ofText_write hst, hwhole, Bool.false_eq_true, if_false]

/-- Different values have different texts. -/
theorem write_injective {a b : Json}
    (h : String.ofList (st.write 0 a) = String.ofList (st.write 0 b)) : a = b := by
  have hread := parse?_write hst a
  rw [h, parse?_write hst b] at hread
  exact (Option.some.inj hread).symm

end

theorem pretty_injective {a b : Json} (h : a.pretty = b.pretty) : a = b :=
  write_injective Style.isBlank_pretty h

/-! ## Descriptions -/

/-- The text of a value is read as the value is. -/
theorem decodeDocument_compact {β : Type} {decode : Decoder β} {j : Json} {b : β}
    (h : decode (.ofJson .closed j) = .ok b) : decodeDocument decode j.compact = .ok b := by
  simp only [decodeDocument, decodeChars, compact, String.toList_ofList,
    ofChars_write Style.isBlank_compact, h, Bool.false_eq_true, if_false]

/-- **Reading undoes writing**, for the text of a value that a lawful codec
has written. -/
theorem Codec.Lawful.decodeDocument_compact {β : Type} {c : Codec β} (hc : c.Lawful) (v : β) :
    decodeDocument c.read (c.write v).compact = .ok v :=
  Json.decodeDocument_compact (hc .closed Closing.isWhole_closed v)

end Provision.Json
