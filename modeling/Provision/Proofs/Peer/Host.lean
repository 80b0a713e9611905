/-
Provision.Proofs.Peer.Host — the hosts that are let through.

The readers of a host go from left to right; `HostForm` says without them
which texts are hosts. `isHost_iff` puts the two together: four octets as
numbers are written, an IPv6 address between brackets, or labels with dots
between them. The three forms are no alternatives that exclude each other:
four octets are four labels (`DomainName.of_dottedQuad`), but neither of
these begins with a bracket.

A host is made of letters, digits and a few marks (`HostForm.char`). For an
IPv6 address this takes a look at its readers, each of which takes a run of
characters off the front; `Takes` says of which kind.
-/
import Mathlib.Data.List.Basic
import Provision.Peer.Host
import Provision.Proofs.Decimal
import Provision.Proofs.Hex
import Provision.Proofs.Text.Pieces

namespace Provision

/-- Characters of this kind are taken off the front of a text. -/
def Text.Takes (p : Char → Bool) (s rest : List Char) : Prop :=
  ∃ taken, s = taken ++ rest ∧ ∀ c ∈ taken, p c = true

namespace Text.Takes

variable {p : Char → Bool} {s t u : List Char}

theorem refl (s : List Char) : Takes p s s :=
  ⟨[], rfl, nofun⟩

theorem trans (hst : Takes p s t) (htu : Takes p t u) : Takes p s u := by
  obtain ⟨a, rfl, ha⟩ := hst
  obtain ⟨b, rfl, hb⟩ := htu
  refine ⟨a ++ b, (List.append_assoc a b u).symm, fun c hc => ?_⟩
  obtain hc | hc := List.mem_append.mp hc
  · exact ha c hc
  · exact hb c hc

theorem cons {c : Char} (hc : p c = true) (hst : Takes p s t) : Takes p (c :: s) t :=
  trans ⟨[c], rfl, fun _ hmem => List.mem_singleton.mp hmem ▸ hc⟩ hst

/-- The longest run of one kind is taken. -/
theorem dropWhile {q : Char → Bool} (h : ∀ c, q c = true → p c = true) (s : List Char) :
    Takes p s (s.dropWhile q) :=
  ⟨s.takeWhile q, List.takeWhile_append_dropWhile.symm,
    fun c hc => h c (List.all_eq_true.mp List.all_takeWhile c hc)⟩

/-- When nothing is left, the whole text was of this kind. -/
theorem all (h : Takes p s []) : ∀ c ∈ s, p c = true := by
  obtain ⟨taken, rfl, htaken⟩ := h
  simpa using htaken

end Text.Takes

namespace Host

/-! ## Forms -/

/-- Four octets as numbers are written, with dots between them. -/
def DottedQuad (s : List Char) : Prop :=
  ∃ a b c d : UInt8, s = ['.'].intercalate ([a, b, c, d].map fun o => Decimal.digits o.toNat)

/-- 1 to 63 letters, digits and hyphens, of which the first and the last is
no hyphen. -/
structure Label (l : List Char) : Prop where
  nonempty : l ≠ []
  short : l.length ≤ 63
  chars : ∀ c ∈ l, c.isAlphanum = true ∨ c = '-'
  first : l.head? ≠ some '-'
  last : l.getLast? ≠ some '-'

/-- Labels with dots between them, up to 253 characters in all. -/
structure DomainName (s : List Char) : Prop where
  short : s.length ≤ 253
  labels : ∃ ls, ls ≠ [] ∧ (∀ l ∈ ls, Label l) ∧ s = ['.'].intercalate ls

/-- The forms of a host. -/
inductive HostForm : List Char → Prop
  | ipv4 {s : List Char} : DottedQuad s → HostForm s
  | ipv6 {s : List Char} : isIPv6 s = true → HostForm ('[' :: s ++ [']'])
  | name {s : List Char} : DomainName s → HostForm s

/-! ## IPv4 -/

theorem length_octet_le (o : UInt8) : (Decimal.digits o.toNat).length ≤ 3 := by
  have hlt : o.toNat < 256 := o.toNat_lt
  exact (Nat.length_toDigits_le_iff (by decide) (by decide)).mpr (by omega)

/-- An octet is what a number of eight bits is written as. -/
theorem isOctet_iff {ds : List Char} :
    isOctet ds = true ↔ ∃ o : UInt8, ds = Decimal.digits o.toNat := by
  simp only [isOctet, Bool.and_eq_true, Bool.or_eq_true, decide_eq_true_eq, ne_eq,
    List.all_eq_true]
  constructor
  · rintro ⟨⟨⟨⟨hne, -⟩, hzero⟩, hdigits⟩, hle⟩
    have hlt : Decimal.value ds < UInt8.size := Nat.lt_succ_of_le hle
    refine ⟨UInt8.ofNat (Decimal.value ds), ?_⟩
    rw [UInt8.toNat_ofNat_of_lt' hlt]
    exact (Decimal.digits_value_eq_iff.mpr
      ⟨hne, hdigits, fun h => hzero.resolve_right fun hn => hn h⟩).symm
  · rintro ⟨o, rfl⟩
    have hlt : o.toNat < 256 := o.toNat_lt
    obtain ⟨hne, hdigits, hzero⟩ :=
      Decimal.digits_value_eq_iff.mp (congrArg Decimal.digits (Decimal.value_digits o.toNat))
    rw [Decimal.value_digits]
    refine ⟨⟨⟨⟨hne, length_octet_le o⟩, ?_⟩, hdigits⟩, by omega⟩
    exact (Classical.em _).imp_right fun h => fun hhead => h (hzero hhead)

/-- An octet is read up to where its digits end. -/
theorem readOctet_eq_some_iff {s rest : List Char} :
    readOctet s = some rest ↔
      ∃ o : UInt8, s = Decimal.digits o.toNat ++ rest ∧ ∀ c ∈ rest.head?, c.isDigit = false := by
  constructor
  · intro h
    unfold readOctet at h
    split at h
    · rename_i hoctet
      obtain ⟨o, ho⟩ := isOctet_iff.mp hoctet
      obtain rfl := Option.some.inj h
      refine ⟨o, by rw [← ho, List.takeWhile_append_dropWhile], fun c hc => ?_⟩
      have hnot := List.head?_dropWhile_not Char.isDigit s
      rw [Option.mem_def.mp hc] at hnot
      exact hnot
    · exact nomatch h
  · rintro ⟨o, rfl, hrest⟩
    have hdigits : ∀ c ∈ Decimal.digits o.toNat, c.isDigit = true :=
      fun c => Decimal.isDigit_of_mem_digits
    have hstop : rest.takeWhile Char.isDigit = [] ∧ rest.dropWhile Char.isDigit = rest := by
      cases rest with
      | nil => exact ⟨rfl, rfl⟩
      | cons c rest => simp [hrest c rfl]
    rw [readOctet, List.takeWhile_append_of_pos hdigits, List.dropWhile_append_of_pos hdigits,
      hstop.1, hstop.2, List.append_nil, if_pos (isOctet_iff.mpr ⟨o, rfl⟩)]

theorem readDottedOctets_eq_some_nil_iff {n : Nat} {s : List Char} :
    readDottedOctets n s = some [] ↔
      ∃ os : List UInt8, os.length = n ∧ s = os.flatMap fun o => '.' :: Decimal.digits o.toNat := by
  induction n generalizing s with
  | zero => simp [readDottedOctets]
  | succ n ih =>
    constructor
    · intro h
      unfold readDottedOctets at h
      split at h
      · contradiction
      · rename_i s hn
        obtain rfl := Nat.succ.inj hn
        obtain ⟨t, ht, hrest⟩ := Option.bind_eq_some_iff.mp h
        obtain ⟨o, rfl, -⟩ := readOctet_eq_some_iff.mp ht
        obtain ⟨os, rfl, rfl⟩ := ih.mp hrest
        exact ⟨o :: os, rfl, rfl⟩
      · exact nomatch h
    · rintro ⟨os, hlength, rfl⟩
      obtain ⟨o, os, rfl⟩ := List.exists_cons_of_length_eq_add_one hlength
      have hread : readOctet (Decimal.digits o.toNat ++ os.flatMap fun o =>
          '.' :: Decimal.digits o.toNat) = some (os.flatMap fun o =>
            '.' :: Decimal.digits o.toNat) := by
        refine readOctet_eq_some_iff.mpr ⟨o, rfl, fun c hc => ?_⟩
        cases os with
        | nil => exact nomatch hc
        | cons o' os =>
          obtain rfl : '.' = c := Option.some.inj hc
          rfl
      rw [List.flatMap_cons, List.cons_append, readDottedOctets, hread, Option.bind_eq_bind,
        Option.bind_some]
      exact ih.mpr ⟨os, Nat.succ.inj hlength, rfl⟩

theorem isIPv4_iff {s : List Char} : isIPv4 s = true ↔ DottedQuad s := by
  rw [isIPv4, decide_eq_true_iff]
  simp only [readIPv4, Option.bind_eq_bind, Option.bind_eq_some_iff,
    readDottedOctets_eq_some_nil_iff]
  constructor
  · rintro ⟨t, ht, os, hlength, rfl⟩
    obtain ⟨a, rfl, -⟩ := readOctet_eq_some_iff.mp ht
    obtain ⟨b, c, d, rfl⟩ := List.length_eq_three.mp hlength
    exact ⟨a, b, c, d, by simp⟩
  · rintro ⟨a, b, c, d, rfl⟩
    refine ⟨[b, c, d].flatMap fun o => '.' :: Decimal.digits o.toNat,
      readOctet_eq_some_iff.mpr ⟨a, by simp, fun c hc => ?_⟩, [b, c, d], rfl, rfl⟩
    obtain rfl : '.' = c := Option.some.inj hc
    rfl

/-! ## DNS names -/

theorem isLabel_iff {l : List Char} : isLabel l = true ↔ Label l := by
  simp only [isLabel, isLabelChar, Bool.and_eq_true, Bool.or_eq_true, decide_eq_true_eq,
    List.all_eq_true, beq_iff_eq]
  constructor
  · rintro ⟨⟨⟨⟨hne, hshort⟩, hfirst⟩, hlast⟩, hchars⟩
    exact ⟨hne, hshort, hchars, hfirst, hlast⟩
  · rintro ⟨hne, hshort, hchars, hfirst, hlast⟩
    exact ⟨⟨⟨⟨hne, hshort⟩, hfirst⟩, hlast⟩, hchars⟩

theorem Label.dot_not_mem {l : List Char} (h : Label l) : '.' ∉ l :=
  fun hc => absurd (h.chars '.' hc) (by decide)

theorem isName_iff {s : List Char} : isName s = true ↔ DomainName s := by
  simp only [isName, Bool.and_eq_true, decide_eq_true_eq, List.all_eq_true, isLabel_iff]
  constructor
  · rintro ⟨hshort, hlabels⟩
    exact ⟨hshort, Text.pieces '.' s, Text.pieces_ne_nil '.' s, hlabels,
      (Text.intercalate_pieces '.' s).symm⟩
  · rintro ⟨hshort, ls, hne, hlabels, rfl⟩
    have hpieces : Text.pieces '.' (['.'].intercalate ls) = ls :=
      Text.pieces_intercalate_eq_iff.mpr ⟨hne, fun l hl => (hlabels l hl).dot_not_mem⟩
    exact ⟨hshort, hpieces.symm ▸ hlabels⟩

/-- A name has letters, digits, hyphens and dots only. -/
theorem DomainName.char {s : List Char} (h : DomainName s) {c : Char} (hc : c ∈ s) :
    c.isAlphanum = true ∨ c = '-' ∨ c = '.' := by
  obtain ⟨ls, -, hlabels, rfl⟩ := h.labels
  obtain hdot | ⟨l, hl, hc⟩ := Text.mem_intercalate hc
  · exact .inr (.inr (List.mem_singleton.mp hdot))
  · exact ((hlabels l hl).chars c hc).imp_right .inl

/-- A run of digits that is not too long is a label. -/
theorem Label.of_digits {l : List Char} (hne : l ≠ []) (hshort : l.length ≤ 63)
    (hdigit : ∀ c ∈ l, c.isDigit = true) : Label l where
  nonempty := hne
  short := hshort
  chars := fun c hc => .inl (by simp [Char.isAlphanum, hdigit c hc])
  first := fun h => absurd (hdigit '-' (List.mem_of_mem_head? h)) (by decide)
  last := fun h => absurd (hdigit '-' (List.mem_of_getLast? h)) (by decide)

/-- What an octet is written as is a label. -/
theorem Label.of_octet (o : UInt8) : Label (Decimal.digits o.toNat) :=
  .of_digits (Decimal.digits_ne_nil _) (Nat.le_trans (length_octet_le o) (by decide))
    fun _ => Decimal.isDigit_of_mem_digits

/-- Four octets are a name of four labels. -/
theorem DomainName.of_dottedQuad {s : List Char} (h : DottedQuad s) : DomainName s := by
  obtain ⟨a, b, c, d, rfl⟩ := h
  refine ⟨?_, _, by simp, fun l hl => ?_, rfl⟩
  · have ha := length_octet_le a
    have hb := length_octet_le b
    have hc := length_octet_le c
    have hd := length_octet_le d
    simp only [List.map_cons, List.map_nil, List.intercalate_cons_cons,
      List.intercalate_singleton, List.length_append, List.length_singleton]
    omega
  · obtain ⟨o, -, rfl⟩ := List.mem_map.mp hl
    exact .of_octet o

/-! ## Hosts -/

theorem bracketed?_eq_some_iff {s inner : List Char} :
    bracketed? s = some inner ↔ s = '[' :: inner ++ [']'] := by
  constructor
  · intro h
    unfold bracketed? at h
    split at h
    · split at h
      · rename_i hlast
        obtain rfl := Option.some.inj h
        obtain ⟨inner, rfl⟩ := List.getLast?_eq_some_iff.mp hlast
        rw [List.dropLast_concat, List.cons_append]
      · exact nomatch h
    · exact nomatch h
  · rintro rfl
    rw [List.cons_append, bracketed?, if_pos (List.getLast?_concat), List.dropLast_concat]

/-- **Hosts**: exactly the texts of the three forms are let through. -/
theorem isHost_iff {s : List Char} : isHost s = true ↔ HostForm s := by
  constructor
  · intro h
    unfold isHost at h
    split at h
    · rename_i inner hinner
      obtain rfl := bracketed?_eq_some_iff.mp hinner
      exact .ipv6 h
    · obtain h | h := (Bool.or_eq_true _ _).mp h
      · exact .ipv4 (isIPv4_iff.mp h)
      · exact .name (isName_iff.mp h)
  · intro h
    have hname {s : List Char} (hs : DomainName s) : isHost s = true := by
      have hnone : bracketed? s = none := by
        refine Option.eq_none_iff_forall_not_mem.mpr fun inner hinner => ?_
        obtain rfl := bracketed?_eq_some_iff.mp hinner
        exact absurd (hs.char List.mem_cons_self) (by decide)
      rw [isHost, hnone]
      exact (Bool.or_eq_true _ _).mpr (.inr (isName_iff.mpr hs))
    cases h with
    | ipv4 h => exact hname (.of_dottedQuad h)
    | ipv6 h => rwa [isHost, bracketed?_eq_some_iff.mpr rfl]
    | name h => exact hname h

/-! ## Characters -/

/-- A character that may stand in a host. -/
def isHostChar (c : Char) : Bool :=
  c.isAlphanum || c ∈ ['.', '-', ':', '[', ']']

theorem isHostChar_of_isAlphanum {c : Char} (h : c.isAlphanum = true) : isHostChar c = true := by
  simp [isHostChar, h]

theorem isHostChar_of_isDigit {c : Char} (h : c.isDigit = true) : isHostChar c = true :=
  isHostChar_of_isAlphanum (by simp [Char.isAlphanum, h])

theorem isHostChar_of_isHexDigit {c : Char} (h : Hex.isDigit c = true) : isHostChar c = true :=
  isHostChar_of_isAlphanum (Hex.isAlphanum_of_isDigit h)

open Text

theorem takes_of_readOctet {s rest : List Char} (h : readOctet s = some rest) :
    Takes isHostChar s rest := by
  obtain ⟨o, rfl, -⟩ := readOctet_eq_some_iff.mp h
  exact ⟨_, rfl, fun c hc => isHostChar_of_isDigit (Decimal.isDigit_of_mem_digits hc)⟩

theorem takes_of_readDottedOctets {n : Nat} {s rest : List Char}
    (h : readDottedOctets n s = some rest) : Takes isHostChar s rest := by
  induction n generalizing s with
  | zero =>
    obtain rfl := Option.some.inj h
    exact .refl s
  | succ n ih =>
    unfold readDottedOctets at h
    split at h
    · contradiction
    · rename_i s hn
      obtain rfl := Nat.succ.inj hn
      obtain ⟨t, ht, hrest⟩ := Option.bind_eq_some_iff.mp h
      exact .cons (by decide) ((takes_of_readOctet ht).trans (ih hrest))
    · exact nomatch h

theorem takes_of_readIPv4 {s rest : List Char} (h : readIPv4 s = some rest) :
    Takes isHostChar s rest := by
  obtain ⟨t, ht, hrest⟩ := Option.bind_eq_some_iff.mp h
  exact (takes_of_readOctet ht).trans (takes_of_readDottedOctets hrest)

theorem takes_of_readGroup {s rest : List Char} (h : readGroup s = some rest) :
    Takes isHostChar s rest := by
  simp only [readGroup] at h
  split at h
  · obtain rfl := Option.some.inj h
    exact .dropWhile (fun c => isHostChar_of_isHexDigit) s
  · exact nomatch h

theorem takes_of_passColon {first : Bool} {s rest : List Char} (h : passColon first s = some rest) :
    Takes isHostChar s rest := by
  unfold passColon at h
  split at h
  · obtain rfl := Option.some.inj h
    exact .refl s
  · split at h
    · obtain rfl := Option.some.inj h
      exact .cons (by decide) (.refl _)
    · exact nomatch h

theorem takes_readGroups (room : Nat) (first : Bool) (s : List Char) :
    Takes isHostChar s (readGroups room first s).rest := by
  induction room generalizing first s with
  | zero => exact .refl s
  | succ room ih =>
    rw [readGroups]
    cases hcolon : passColon first s with
    | none => exact .refl s
    | some r =>
      have hr := takes_of_passColon hcolon
      dsimp only
      cases hv4 : if room = 0 then none else readIPv4 r with
      | some rest =>
        have hread : readIPv4 r = some rest := by
          split at hv4
          · exact nomatch hv4
          · exact hv4
        exact hr.trans (takes_of_readIPv4 hread)
      | none =>
        dsimp only
        cases hgroup : readGroup r with
        | none => exact .refl s
        | some rest => exact hr.trans ((takes_of_readGroup hgroup).trans (ih false rest))

theorem isHostChar_of_isIPv6 {s : List Char} (h : isIPv6 s = true) :
    ∀ c ∈ s, isHostChar c = true := by
  have hfront := takes_readGroups 8 true s
  refine Takes.all (hfront.trans ?_)
  simp only [isIPv6] at h
  split at h
  · rw [List.isEmpty_iff.mp h]
    exact .refl _
  · split at h
    · exact nomatch h
    · split at h
      · rename_i rest heq
        have hback := takes_readGroups (7 - (readGroups 8 true s).count) true rest
        rw [List.isEmpty_iff.mp h] at hback
        rw [heq]
        exact .cons (by decide) (.cons (by decide) hback)
      · exact nomatch h

/-- **Characters**: a host is made of letters, digits and a few marks. -/
theorem HostForm.char {s : List Char} (h : HostForm s) {c : Char} (hc : c ∈ s) :
    isHostChar c = true := by
  have hname {s : List Char} (hs : DomainName s) (hc : c ∈ s) : isHostChar c = true := by
    obtain hchar | rfl | rfl := hs.char hc
    · exact isHostChar_of_isAlphanum hchar
    · decide
    · decide
  cases h with
  | ipv4 h => exact hname (.of_dottedQuad h) hc
  | ipv6 h =>
    simp only [List.cons_append, List.mem_cons, List.mem_append, List.not_mem_nil, or_false] at hc
    obtain rfl | hc | rfl := hc
    · decide
    · exact isHostChar_of_isIPv6 h c hc
    · decide
  | name h => exact hname h hc

end Host

end Provision
