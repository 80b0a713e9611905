/-
Provision.Proofs.Json.Members — what a reader makes of the parts of an
object or an array.

A reader of a record goes through the members of an object, or through the
elements of an array, and what it finds for a field stands in the part of
that field: the only member of its name, or the element at its place
(`Layout.Lawful.parts_of_decode`). A member that leaves the state of the
reader as it is may be left out (`Layout.takeMembers_filter`). A text that
is accepted is read as the tree that `treeOf` says, in which the flaws that
the reader mends are gone (`decode_treeOf`).
-/
import Provision.Json.Layout
import Provision.Proofs.Json.RoundTrip

namespace Provision.Json

/-- Two steps succeed when the first does, and the second on its result. -/
theorem bind_eq_ok_iff {ε α β : Type} {x : Except ε α} {f : α → Except ε β} {b : β} :
    x >>= f = .ok b ↔ ∃ a, x = .ok a ∧ f a = .ok b := by
  cases x with
  | error e => simp [bind, Except.bind]
  | ok a => simp [bind, Except.bind]

theorem map_eq_ok_iff {ε α β : Type} {x : Except ε α} {f : α → β} {b : β} :
    x.map f = .ok b ↔ ∃ a, x = .ok a ∧ f a = b := by
  cases x with
  | error e => simp [Except.map]
  | ok a => simp [Except.map]

theorem map_eq_error_iff {ε α β : Type} {x : Except ε α} {f : α → β} {e : ε} :
    x.map f = .error e ↔ x = .error e := by
  cases x with
  | error e => simp [Except.map]
  | ok a => simp [Except.map]

theorem proceed_eq_ok_iff {f : Option Fault} {u : Unit} : proceed f = .ok u ↔ f = none := by
  cases f with
  | none => simp [proceed]
  | some f => simp [proceed, fail]

theorem Source.ofItems_eq_map (e : Closing) (js : List Json) :
    ofItems e js = js.map (ofJson e) := by
  induction js with
  | nil => rfl
  | cons j js ih => rw [ofItems, ih, List.map_cons]

theorem Source.ofMembers_eq_map (e : Closing) (ms : List (String × Json)) :
    ofMembers e ms = ms.map fun m => (some m.1, ofJson e m.2) := by
  induction ms with
  | nil => rfl
  | cons m ms ih => rw [ofMembers, ih, List.map_cons]

/-- A value that is not absent is read as it would be alone. -/
theorem of_decodeOption {β : Type} {decode : Decoder β} {tree : Source} {b : β}
    (h : decodeOption decode tree = .ok (some b)) : decode tree = .ok b := by
  unfold decodeOption at h
  split at h
  · cases h
  · split at h
    · cases h
    · obtain ⟨b', hb, ⟨⟩⟩ := map_eq_ok_iff.mp h
      exact hb
  · obtain ⟨b', hb, ⟨⟩⟩ := map_eq_ok_iff.mp h
    exact hb

/-! ## The tree of a text -/

section
variable {α : Type} (decode : Decoder α)

/-- The document as which a text is read, where so many flaws may be
mended. -/
def documentOf : Nat → List Char → Document
  | 0, s => .ofChars s
  | flaws + 1, s =>
    match decode (Document.ofChars s).value with
    | .error (.skipped f) => documentOf flaws (f.mend s)
    | _ => .ofChars s

/-- The tree as which a text is read. -/
def treeOf (text : String) : Source :=
  (documentOf decode (text.length + 1) text.toList).value

variable {decode}

theorem decode_documentOf {flaws : Nat} {s : List Char} {a : α}
    (h : decodeChars decode flaws s = .ok a) : decode (documentOf decode flaws s).value = .ok a := by
  induction flaws generalizing s with
  | zero => simp [decodeChars] at h
  | succ flaws ih =>
    rw [decodeChars] at h
    rw [documentOf]
    cases hd : decode (Document.ofChars s).value with
    | ok b =>
      simp only [hd] at h ⊢
      split at h
      · cases h
      · cases h
        rfl
    | error halt =>
      cases halt with
      | failed f => simp [hd] at h
      | skipped f =>
        simp only [hd] at h ⊢
        exact ih h

/-- A text is accepted for what is read from its tree. -/
theorem decode_treeOf {text : String} {a : α} (h : decodeDocument decode text = .ok a) :
    decode (treeOf decode text) = .ok a :=
  decode_documentOf h

end

/-! ## The parts of a record -/

namespace Layout

variable {α σ : Type} {L : Layout α} {other : σ → String → Source → Except Halt σ}

theorem name_of_field? {name : String} {f : L.Field} (h : L.field? name = some f) :
    L.name f = name := by
  simpa using List.find?_some h

/-- A written member has the name of a field. -/
theorem name_of_mem_encodeMembers {a : α} {fs : List L.Field} {m : String × Json}
    (h : m ∈ L.encodeMembers a fs) : ∃ f, m.1 = L.name f := by
  induction fs with
  | nil => cases h
  | cons f fs ih =>
    rw [encodeMembers] at h
    split at h
    · rcases List.mem_cons.mp h with rfl | h
      · exact ⟨f, rfl⟩
      · exact ih h
    · exact ih h

variable (L) in
/-- The part of the tree of a record that stands for a field. -/
def part? (f : L.Field) : Source → Option Source
  | .object members _ => members.lookup (some (L.name f))
  | .array items _ => items[L.fields.idxOf f]?
  | _ => none

/-- The members in front of the one that is taken next decide nothing but
what has been found and the state. -/
theorem takeMembers_cons_eq_ok_iff {key : Key} {value : Source} {rest : List (Key × Source)}
    {found : L.Values} {state : σ} {r : L.Values × σ} :
    L.takeMembers other ((key, value) :: rest) found state = .ok r ↔
      ∃ name, key = some name ∧
        ((∃ f v, L.field? name = some f ∧ found f = none ∧ (L.slot f).read value = .ok v ∧
            L.takeMembers other rest (found.set f v) state = .ok r) ∨
          ∃ state', L.field? name = none ∧ other state name value = .ok state' ∧
            L.takeMembers other rest found state' = .ok r) := by
  cases key with
  | none => simp [takeMembers, readKey, fail, bind, Except.bind]
  | some name =>
    simp only [takeMembers, readKey, bind_eq_ok_iff, Except.ok.injEq, Option.some.injEq,
      exists_eq_left']
    cases hf : L.field? name with
    | none => simp [bind_eq_ok_iff]
    | some f =>
      cases hfound : found f with
      | none => simp [hfound, bind_eq_ok_iff]
      | some v => simp [hfound, refuse, bind, Except.bind]

/-- What has been found for a field is what was there before, or it stands
in the member of its name. -/
theorem Lawful.member_of_takeMembers (hL : L.Lawful) {members : List (Key × Source)}
    {found : L.Values} {state : σ} {r : L.Values × σ}
    (h : L.takeMembers other members found state = .ok r) {f : L.Field} {v : L.Value f}
    (hv : r.1 f = some v) :
    found f = some v ∨ found f = none ∧
      ∃ part, members.lookup (some (L.name f)) = some part ∧ (L.slot f).read part = .ok v := by
  induction members generalizing found state with
  | nil =>
    cases h
    exact .inl hv
  | cons m rest ih =>
    obtain ⟨key, value⟩ := m
    obtain ⟨name, rfl, hfield | hother⟩ := takeMembers_cons_eq_ok_iff.mp h
    · obtain ⟨g, w, hg, hfound, hread, hrest⟩ := hfield
      have hname := name_of_field? hg
      by_cases hfg : g = f
      · subst hfg
        rcases ih hrest with hset | ⟨hset, -⟩
        · rw [Values.set_self] at hset
          cases hset
          exact .inr ⟨hfound, value, by rw [hname, List.lookup_cons_self], hread⟩
        · rw [Values.set_self] at hset
          cases hset
      · have hne : (some (L.name f) == some name) = false := by
          rw [beq_eq_false_iff_ne]
          intro heq
          rw [← Option.some.inj heq, hL.field?_name] at hg
          exact hfg (Option.some.inj hg).symm
        rw [List.lookup_cons, hne]
        rw [← Values.set_of_ne found w hfg]
        exact ih hrest
    · obtain ⟨state', hnone, -, hrest⟩ := hother
      have hne : (some (L.name f) == some name) = false := by
        rw [beq_eq_false_iff_ne]
        intro heq
        rw [← Option.some.inj heq, hL.field?_name] at hnone
        cases hnone
      rw [List.lookup_cons, hne]
      exact ih hrest

/-- What has been found for a field is what was there before, or it stands
in the element at its place. -/
theorem element_of_takeItems {closing : Closing} {fs : List L.Field} (hfs : fs.Nodup)
    {items : List Source} {found : L.Values} {r : L.Values × List Source}
    (h : L.takeItems closing fs items found = .ok r) {f : L.Field} {v : L.Value f}
    (hv : r.1 f = some v) :
    found f = some v ∨
      f ∈ fs ∧ ∃ part, items[fs.idxOf f]? = some part ∧ (L.slot f).read part = .ok v := by
  induction fs generalizing items found with
  | nil =>
    cases h
    exact .inl hv
  | cons g fs ih =>
    obtain ⟨hg, hfs⟩ := List.nodup_cons.mp hfs
    cases items with
    | nil =>
      rw [takeItems] at h
      obtain ⟨-, -, h⟩ := bind_eq_ok_iff.mp h
      cases h
      exact .inl hv
    | cons s ss =>
      rw [takeItems] at h
      obtain ⟨w, hw, hrest⟩ := bind_eq_ok_iff.mp h
      by_cases hgf : g = f
      · subst hgf
        rcases ih hfs hrest with hset | ⟨hmem, -⟩
        · rw [Values.set_self] at hset
          cases hset
          exact .inr ⟨List.mem_cons_self, s, by simp, hw⟩
        · exact absurd hmem hg
      · rcases ih hfs hrest with hset | ⟨hmem, part, hpart, hread⟩
        · rw [Values.set_of_ne found w hgf] at hset
          exact .inl hset
        · refine .inr ⟨List.mem_cons_of_mem _ hmem, part, ?_, hread⟩
          have hne : (g == f) = false := beq_eq_false_iff_ne.mpr hgf
          rw [List.idxOf_cons, hne, cond_false, List.getElem?_cons_succ]
          exact hpart

theorem eq_make_of_build {absent : L.Field → Misfit} {found : L.Values} {a : α}
    (h : L.build absent found = .ok a) :
    a = L.make fun f => (found f).getD (L.get L.template f) := by
  unfold build at h
  split at h
  · cases h
  · cases h
    rfl

/-- A record is made of what its reader has found, and what it has found
for a field stands in the part of that field. -/
theorem Lawful.parts_of_decode (hL : L.Lawful) {tree : Source} {a : α}
    (h : L.decode tree = .ok a) :
    ∃ found : L.Values, a = L.make (fun f => (found f).getD (L.get L.template f)) ∧
      ∀ f v, found f = some v → ∃ part, L.part? f tree = some part ∧ (L.slot f).read part = .ok v := by
  cases tree with
  | object members closing =>
    rw [decode] at h
    obtain ⟨⟨found, u⟩, htake, h⟩ := bind_eq_ok_iff.mp h
    obtain ⟨-, -, hbuild⟩ := bind_eq_ok_iff.mp h
    refine ⟨found, eq_make_of_build hbuild, fun f v hv => ?_⟩
    rcases hL.member_of_takeMembers htake hv with hnone | ⟨-, hpart⟩
    · cases hnone
    · exact hpart
  | array items closing =>
    rw [decode] at h
    obtain ⟨⟨found, rest⟩, htake, h⟩ := bind_eq_ok_iff.mp h
    obtain ⟨b, hbuild, h⟩ := bind_eq_ok_iff.mp h
    obtain ⟨-, -, h⟩ := bind_eq_ok_iff.mp h
    cases h
    refine ⟨found, eq_make_of_build hbuild, fun f v hv => ?_⟩
    rcases element_of_takeItems hL.fields_nodup htake hv with hnone | ⟨-, hpart⟩
    · cases hnone
    · exact hpart
  | number n => cases n <;> simp [decode, mismatch, refuse] at h
  | _ => simp [decode, mismatch, refuse, fail] at h

/-! ## Members that may be left out -/

/-- Where every member that is no field leaves the state as it is, some of
them may be left out, unless they stop the reader. -/
theorem takeMembers_filter (keeps : Key × Source → Bool) {state : σ}
    (hsame : ∀ name value state', other state name value = .ok state' → state' = state)
    {members : List (Key × Source)}
    (hout : ∀ m ∈ members, keeps m = false → ∃ name, m.1 = some name ∧ L.field? name = none)
    {found : L.Values} {r : L.Values × σ} :
    L.takeMembers other members found state = .ok r ↔
      L.takeMembers other (members.filter keeps) found state = .ok r ∧
        ∀ m ∈ members, keeps m = false → ∃ name, m.1 = some name ∧
          other state name m.2 = .ok state := by
  induction members generalizing found with
  | nil => simp
  | cons m rest ih =>
    obtain ⟨key, value⟩ := m
    replace ih := @ih fun m hm => hout m (List.mem_cons_of_mem _ hm)
    have hm := hout (key, value) List.mem_cons_self
    cases hk : keeps (key, value) with
    | true =>
      rw [List.filter_cons_of_pos hk, List.forall_mem_cons]
      simp only [takeMembers_cons_eq_ok_iff, hk, Bool.true_eq_false, false_implies, true_and]
      constructor
      · rintro ⟨name, rfl, ⟨f, v, hf, hfound, hread, hrest⟩ | ⟨state', hf, hother, hrest⟩⟩
        · obtain ⟨hrest, hall⟩ := ih.mp hrest
          exact ⟨⟨name, rfl, .inl ⟨f, v, hf, hfound, hread, hrest⟩⟩, hall⟩
        · obtain rfl := hsame _ _ _ hother
          obtain ⟨hrest, hall⟩ := ih.mp hrest
          exact ⟨⟨name, rfl, .inr ⟨_, hf, hother, hrest⟩⟩, hall⟩
      · rintro ⟨⟨name, rfl, ⟨f, v, hf, hfound, hread, hrest⟩ | ⟨state', hf, hother, hrest⟩⟩, hall⟩
        · exact ⟨name, rfl, .inl ⟨f, v, hf, hfound, hread, ih.mpr ⟨hrest, hall⟩⟩⟩
        · obtain rfl := hsame _ _ _ hother
          exact ⟨name, rfl, .inr ⟨_, hf, hother, ih.mpr ⟨hrest, hall⟩⟩⟩
    | false =>
      rw [List.filter_cons_of_neg (by simp [hk]), List.forall_mem_cons]
      simp only [takeMembers_cons_eq_ok_iff, hk, true_implies]
      obtain ⟨name, rfl, hf⟩ := hm hk
      constructor
      · rintro ⟨_, ⟨⟩, ⟨f, v, hfield, -⟩ | ⟨state', -, hother, hrest⟩⟩
        · rw [hf] at hfield
          cases hfield
        · obtain rfl := hsame _ _ _ hother
          obtain ⟨hrest, hall⟩ := ih.mp hrest
          exact ⟨hrest, ⟨name, rfl, hother⟩, hall⟩
      · rintro ⟨hrest, ⟨_, ⟨⟩, hother⟩, hall⟩
        exact ⟨name, rfl, .inr ⟨state, hf, hother, ih.mpr ⟨hrest, hall⟩⟩⟩

end Layout

end Provision.Json
