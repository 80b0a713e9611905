/-
Provision.Proofs.Json.Order — trees up to the order of members.

Two trees are reorderings of each other when they differ in nothing but
the order of the members of their objects, at any depth (`Reorder`).
Reorderings are passed over alike (`passOver_reorder`) and taken into
memory alike (`hold_reorder`). A tree is tidy when no object of it repeats
a key and no flaw stands where a reader would go on in the middle of it
(`Tidy`); the tree of a value is (`tidy_ofJson`), and so is what a tidy tree becomes in
memory (`Tidy.hold`).
-/
import Mathlib.Data.List.Forall2
import Mathlib.Logic.Relation
import Provision.Proofs.Json.Members
import Provision.Proofs.Json.Object

namespace Provision.Json

/-! ## Outcomes -/

/-- Both succeed, with related results, or both stop, for reasons of a kind. -/
inductive SameOutcome {ε α β : Type} (E : ε → Prop) (R : α → β → Prop) :
    Except ε α → Except ε β → Prop
  | ok {a : α} {b : β} (h : R a b) : SameOutcome E R (.ok a) (.ok b)
  | error {e e' : ε} (h : E e) (h' : E e') : SameOutcome E R (.error e) (.error e')

namespace SameOutcome

variable {ε α β γ δ : Type} {E : ε → Prop} {R : α → β → Prop} {S : γ → δ → Prop}

theorem bind {x : Except ε α} {y : Except ε β} {f : α → Except ε γ} {g : β → Except ε δ}
    (h : SameOutcome E R x y) (hnext : ∀ a b, R a b → SameOutcome E S (f a) (g b)) :
    SameOutcome E S (x >>= f) (y >>= g) := by
  cases h with
  | ok hab => exact hnext _ _ hab
  | error h h' => exact .error h h'

theorem map {x : Except ε α} {y : Except ε β} {f : α → γ} {g : β → δ}
    (h : SameOutcome E R x y) (hnext : ∀ a b, R a b → S (f a) (g b)) :
    SameOutcome E S (x.map f) (y.map g) := by
  cases h with
  | ok hab => exact .ok (hnext _ _ hab)
  | error h h' => exact .error h h'

theorem mono {R' : α → β → Prop} {x : Except ε α} {y : Except ε β} (h : SameOutcome E R x y)
    (hmono : ∀ a b, R a b → R' a b) : SameOutcome E R' x y := by
  cases h with
  | ok hab => exact .ok (hmono _ _ hab)
  | error h h' => exact .error h h'

theorem trans {T : β → δ → Prop} {x : Except ε α} {y : Except ε β} {z : Except ε δ}
    (h : SameOutcome E R x y) (h' : SameOutcome E T y z) :
    SameOutcome E (Relation.Comp R T) x z := by
  cases h with
  | ok hab =>
    cases h' with
    | ok hbc => exact .ok ⟨_, hab, hbc⟩
  | error h _ =>
    cases h' with
    | error _ h' => exact .error h h'

/-- The first result is the one that the first has given. -/
theorem eq_ok {x : Except ε α} {y : Except ε β} (h : SameOutcome E R x y) :
    SameOutcome E (fun a b => R a b ∧ x = .ok a) x y := by
  cases h with
  | ok hab => exact .ok ⟨hab, rfl⟩
  | error h h' => exact .error h h'

end SameOutcome

namespace Source

/-! ## Parts -/

/-- A part of a value: the value itself, or a part of an element or a member. -/
inductive Part (p : Source) : Source → Prop
  | refl : Part p p
  | item {s : Source} {items : List Source} {closing : Closing} (hs : s ∈ items) (h : Part p s) :
    Part p (.array items closing)
  | member {k : Key} {s : Source} {ms : List (Key × Source)} {closing : Closing}
    (hs : (k, s) ∈ ms) (h : Part p s) : Part p (.object ms closing)

theorem Part.trans {p q x : Source} (h : Part p q) (h' : Part q x) : Part p x := by
  induction h' with
  | refl => exact h
  | item hs _ ih => exact .item hs ih
  | member hs _ ih => exact .member hs ih

/-- The keys of members, as far as they can be read. -/
def keys (ms : List (Key × Source)) : List String := ms.filterMap Prod.fst

/-- No object repeats a key. -/
def DistinctKeys (x : Source) : Prop :=
  ∀ ms closing, Part (.object ms closing) x → (keys ms).Nodup

/-- The number of a byte. -/
def IsByte : Source → Prop
  | .number (.natural n) => n.toNat < 256
  | _ => False

/-- No array has a flawed element right behind twenty bytes or thirty-two. A
reader of an address or a hash would go on in the middle of that element. -/
def NoFlawBehindBytes (x : Source) : Prop :=
  ∀ bytes f rest closing, Part (.array (bytes ++ .flawed f :: rest) closing) x →
    (∀ s ∈ bytes, s.IsByte) → ¬ (bytes.length = 20 ∨ bytes.length = 32)

/-- The tree says the same to every reader, whatever the order of its members. -/
structure Tidy (x : Source) : Prop where
  keys : x.DistinctKeys
  flaws : x.NoFlawBehindBytes

theorem Tidy.part {p x : Source} (hx : x.Tidy) (h : Part p x) : p.Tidy where
  keys ms closing hp := hx.keys ms closing (hp.trans h)
  flaws bytes f rest closing hp := hx.flaws bytes f rest closing (hp.trans h)

theorem Tidy.item {s : Source} {items : List Source} {closing : Closing}
    (h : (Source.array items closing).Tidy) (hs : s ∈ items) : s.Tidy :=
  h.part (.item hs .refl)

theorem Tidy.member {m : Key × Source} {ms : List (Key × Source)} {closing : Closing}
    (h : (Source.object ms closing).Tidy) (hm : m ∈ ms) : m.2.Tidy :=
  h.part (.member (k := m.1) hm .refl)

theorem Tidy.nodup_keys {ms : List (Key × Source)} {closing : Closing}
    (h : (Source.object ms closing).Tidy) : (Source.keys ms).Nodup :=
  h.keys ms closing .refl

/-! ### Trees put together -/

theorem part_array_iff {p : Source} {items : List Source} {closing : Closing} :
    Part p (.array items closing) ↔ p = .array items closing ∨ ∃ s ∈ items, Part p s := by
  constructor
  · rintro (_ | ⟨hs, h⟩)
    · exact .inl rfl
    · exact .inr ⟨_, hs, h⟩
  · rintro (rfl | ⟨s, hs, h⟩)
    · exact .refl
    · exact .item hs h

theorem part_object_iff {p : Source} {ms : List (Key × Source)} {closing : Closing} :
    Part p (.object ms closing) ↔ p = .object ms closing ∨ ∃ m ∈ ms, Part p m.2 := by
  constructor
  · rintro (_ | _ | ⟨hs, h⟩)
    · exact .inl rfl
    · exact .inr ⟨_, hs, h⟩
  · rintro (rfl | ⟨m, hm, h⟩)
    · exact .refl
    · exact .member (k := m.1) hm h

@[simp] theorem distinctKeys_flawed (f : Flaw) : (flawed f).DistinctKeys := nofun

@[simp] theorem distinctKeys_number (n : Number) : (number n).DistinctKeys := nofun

@[simp] theorem distinctKeys_text (s : String) : (text s).DistinctKeys := nofun

@[simp] theorem distinctKeys_array {items : List Source} {closing : Closing} :
    (array items closing).DistinctKeys ↔ ∀ s ∈ items, s.DistinctKeys := by
  constructor
  · intro h s hs ms closing' hp
    exact h ms closing' (.item hs hp)
  · intro h ms closing' hp
    obtain heq | ⟨s, hs, hp⟩ := part_array_iff.mp hp
    · cases heq
    · exact h s hs ms closing' hp

@[simp] theorem distinctKeys_object {ms : List (Key × Source)} {closing : Closing} :
    (object ms closing).DistinctKeys ↔
      (Source.keys ms).Nodup ∧ ∀ m ∈ ms, m.2.DistinctKeys := by
  constructor
  · intro h
    refine ⟨h ms closing .refl, fun m hm ms' closing' hp => ?_⟩
    exact h ms' closing' (.member (k := m.1) hm hp)
  · rintro ⟨hkeys, h⟩ ms' closing' hp
    obtain heq | ⟨m, hm, hp⟩ := part_object_iff.mp hp
    · cases heq
      exact hkeys
    · exact h m hm ms' closing' hp

theorem Tidy.array {items : List Source} {closing : Closing}
    (hflaws : ∀ f, .flawed f ∉ items) (h : ∀ s ∈ items, s.Tidy) :
    (Source.array items closing).Tidy where
  keys := distinctKeys_array.mpr fun s hs => (h s hs).keys
  flaws bytes f rest closing' hp := by
    obtain heq | ⟨s, hs, hp⟩ := part_array_iff.mp hp
    · cases heq
      exact absurd (List.mem_append_right bytes List.mem_cons_self) (hflaws f)
    · exact (h s hs).flaws bytes f rest closing' hp

theorem Tidy.object {ms : List (Key × Source)} {closing : Closing}
    (hkeys : (Source.keys ms).Nodup) (h : ∀ m ∈ ms, m.2.Tidy) :
    (Source.object ms closing).Tidy where
  keys := distinctKeys_object.mpr ⟨hkeys, fun m hm => (h m hm).keys⟩
  flaws bytes f rest closing' hp := by
    obtain heq | ⟨m, hm, hp⟩ := part_object_iff.mp hp
    · cases heq
    · exact (h m hm).flaws bytes f rest closing' hp

theorem keys_ofMembers (e : Closing) (ms : List (String × Json)) :
    Source.keys (ofMembers e ms) = ms.map Prod.fst := by
  rw [Source.keys, ofMembers_eq_map, List.filterMap_map]
  exact congrFun List.filterMap_eq_map ms

theorem not_flawed_mem_ofItems (e : Closing) (f : Flaw) (js : List Json) :
    .flawed f ∉ ofItems e js := by
  intro h
  rw [ofItems_eq_map] at h
  obtain ⟨j, -, heq⟩ := List.mem_map.mp h
  cases j <;> cases heq

mutual
/-- The tree of a value has no flaws at all, and the keys of the value. -/
theorem tidy_ofJson (e : Closing) : ∀ {j : Json}, j.DistinctKeys → (ofJson e j).Tidy
  | .null, _ | .bool _, _ | .nat _, _ | .str _, _ => ⟨fun _ _ => nofun, fun _ _ _ _ => nofun⟩
  | .arr items, h => by
    rw [Json.DistinctKeys] at h
    exact Tidy.array (fun f => not_flawed_mem_ofItems e f items) (tidy_ofItems e h)
  | .obj ms, h => by
    rw [Json.DistinctKeys] at h
    refine Tidy.object ?_ (tidy_ofMembers e h.2)
    rw [keys_ofMembers]
    exact h.1
theorem tidy_ofItems (e : Closing) :
    ∀ {js : List Json}, Json.AllDistinct js → ∀ s ∈ ofItems e js, s.Tidy
  | [], _ => fun _ hs => nomatch hs
  | j :: js, h => by
    rw [Json.AllDistinct] at h
    exact List.forall_mem_cons.mpr ⟨tidy_ofJson e h.1, tidy_ofItems e h.2⟩
theorem tidy_ofMembers (e : Closing) :
    ∀ {ms : List (String × Json)}, Json.MembersDistinct ms → ∀ m ∈ ofMembers e ms, m.2.Tidy
  | [], _ => fun _ hm => nomatch hm
  | (k, j) :: ms, h => by
    rw [Json.MembersDistinct] at h
    exact List.forall_mem_cons.mpr ⟨tidy_ofJson e h.1, tidy_ofMembers e h.2⟩
end

/-! ## Reorderings -/

/-- Members of one key, whose values are related. -/
inductive SameKey (R : Source → Source → Prop) : Key × Source → Key × Source → Prop
  | mk (k : Key) {s s' : Source} (h : R s s') : SameKey R (k, s) (k, s')

/-- The trees differ only in the order of the members of their objects. A
flawed part begins with the same character in both, and is passed over alike. -/
inductive Reorder : Source → Source → Prop
  | flawed {f g : Flaw} (hstart : f.start.head? = g.start.head?) (hpassed : f.passed = g.passed) :
    Reorder (.flawed f) (.flawed g)
  | null : Reorder .null .null
  | bool (b : Bool) : Reorder (.bool b) (.bool b)
  | number (n : Number) : Reorder (.number n) (.number n)
  | text (s : String) : Reorder (.text s) (.text s)
  | array {items items' : List Source} (closing : Closing) (h : List.Forall₂ Reorder items items') :
    Reorder (.array items closing) (.array items' closing)
  | object {ms ms' ms'' : List (Key × Source)} (closing : Closing)
    (h : List.Forall₂ (SameKey Reorder) ms ms') (hperm : ms'.Perm ms'') :
    Reorder (.object ms closing) (.object ms'' closing)

mutual
theorem Reorder.refl : ∀ x : Source, x.Reorder x
  | .flawed _ => .flawed rfl rfl
  | .null => .null
  | .bool b => .bool b
  | .number n => .number n
  | .text s => .text s
  | .array items closing => .array closing (Reorder.refl_items items)
  | .object ms closing => .object closing (Reorder.refl_members ms) (.refl ms)
theorem Reorder.refl_items : ∀ items : List Source, List.Forall₂ Reorder items items
  | [] => .nil
  | s :: ss => .cons (Reorder.refl s) (Reorder.refl_items ss)
theorem Reorder.refl_members :
    ∀ ms : List (Key × Source), List.Forall₂ (SameKey Reorder) ms ms
  | [] => .nil
  | (k, s) :: ms => .cons (.mk k (Reorder.refl s)) (Reorder.refl_members ms)
end

theorem keys_of_forall₂ {R : Source → Source → Prop} {ms ms' : List (Key × Source)}
    (h : List.Forall₂ (SameKey R) ms ms') : keys ms = keys ms' := by
  induction h with
  | nil => rfl
  | cons hm _ ih =>
    obtain ⟨k, -⟩ := hm
    cases k with
    | none => exact ih
    | some k => exact congrArg (k :: ·) ih

theorem exists_mem_of_forall₂ {α β : Type} {R : α → β → Prop} {l : List α} {l' : List β}
    (h : List.Forall₂ R l l') {b : β} (hb : b ∈ l') : ∃ a ∈ l, R a b := by
  induction h with
  | nil => exact nomatch hb
  | cons hab _ ih =>
    obtain rfl | hb := List.mem_cons.mp hb
    · exact ⟨_, List.mem_cons_self, hab⟩
    · obtain ⟨a, ha, hab⟩ := ih hb
      exact ⟨a, List.mem_cons_of_mem _ ha, hab⟩

/-- What may change places side by side may stand in any order. -/
theorem iff_of_perm {α σ : Type} (run : List α → σ → Prop) {Apart : α → α → Prop}
    (hsymm : ∀ {a b}, Apart a b → Apart b a)
    (hcons : ∀ a {l l'}, (∀ s, run l s ↔ run l' s) → ∀ s, run (a :: l) s ↔ run (a :: l') s)
    (hswap : ∀ {a b l s}, Apart a b → run (a :: b :: l) s → run (b :: a :: l) s)
    {l l' : List α} (hperm : l.Perm l') (hapart : l.Pairwise Apart) (s : σ) :
    run l s ↔ run l' s := by
  induction hperm generalizing s with
  | nil => rfl
  | cons a _ ih => exact hcons a (ih hapart.of_cons) s
  | swap a b l =>
    have h := List.rel_of_pairwise_cons hapart List.mem_cons_self
    exact ⟨hswap h, hswap (hsymm h)⟩
  | trans hperm _ ih ih' =>
    exact (ih hapart s).trans (ih' ((hperm.pairwise_iff hsymm).mp hapart) s)

/-! ## Passing over -/

theorem passMembers_eq_none_iff {ms : List (Key × Source)} :
    passMembers ms = none ↔ ∀ m ∈ ms, m.2.passOver = none := by
  induction ms with
  | nil => simp [passMembers]
  | cons m ms ih => simp [passMembers, Option.or_eq_none_iff, ih]

theorem passMembers_perm {ms ms' : List (Key × Source)} (h : ms.Perm ms') :
    passMembers ms = none ↔ passMembers ms' = none := by
  simp only [passMembers_eq_none_iff, h.mem_iff]

mutual
/-- Reorderings can be passed over alike. -/
theorem passOver_reorder : ∀ {x y : Source}, x.Reorder y → (x.passOver = none ↔ y.passOver = none)
  | .flawed _, _, h => by
    cases h with
    | flawed _ hpassed => simp only [passOver, hpassed]
  | .null, _, h | .bool _, _, h | .number _, _, h | .text _, _, h => by
    cases h
    rfl
  | .array items _, _, h => by
    cases h with
    | array closing h => simp only [passOver, Option.or_eq_none_iff, passItems_reorder h]
  | .object ms _, _, h => by
    cases h with
    | object closing h hperm =>
      simp only [passOver, Option.or_eq_none_iff, passMembers_reorder h, passMembers_perm hperm]
theorem passItems_reorder : ∀ {items items' : List Source}, List.Forall₂ Reorder items items' →
    (passItems items = none ↔ passItems items' = none)
  | [], _, h => by
    cases h
    rfl
  | s :: ss, _, h => by
    cases h with
    | cons h hs =>
      simp only [passItems, Option.or_eq_none_iff, passOver_reorder h, passItems_reorder hs]
theorem passMembers_reorder : ∀ {ms ms' : List (Key × Source)},
    List.Forall₂ (SameKey Reorder) ms ms' → (passMembers ms = none ↔ passMembers ms' = none)
  | [], _, h => by
    cases h
    rfl
  | (k, s) :: ms, _, h => by
    cases h with
    | cons h hs =>
      cases h with
      | mk _ h =>
        simp only [passMembers, Option.or_eq_none_iff, passOver_reorder h, passMembers_reorder hs]
end

/-! ## Holding in memory -/

/-- Both fit into memory, as related values, or neither does. -/
abbrev HeldAlike {α β : Type} (R : α → β → Prop) : Except Fault α → Except Fault β → Prop :=
  SameOutcome (fun _ => True) R

/-- The bracket that is missing is missing for both. -/
theorem heldAlike_end {α β : Type} {R : α → β → Prop} {a : α} {b : β} (h : R a b) :
    ∀ end? : Option Fault, HeldAlike R
      (match end? with | some f => .error f | none => .ok a)
      (match end? with | some f => .error f | none => .ok b)
  | some _ => .error trivial trivial
  | none => .ok h

theorem holdMembers_cons (room : Nat) (k : Key) (s : Source) (ms : List (Key × Source)) :
    holdMembers room ((k, s) :: ms) =
      if k.isNone then .error .malformed
      else hold room s >>= fun s => holdMembers room ms >>= fun ms => .ok ((k, s) :: ms) := by
  cases k <;> rfl

/-- Members fit into memory in every order or in none. -/
theorem holdMembers_perm (room : Nat) {ms ms' : List (Key × Source)} (h : ms.Perm ms') :
    HeldAlike List.Perm (holdMembers room ms) (holdMembers room ms') := by
  induction h with
  | nil => exact .ok .nil
  | cons m _ ih =>
    obtain ⟨k, s⟩ := m
    rw [holdMembers_cons, holdMembers_cons]
    split
    · exact .error trivial trivial
    · cases hold room s with
      | error _ => exact .error trivial trivial
      | ok held => exact ih.bind fun _ _ h => .ok (h.cons _)
  | swap m m' ms =>
    obtain ⟨k, s⟩ := m
    obtain ⟨k', s'⟩ := m'
    simp only [holdMembers_cons]
    cases k.isNone <;> cases k'.isNone <;> cases hold room s <;> cases hold room s' <;>
      cases holdMembers room ms <;>
      first
        | exact .ok (.swap _ _ _)
        | exact .error trivial trivial
  | trans _ _ ih ih' =>
    refine (ih.trans ih').mono fun _ _ h => ?_
    obtain ⟨_, h, h'⟩ := h
    exact h.trans h'

mutual
/-- Reorderings fit into memory alike, and there they are reorderings still. -/
theorem hold_reorder (room : Nat) : ∀ {x y : Source}, x.Reorder y →
    HeldAlike Reorder (hold room x) (hold room y)
  | .flawed _, _, h => by
    cases h
    exact .error trivial trivial
  | .null, _, h | .bool _, _, h | .number _, _, h | .text _, _, h => by
    cases h
    exact .ok (.refl _)
  | .array items closing, _, h => by
    cases h with
    | array _ h =>
      unfold hold
      split
      · exact .error trivial trivial
      · refine (holdItems_reorder (room - 1) h).bind fun _ _ h => ?_
        exact heldAlike_end (Reorder.array .held h) closing.wanted
  | .object ms closing, _, h => by
    cases h with
    | object _ h hperm =>
      unfold hold
      split
      · exact .error trivial trivial
      · refine ((holdMembers_reorder (room - 1) h).trans
          (holdMembers_perm (room - 1) hperm)).bind fun _ _ h => ?_
        obtain ⟨_, h, hperm⟩ := h
        exact heldAlike_end (Reorder.object .held h hperm) closing.wanted
theorem holdItems_reorder (room : Nat) : ∀ {items items' : List Source},
    List.Forall₂ Reorder items items' →
      HeldAlike (List.Forall₂ Reorder) (holdItems room items) (holdItems room items')
  | [], _, h => by
    cases h
    exact .ok .nil
  | s :: ss, _, h => by
    cases h with
    | cons h hs =>
      refine (hold_reorder room h).bind fun _ _ h => ?_
      refine (holdItems_reorder room hs).bind fun _ _ hs => ?_
      exact .ok (.cons h hs)
theorem holdMembers_reorder (room : Nat) : ∀ {ms ms' : List (Key × Source)},
    List.Forall₂ (SameKey Reorder) ms ms' →
      HeldAlike (List.Forall₂ (SameKey Reorder)) (holdMembers room ms) (holdMembers room ms')
  | [], _, h => by
    cases h
    exact .ok .nil
  | (k, s) :: ms, _, h => by
    cases h with
    | cons h hs =>
      cases h with
      | mk _ h =>
        rw [holdMembers_cons, holdMembers_cons]
        split
        · exact .error trivial trivial
        · refine (hold_reorder room h).bind fun _ _ h => ?_
          refine (holdMembers_reorder room hs).bind fun _ _ hs => ?_
          exact .ok (.cons (.mk k h) hs)
end

theorem holdItems_eq_ok {room : Nat} {items items' : List Source}
    (h : holdItems room items = .ok items') :
    List.Forall₂ (fun s s' => hold room s = .ok s') items items' := by
  induction items generalizing items' with
  | nil =>
    cases h
    exact .nil
  | cons s ss ih =>
    obtain ⟨s', hs, h⟩ := bind_eq_ok_iff.mp h
    obtain ⟨ss', hss, ⟨⟩⟩ := bind_eq_ok_iff.mp h
    exact .cons hs (ih hss)

theorem holdMembers_eq_ok {room : Nat} {ms ms' : List (Key × Source)}
    (h : holdMembers room ms = .ok ms') :
    List.Forall₂ (SameKey fun s s' => hold room s = .ok s') ms ms' := by
  induction ms generalizing ms' with
  | nil =>
    cases h
    exact .nil
  | cons m ms ih =>
    obtain ⟨k, s⟩ := m
    rw [holdMembers_cons] at h
    split at h
    · exact nomatch h
    · obtain ⟨s', hs, h⟩ := bind_eq_ok_iff.mp h
      obtain ⟨ms', hms, ⟨⟩⟩ := bind_eq_ok_iff.mp h
      exact .cons (.mk k hs) (ih hms)

theorem hold_array_eq_ok {room : Nat} {items : List Source} {closing : Closing} {y : Source}
    (h : hold room (.array items closing) = .ok y) :
    ∃ items', y = .array items' .held ∧
      List.Forall₂ (fun s s' => hold (room - 1) s = .ok s') items items' := by
  unfold hold at h
  split at h
  · cases h
  · obtain ⟨held, hheld, h⟩ := bind_eq_ok_iff.mp h
    split at h
    · cases h
    · cases h
      exact ⟨held, rfl, holdItems_eq_ok hheld⟩

theorem hold_object_eq_ok {room : Nat} {ms : List (Key × Source)} {closing : Closing} {y : Source}
    (h : hold room (.object ms closing) = .ok y) :
    ∃ ms', y = .object ms' .held ∧
      List.Forall₂ (SameKey fun s s' => hold (room - 1) s = .ok s') ms ms' := by
  unfold hold at h
  split at h
  · cases h
  · obtain ⟨held, hheld, h⟩ := bind_eq_ok_iff.mp h
    split at h
    · cases h
    · cases h
      exact ⟨held, rfl, holdMembers_eq_ok hheld⟩

/-- What is in memory was an array, an object or a scalar before, and is one still. -/
theorem cases_of_hold {room : Nat} {x y : Source} (h : hold room x = .ok y) :
    (∃ items closing items', x = .array items closing ∧ y = .array items' .held ∧
        List.Forall₂ (fun s s' => hold (room - 1) s = .ok s') items items') ∨
      (∃ ms closing ms', x = .object ms closing ∧ y = .object ms' .held ∧
        List.Forall₂ (SameKey fun s s' => hold (room - 1) s = .ok s') ms ms') ∨
      x = y ∧ (∀ f, y ≠ .flawed f) ∧ (∀ items closing, y ≠ .array items closing) ∧
        ∀ ms closing, y ≠ .object ms closing := by
  cases x with
  | array items closing =>
    obtain ⟨items', rfl, hitems⟩ := hold_array_eq_ok h
    exact .inl ⟨items, closing, items', rfl, rfl, hitems⟩
  | object ms closing =>
    obtain ⟨ms', rfl, hms⟩ := hold_object_eq_ok h
    exact .inr (.inl ⟨ms, closing, ms', rfl, rfl, hms⟩)
  | flawed f => exact nomatch h
  | _ =>
    cases h
    exact .inr (.inr ⟨rfl, nofun, nofun, nofun⟩)

/-- A part of a value in memory is what a part of the value became there. -/
theorem exists_part_of_hold {room : Nat} {p x y : Source} (hp : Part p y)
    (h : hold room x = .ok y) : ∃ q room', Part q x ∧ hold room' q = .ok p := by
  induction hp generalizing room x with
  | refl => exact ⟨x, room, .refl, h⟩
  | item hs _ ih =>
    obtain ⟨items, _, _, rfl, ⟨⟩, hitems⟩ | ⟨_, _, _, -, ⟨⟩, -⟩ | ⟨-, -, hno, -⟩ := cases_of_hold h
    · obtain ⟨s, hmem, hs⟩ := exists_mem_of_forall₂ hitems hs
      obtain ⟨q, room', hq, hheld⟩ := ih hs
      exact ⟨q, room', .item hmem hq, hheld⟩
    · exact absurd rfl (hno _ _)
  | member hs _ ih =>
    obtain ⟨_, _, _, -, ⟨⟩, -⟩ | ⟨ms, _, _, rfl, ⟨⟩, hms⟩ | ⟨-, -, -, hno⟩ := cases_of_hold h
    · obtain ⟨m, hmem, ⟨k, hs⟩⟩ := exists_mem_of_forall₂ hms hs
      obtain ⟨q, room', hq, hheld⟩ := ih hs
      exact ⟨q, room', .member hmem hq, hheld⟩
    · exact absurd rfl (hno _ _)

theorem Tidy.hold {room : Nat} {x y : Source} (hx : x.Tidy) (h : hold room x = .ok y) :
    y.Tidy where
  keys ms closing hp := by
    obtain ⟨q, room', hq, hheld⟩ := exists_part_of_hold hp h
    obtain ⟨_, _, _, -, ⟨⟩, -⟩ | ⟨ms, closing, _, rfl, ⟨⟩, hms⟩ | ⟨-, -, -, hno⟩ :=
      cases_of_hold hheld
    · rw [← keys_of_forall₂ hms]
      exact hx.keys ms closing hq
    · exact absurd rfl (hno _ _)
  flaws bytes f rest closing hp := by
    obtain ⟨q, room', hq, hheld⟩ := exists_part_of_hold hp h
    obtain ⟨_, _, _, -, ⟨⟩, hitems⟩ | ⟨_, _, _, -, ⟨⟩, -⟩ | ⟨-, -, hno, -⟩ := cases_of_hold hheld
    · -- A flawed element would not have fitted into memory.
      obtain ⟨s, -, hs⟩ := exists_mem_of_forall₂ hitems
        (List.mem_append_right bytes List.mem_cons_self)
      obtain ⟨_, _, _, -, ⟨⟩, -⟩ | ⟨_, _, _, -, ⟨⟩, -⟩ | ⟨-, hno, -, -⟩ := cases_of_hold hs
      exact (hno f rfl).elim
    · exact absurd rfl (hno _ _)

end Source

end Provision.Json
