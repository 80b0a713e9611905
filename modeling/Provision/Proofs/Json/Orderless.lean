/-
Provision.Proofs.Json.Orderless — readers that do not mind the order of
members.

A reader is orderless when it makes the same of two trees that differ only
in the order of members, or refuses both. The readers of scalars, names,
bytes, lists and optional values are, and the reader of a record is when
those of its fields are (`Layout.orderlessOn_decode`): what it has found
for a field does not depend on when it was found, because no key comes
twice (`takeMembers_perm`).
-/
import Provision.Proofs.Json.Order

namespace Provision.Json

open Source

/-! ## Outcomes of readers -/

/-- The reader stops for good. -/
def Halt.IsFailure : Halt → Prop
  | .failed _ => True
  | .skipped _ => False

/-- Both readers succeed, with related results, or both stop for good. -/
abbrev Alike {α β : Type} (R : α → β → Prop) : Except Halt α → Except Halt β → Prop :=
  SameOutcome Halt.IsFailure R

/-- The reader does not go on behind a flaw. -/
def Settles {α : Type} (x : Except Halt α) : Prop := ∀ f, x ≠ .error (.skipped f)

section

variable {α β : Type} {R : α → β → Prop} {x : Except Halt α} {y : Except Halt β}

theorem settles_ok (a : α) : Settles (.ok a : Except Halt α) := nofun

theorem settles_failed (f : Failure) : Settles (.error (.failed f) : Except Halt α) := nofun

theorem Settles.bind {g : α → Except Halt β} (hx : Settles x) (hg : ∀ a, Settles (g a)) :
    Settles (x >>= g) := by
  cases x with
  | ok a => exact hg a
  | error h =>
    cases h with
    | failed f => exact nofun
    | skipped f => exact absurd rfl (hx f)

theorem SameOutcome.settles_right (h : Alike R x y) : Settles y := by
  cases h with
  | ok _ => exact nofun
  | error _ h' =>
    rintro f ⟨⟩
    exact h'

/-- Readers that settle are alike when they succeed alike. -/
theorem alike_of_iff {x y : Except Halt α} (hx : Settles x) (hy : Settles y)
    (h : ∀ a, x = .ok a ↔ y = .ok a) : Alike Eq x y := by
  have hfailure {x : Except Halt α} {e : Halt} (hx : Settles x) (he : x = .error e) :
      e.IsFailure := by
    cases e with
    | failed f => trivial
    | skipped f => exact absurd he (hx f)
  cases x with
  | ok a =>
    rw [(h a).mp rfl]
    exact .ok rfl
  | error e =>
    cases y with
    | ok a => exact nomatch (h a).mpr rfl
    | error e' => exact .error (hfailure hx rfl) (hfailure hy rfl)

theorem Settles.alike {x : Except Halt α} (hx : Settles x) : Alike Eq x x :=
  alike_of_iff hx hx fun _ => .rfl

theorem alike_refuse (m m' : Misfit) : Alike R (refuse m) (refuse m') := .error trivial trivial

theorem alike_fail (f f' : Fault) : Alike R (fail f) (fail f') := .error trivial trivial

theorem alike_proceed (f : Option Fault) : Alike Eq (proceed f) (proceed f) := by
  cases f with
  | none => exact .ok rfl
  | some f => exact alike_fail f f

/-- A value of another type is refused. -/
theorem mismatch_eq_failed (expected : String) (s : Source) :
    ∃ f, (mismatch expected s : Except Halt α) = .error (.failed f) := by
  cases s with
  | number n => cases n <;> exact ⟨_, rfl⟩
  | _ => exact ⟨_, rfl⟩

theorem alike_mismatch (expected expected' : String) (s s' : Source) :
    Alike R (mismatch expected s) (mismatch expected' s') := by
  obtain ⟨f, hf⟩ := mismatch_eq_failed (α := α) expected s
  obtain ⟨f', hf'⟩ := mismatch_eq_failed (α := β) expected' s'
  rw [hf, hf']
  exact .error trivial trivial

end

/-! ## Orderless readers -/

/-- The reader makes the same of every reordering of a tree of this kind. -/
def OrderlessOn {α : Type} (P : Source → Prop) (decode : Decoder α) : Prop :=
  ∀ ⦃x y : Source⦄, x.Reorder y → x.Tidy → P x → Alike Eq (decode x) (decode y)

/-- The reader makes the same of every reordering of a tree. -/
def Orderless {α : Type} (decode : Decoder α) : Prop :=
  ∀ ⦃x y : Source⦄, x.Reorder y → x.Tidy → Alike Eq (decode x) (decode y)

theorem Orderless.on {α : Type} {decode : Decoder α} (h : Orderless decode) (P : Source → Prop) :
    OrderlessOn P decode := fun _ _ hxy hx _ => h hxy hx

theorem Orderless.map {α β : Type} {decode : Decoder α} (h : Orderless decode) (g : α → β) :
    Orderless fun s => (decode s).map g := by
  intro x y hxy hx
  exact (h hxy hx).map fun _ _ => congrArg g

/-! ## Scalars -/

theorem orderless_decodeText : Orderless decodeText := by
  intro x y hxy _
  cases hxy with
  | text s => exact .ok rfl
  | number n => exact alike_mismatch "a string" "a string" (.number n) (.number n)
  | _ => exact .error trivial trivial

theorem orderless_decodeBool : Orderless decodeBool := by
  intro x y hxy _
  cases hxy with
  | bool b => exact .ok rfl
  | number n => exact alike_mismatch "a boolean" "a boolean" (.number n) (.number n)
  | _ => exact .error trivial trivial

theorem orderless_decodeNat (width : Nat) (name : String) : Orderless (decodeNat width name) := by
  intro x y hxy _
  cases hxy with
  | number n =>
    cases n with
    | natural n =>
      simp only [decodeNat]
      split
      · exact .ok rfl
      · exact alike_refuse _ _
    | negative n => exact .error trivial trivial
    | real x => exact .error trivial trivial
  | _ => exact .error trivial trivial

theorem orderless_uint64 : Orderless Codec.uint64.read :=
  (orderless_decodeNat 64 "u64").map _

theorem orderless_uint16 : Orderless Codec.uint16.read :=
  (orderless_decodeNat 16 "u16").map _

theorem orderless_decodeByte : Orderless decodeByte :=
  (orderless_decodeNat 8 "u8").map _

theorem settles_readHexText (s : String) : Settles (readHexText s) := by
  unfold readHexText
  split
  · exact settles_ok _
  · exact settles_failed _

theorem orderless_hexText : Orderless Codec.hexText.read := by
  intro x y hxy hx
  refine (orderless_decodeText hxy hx).bind fun s s' h => ?_
  rw [h]
  exact (settles_readHexText s').alike

theorem orderlessOn_decodeOption {α : Type} {P : Source → Prop} {decode : Decoder α}
    (h : OrderlessOn P decode) : OrderlessOn P (decodeOption decode) := by
  intro x y hxy hx hP
  have hsome := (h hxy hx hP).map (S := Eq) fun _ _ h => congrArg some h
  cases hxy with
  | null => exact .ok rfl
  | flawed hstart _ =>
    simp only [decodeOption, hstart]
    split
    · exact alike_fail _ _
    · exact hsome
  | _ => exact hsome

/-! ## Sequences -/

theorem alike_decodeItems {α : Type} {decode : Decoder α} (h : Orderless decode)
    {items items' : List Source} (hitems : List.Forall₂ Reorder items items')
    (htidy : ∀ s ∈ items, s.Tidy) :
    Alike Eq (decodeItems decode items) (decodeItems decode items') := by
  induction hitems with
  | nil => exact .ok rfl
  | cons hs _ ih =>
    obtain ⟨hhead, htail⟩ := List.forall_mem_cons.mp htidy
    refine (h hs hhead).bind fun a a' ha => (ih htail).bind fun as as' has => ?_
    rw [ha, has]
    exact .ok rfl

theorem orderless_list {α : Type} {c : Codec α} (h : Orderless c.read) :
    Orderless (Codec.list c).read := by
  intro x y hxy hx
  cases hxy with
  | array closing hitems =>
    refine (alike_decodeItems h hitems fun s hs => hx.item hs).bind fun as as' has => ?_
    refine (alike_proceed closing.wanted).bind fun _ _ _ => ?_
    exact .ok has
  | number n => exact alike_mismatch _ _ (.number n) (.number n)
  | _ => exact .error trivial trivial

/-- Whether an array or an object ends in time depends on how much is left of it. -/
theorem alike_finish {items items' : List Source} (h : items.length = items'.length)
    (count : Nat) (closing : Closing) :
    Alike Eq (finish count items closing) (finish count items' closing) := by
  cases items with
  | nil =>
    obtain rfl := List.eq_nil_of_length_eq_zero h.symm
    cases closing with
    | dangling b => exact alike_fail _ _
    | closed => exact .ok rfl
    | held => exact .ok rfl
    | broken b => exact alike_fail _ _
  | cons s ss =>
    cases items' with
    | nil => exact nomatch h
    | cons s' ss' => cases closing <;> exact .error trivial trivial

/-! ## Bytes -/

theorem isByte_of_decodeByte {s : Source} {b : UInt8} (h : decodeByte s = .ok b) : s.IsByte := by
  obtain ⟨n, hn, -⟩ := map_eq_ok_iff.mp h
  unfold decodeNat at hn
  split at hn
  · split at hn
    · assumption
    · cases hn
  · cases hn
  · obtain ⟨f, hf⟩ := mismatch_eq_failed (α := Nat) "u8" s
    rw [hf] at hn
    cases hn

/-- The bytes in front are read alike, and what is behind them is left. -/
theorem alike_decodeBytes (total : Nat) (closing : Closing) {n i : Nat}
    {items items' : List Source} (hitems : List.Forall₂ Reorder items items')
    (htidy : ∀ s ∈ items, s.Tidy) :
    Alike (fun r r' => r.1 = r'.1 ∧ List.Forall₂ Reorder r.2 r'.2 ∧
        ∃ bytes, items = bytes ++ r.2 ∧ bytes.length = n ∧ ∀ s ∈ bytes, s.IsByte)
      (decodeBytes total closing n i items) (decodeBytes total closing n i items') := by
  induction n generalizing i items items' with
  | zero => exact .ok ⟨rfl, hitems, [], rfl, rfl, nofun⟩
  | succ n ih =>
    cases hitems with
    | nil =>
      refine (alike_proceed closing.wanted).bind fun _ _ _ => ?_
      exact alike_refuse _ _
    | @cons s _ _ _ hs hss =>
      obtain ⟨hhead, htail⟩ := List.forall_mem_cons.mp htidy
      refine (orderless_decodeByte hs hhead).eq_ok.bind ?_
      rintro b b' ⟨hb, hread⟩
      refine (ih hss htail).bind ?_
      rintro ⟨bs, rest⟩ ⟨bs', rest'⟩ ⟨hbs, hrest, bytes, rfl, hlen, hbytes⟩
      have hbytes' := List.forall_mem_cons.mpr ⟨isByte_of_decodeByte hread, hbytes⟩
      exact .ok ⟨congrArg₂ List.cons hb hbs, hrest, s :: bytes, rfl, congrArg (· + 1) hlen, hbytes'⟩

/-- Behind its bytes an array is judged alike, unless a flawed element stands there. -/
theorem alike_finishBytes (n : Nat) (closing : Closing) {items items' : List Source}
    (hitems : List.Forall₂ Reorder items items') (hflaws : ∀ f rest, items ≠ .flawed f :: rest) :
    Alike Eq (finishBytes n items closing) (finishBytes n items' closing) := by
  cases hitems with
  | nil =>
    cases closing with
    | dangling b => exact .ok rfl
    | closed => exact .ok rfl
    | held => exact .ok rfl
    | broken b => exact alike_fail _ _
  | cons hs hss =>
    have hfinish := alike_finish hss.length_eq (n + 1) closing
    cases hs with
    | flawed hstart hpassed => exact absurd rfl (hflaws _ _)
    | array _ _ | object _ _ _ =>
      simp only [finishBytes]
      split
      · exact hfinish
      · exact alike_fail _ _
    | _ =>
      simp only [finishBytes]
      split
      · exact alike_refuse _ _
      · exact hfinish

/-- The bytes of an address or a hash are read alike in every order. -/
theorem orderless_fixedBytes {n : Nat} (hn : n = 20 ∨ n = 32) :
    Orderless (Codec.fixedBytes n).read := by
  intro x y hxy hx
  cases hxy with
  | text s =>
    simp only [Codec.fixedBytes, decodeFixedBytes]
    split
    · exact .ok rfl
    · exact alike_refuse _ _
  | array closing hitems =>
    refine (alike_decodeBytes n closing hitems fun s hs => hx.item hs).bind ?_
    rintro ⟨bs, rest⟩ ⟨_, rest'⟩ ⟨rfl, hrest, bytes, rfl, rfl, hbytes⟩
    have hflaws (f : Flaw) (behind : List Source) : rest ≠ .flawed f :: behind := by
      rintro rfl
      exact hx.flaws bytes f behind closing .refl hbytes hn
    refine (alike_finishBytes _ closing hrest hflaws).bind fun _ _ _ => ?_
    simp only
    split
    · exact .ok rfl
    · exact alike_refuse _ _
  | number n => exact alike_mismatch _ _ (.number n) (.number n)
  | _ => exact .error trivial trivial

/-! ## Names -/

theorem settles_readName {α : Type} (names : List (String × α)) (name : String) :
    Settles (readName names name) := by
  unfold readName
  split
  · exact settles_ok _
  · exact settles_failed _

theorem settles_readKey (k : Key) : Settles (readKey k) := by
  cases k with
  | some k => exact settles_ok k
  | none => exact settles_failed _

/-- Reads the value beside a name. -/
def decodeUnit : Decoder Unit
  | .null => .ok ()
  | s => mismatch "unit" s

theorem orderless_decodeUnit : Orderless decodeUnit := by
  intro x y hxy _
  cases hxy with
  | null => exact .ok rfl
  | number n => exact alike_mismatch _ _ (.number n) (.number n)
  | _ => exact .error trivial trivial

theorem decodeVariant_cons {α : Type} (names : List (String × α)) (k : Key) (s : Source)
    (more : List (Key × Source)) (closing : Closing) :
    decodeVariant names (.object ((k, s) :: more) closing) =
      (readKey k >>= readName names) >>= fun a => decodeUnit s >>= fun _ =>
        (match more with
          | [] => finish 1 [] closing
          | _ :: _ => fail .malformed) >>= fun _ => .ok a := by
  cases s <;> cases more <;> rfl

theorem settles_decodeUnit (s : Source) : Settles (decodeUnit s) := by
  cases s with
  | null => exact settles_ok ()
  | number n => cases n <;> exact settles_failed _
  | _ => exact settles_failed _

/-- A name is read from an object of one member only. -/
theorem decodeVariant_eq_failed {α : Type} (names : List (String × α)) (m m' : Key × Source)
    (more : List (Key × Source)) (closing : Closing) :
    ∃ f, decodeVariant names (.object (m :: m' :: more) closing) = .error (.failed f) := by
  rw [decodeVariant_cons]
  cases hname : readKey m.1 >>= readName names with
  | error e =>
    cases e with
    | failed f => exact ⟨f, rfl⟩
    | skipped f => exact absurd hname (((settles_readKey m.1).bind (settles_readName names)) f)
  | ok a =>
    cases hunit : decodeUnit m.2 with
    | error e =>
      cases e with
      | failed f => exact ⟨f, rfl⟩
      | skipped f => exact absurd hunit (settles_decodeUnit m.2 f)
    | ok u => exact ⟨_, rfl⟩

theorem orderless_decodeVariant {α : Type} (names : List (String × α)) :
    Orderless (decodeVariant names) := by
  intro x y hxy hx
  cases hxy with
  | text s => exact (settles_readName names s).alike
  | @object _ _ ms'' closing h hperm =>
    have hlen := h.length_eq.trans hperm.length_eq
    cases h with
    | nil =>
      obtain rfl := hperm.nil_eq
      exact .error trivial trivial
    | cons hm hrest =>
      cases hrest with
      | nil =>
        obtain rfl := List.singleton_perm.mp hperm
        have htidy := hx.member List.mem_cons_self
        cases hm with
        | mk k hs =>
          rw [decodeVariant_cons, decodeVariant_cons]
          refine ((settles_readKey k).bind (settles_readName names)).alike.bind fun a a' ha => ?_
          refine (orderless_decodeUnit hs htidy).bind fun _ _ _ => ?_
          refine (alike_finish rfl 1 closing).bind fun _ _ _ => ?_
          exact .ok ha
      | cons _ _ =>
        match ms'', hlen with
        | a :: b :: more, _ =>
          obtain ⟨f, hf⟩ := decodeVariant_eq_failed names _ _ _ closing
          obtain ⟨f', hf'⟩ := decodeVariant_eq_failed names a b more closing
          rw [hf, hf']
          exact .error trivial trivial
  | _ => exact .error trivial trivial

/-! ## Records -/

namespace Layout

variable {α σ : Type} {L : Layout α} {other : σ → String → Source → Except Halt σ}

theorem takeMembers_cons (name : String) (s : Source) (rest : List (Key × Source))
    (found : L.Values) (state : σ) :
    L.takeMembers other ((some name, s) :: rest) found state =
      match L.field? name with
      | some f =>
        if (found f).isSome then refuse (.duplicateField name)
        else (L.slot f).read s >>= fun v => L.takeMembers other rest (found.set f v) state
      | none => other state name s >>= fun state => L.takeMembers other rest found state := by
  simp only [takeMembers, readKey, bind, Except.bind]
  cases L.field? name with
  | none => rfl
  | some f => cases h : (found f).isSome <;> simp [h, refuse]

/-! ### Members whose values are reordered -/

/-- What is done with a member that is no field does not depend on the order
inside of it. -/
structure OrderlessOther (R : σ → σ → Prop) (other : σ → String → Source → Except Halt σ) :
    Prop where
  alike : ∀ {state state' : σ} (name : String) {s s' : Source}, R state state' → s.Reorder s' →
    s.Tidy → Alike R (other state name s) (other state' name s')
  settles : ∀ state name s, Settles (other state name s)

theorem orderlessOther_passOver : OrderlessOther Eq passOver where
  alike _ s s' _ hs _ := by
    refine alike_of_iff (alike_proceed _).settles_right (alike_proceed _).settles_right fun u => ?_
    rw [passOver, passOver, proceed_eq_ok_iff, proceed_eq_ok_iff, passOver_reorder hs]
  settles _ _ _ := (alike_proceed _).settles_right

/-- What is found in members does not depend on the order inside of them. -/
theorem alike_takeMembers {P : L.Field → Source → Prop} {R : σ → σ → Prop}
    (hslot : ∀ f, OrderlessOn (P f) (L.slot f).read) (hother : OrderlessOther R other)
    {ms ms' : List (Key × Source)} (h : List.Forall₂ (SameKey Reorder) ms ms')
    (htidy : ∀ m ∈ ms, m.2.Tidy) (hP : ∀ f s, (some (L.name f), s) ∈ ms → P f s)
    {found : L.Values} {state state' : σ} (hstate : R state state') :
    Alike (fun r r' => r.1 = r'.1 ∧ R r.2 r'.2)
      (L.takeMembers other ms found state) (L.takeMembers other ms' found state') := by
  induction h generalizing found state state' with
  | nil => exact .ok ⟨rfl, hstate⟩
  | @cons m _ rest _ hm _ ih =>
    obtain ⟨hhead, htail⟩ := List.forall_mem_cons.mp htidy
    replace ih := @ih htail fun f s hs => hP f s (List.mem_cons_of_mem _ hs)
    cases hm with
    | mk k hs =>
      cases k with
      | none => exact .error trivial trivial
      | some name =>
        rw [takeMembers_cons, takeMembers_cons]
        cases hf : L.field? name with
        | none =>
          refine (hother.alike name hstate hs hhead).bind fun _ _ hstate => ?_
          exact ih hstate
        | some f =>
          have hname := name_of_field? hf
          simp only
          split
          · exact alike_refuse _ _
          · refine (hslot f hs hhead (hP f _ (hname ▸ List.mem_cons_self))).bind fun v v' hv => ?_
            rw [hv]
            exact ih hstate

/-! ### Members in another order -/

/-- Neither of two members is in the way of the other: they differ in their
keys, and where they are no fields the state does not tell which came first. -/
structure Apart (L : Layout α) (other : σ → String → Source → Except Halt σ)
    (m m' : Key × Source) : Prop where
  key : ∀ name, m.1 = some name → m'.1 ≠ some name
  commute : ∀ {state r name name'}, m.1 = some name → m'.1 = some name' →
    L.field? name = none → L.field? name' = none →
    ((other state name m.2 >>= fun state => other state name' m'.2) = .ok r ↔
      (other state name' m'.2 >>= fun state => other state name m.2) = .ok r)

theorem Apart.symm {m m' : Key × Source} (h : Apart L other m m') : Apart L other m' m where
  key name hm' hm := h.key name hm hm'
  commute hm' hm hnone' hnone := (h.commute hm hm' hnone hnone').symm

theorem Values.set_comm (found : L.Values) {f g : L.Field} (hne : f ≠ g) (v : L.Value f)
    (w : L.Value g) : (found.set f v).set g w = (found.set g w).set f v := by
  funext k
  by_cases hf : f = k
  · subst hf
    rw [Values.set_of_ne _ w (Ne.symm hne), Values.set_self, Values.set_self]
  · by_cases hg : g = k
    · subst hg
      rw [Values.set_self, Values.set_of_ne _ v hne, Values.set_self]
    · rw [Values.set_of_ne _ w hg, Values.set_of_ne _ v hf, Values.set_of_ne _ v hf,
        Values.set_of_ne _ w hg]

/-- Two members that stand side by side may change places. -/
theorem takeMembers_of_swap {m m' : Key × Source} (hapart : Apart L other m m')
    {rest : List (Key × Source)} {found : L.Values} {state : σ} {r : L.Values × σ}
    (h : L.takeMembers other (m :: m' :: rest) found state = .ok r) :
    L.takeMembers other (m' :: m :: rest) found state = .ok r := by
  obtain ⟨k, s⟩ := m
  obtain ⟨k', s'⟩ := m'
  obtain ⟨name, rfl, hfirst⟩ := takeMembers_cons_eq_ok_iff.mp h
  obtain ⟨f, v, hf, hfound, hv, h⟩ | ⟨state₁, hf, hstate, h⟩ := hfirst
  · obtain ⟨name', rfl, hsecond⟩ := takeMembers_cons_eq_ok_iff.mp h
    obtain ⟨g, w, hg, hfound', hw, h⟩ | ⟨state₂, hg, hstate', h⟩ := hsecond
    · have hne : f ≠ g := by
        rintro rfl
        exact hapart.key name rfl (by rw [← name_of_field? hf, name_of_field? hg])
      rw [Values.set_of_ne found v hne] at hfound'
      refine takeMembers_cons_eq_ok_iff.mpr ⟨name', rfl, .inl ⟨g, w, hg, hfound', hw, ?_⟩⟩
      refine takeMembers_cons_eq_ok_iff.mpr ⟨name, rfl, .inl ⟨f, v, hf, ?_, hv, ?_⟩⟩
      · rw [Values.set_of_ne found w (Ne.symm hne), hfound]
      · rw [Values.set_comm found (Ne.symm hne), h]
    · refine takeMembers_cons_eq_ok_iff.mpr ⟨name', rfl, .inr ⟨state₂, hg, hstate', ?_⟩⟩
      exact takeMembers_cons_eq_ok_iff.mpr ⟨name, rfl, .inl ⟨f, v, hf, hfound, hv, h⟩⟩
  · obtain ⟨name', rfl, hsecond⟩ := takeMembers_cons_eq_ok_iff.mp h
    obtain ⟨g, w, hg, hfound', hw, h⟩ | ⟨state₂, hg, hstate', h⟩ := hsecond
    · refine takeMembers_cons_eq_ok_iff.mpr ⟨name', rfl, .inl ⟨g, w, hg, hfound', hw, ?_⟩⟩
      exact takeMembers_cons_eq_ok_iff.mpr ⟨name, rfl, .inr ⟨state₁, hf, hstate, h⟩⟩
    · have hboth := (hapart.commute rfl rfl hf hg).mp (bind_eq_ok_iff.mpr ⟨state₁, hstate, hstate'⟩)
      obtain ⟨state₃, hstate₃, hstate₂⟩ := bind_eq_ok_iff.mp hboth
      refine takeMembers_cons_eq_ok_iff.mpr ⟨name', rfl, .inr ⟨state₃, hg, hstate₃, ?_⟩⟩
      exact takeMembers_cons_eq_ok_iff.mpr ⟨name, rfl, .inr ⟨state₂, hf, hstate₂, h⟩⟩

/-- Members that are apart may stand in any order. -/
theorem takeMembers_perm {ms ms' : List (Key × Source)} (hperm : ms.Perm ms')
    (hapart : ms.Pairwise (Apart L other)) {found : L.Values} {state : σ} {r : L.Values × σ} :
    L.takeMembers other ms found state = .ok r ↔ L.takeMembers other ms' found state = .ok r := by
  refine iff_of_perm (fun ms (p : L.Values × σ) => L.takeMembers other ms p.1 p.2 = .ok r)
    Apart.symm ?_ (fun h hrun => takeMembers_of_swap h hrun) hperm hapart (found, state)
  rintro ⟨k, s⟩ rest rest' h ⟨found, state⟩
  have hrest (found : L.Values) (state : σ) : L.takeMembers other rest found state = .ok r ↔
      L.takeMembers other rest' found state = .ok r := h (found, state)
  simp only [takeMembers_cons_eq_ok_iff, hrest]

theorem settles_takeMembers {ms : List (Key × Source)}
    (hslot : ∀ f s, (some (L.name f), s) ∈ ms → Settles ((L.slot f).read s))
    (hother : ∀ state name s, Settles (other state name s)) {found : L.Values} {state : σ} :
    Settles (L.takeMembers other ms found state) := by
  induction ms generalizing found state with
  | nil => exact settles_ok _
  | cons m rest ih =>
    obtain ⟨k, s⟩ := m
    replace ih := @ih fun f s hs => hslot f s (List.mem_cons_of_mem _ hs)
    cases k with
    | none => exact settles_failed _
    | some name =>
      rw [takeMembers_cons]
      cases hf : L.field? name with
      | none => exact (hother state name s).bind fun _ => ih
      | some f =>
        have hname := name_of_field? hf
        simp only
        split
        · exact settles_failed _
        · exact (hslot f s (hname ▸ List.mem_cons_self)).bind fun _ => ih

/-- **Members**: what is found in members does not depend on their order, nor
on the order inside of them. -/
theorem alike_takeMembers_of_perm {P : L.Field → Source → Prop} {R : σ → σ → Prop}
    (hslot : ∀ f, OrderlessOn (P f) (L.slot f).read) (hother : OrderlessOther R other)
    {ms ms' ms'' : List (Key × Source)} (h : List.Forall₂ (SameKey Reorder) ms ms')
    (hperm : ms'.Perm ms'') (htidy : ∀ m ∈ ms, m.2.Tidy)
    (hP : ∀ f s, (some (L.name f), s) ∈ ms → P f s) (hapart : ms'.Pairwise (Apart L other))
    {found : L.Values} {state state' : σ} (hstate : R state state') :
    Alike (fun r r' => r.1 = r'.1 ∧ R r.2 r'.2)
      (L.takeMembers other ms found state) (L.takeMembers other ms'' found state') := by
  have hsettled : ∀ f s, (some (L.name f), s) ∈ ms' → Settles ((L.slot f).read s) := by
    intro f s' hs'
    obtain ⟨m, hm, ⟨_, hs⟩⟩ := exists_mem_of_forall₂ h hs'
    exact (hslot f hs (htidy _ hm) (hP f _ hm)).settles_right
  have hsettled' : ∀ f s, (some (L.name f), s) ∈ ms'' → Settles ((L.slot f).read s) :=
    fun f s hs => hsettled f s (hperm.mem_iff.mpr hs)
  have hvalues : Alike (fun r r' => r.1 = r'.1 ∧ R r.2 r'.2)
      (L.takeMembers other ms found state) (L.takeMembers other ms' found state') :=
    alike_takeMembers hslot hother h htidy hP hstate
  have horder : Alike Eq (L.takeMembers other ms' found state')
      (L.takeMembers other ms'' found state') :=
    alike_of_iff (settles_takeMembers hsettled hother.settles)
      (settles_takeMembers hsettled' hother.settles) fun r => takeMembers_perm hperm hapart
  refine (hvalues.trans horder).mono fun r r'' h => ?_
  obtain ⟨r', hr, rfl⟩ := h
  exact hr

/-! ### Whole records -/

theorem settles_build (absent : L.Field → Misfit) (found : L.Values) :
    Settles (L.build absent found) := by
  unfold build
  split
  · exact settles_failed _
  · exact settles_ok _

/-- What is found in elements does not depend on the order inside of them. -/
theorem alike_takeItems {P : L.Field → Source → Prop}
    (hslot : ∀ f, OrderlessOn (P f) (L.slot f).read) (closing : Closing) {fs : List L.Field}
    {items items' : List Source} (h : List.Forall₂ Reorder items items')
    (htidy : ∀ s ∈ items, s.Tidy) (hP : ∀ p ∈ fs.zip items, P p.1 p.2) {found : L.Values} :
    Alike (fun r r' => r.1 = r'.1 ∧ r.2.length = r'.2.length)
      (L.takeItems closing fs items found) (L.takeItems closing fs items' found) := by
  induction fs generalizing items items' found with
  | nil => exact .ok ⟨rfl, h.length_eq⟩
  | cons f fs ih =>
    cases h with
    | nil =>
      refine (alike_proceed closing.wanted).bind fun _ _ _ => ?_
      exact .ok ⟨rfl, rfl⟩
    | cons hs hss =>
      obtain ⟨hhead, htail⟩ := List.forall_mem_cons.mp htidy
      rw [List.zip_cons_cons, List.forall_mem_cons] at hP
      refine (hslot f hs hhead hP.1).bind fun v v' hv => ?_
      rw [hv]
      exact ih hss htail hP.2

/-- A key that comes once is found where it stands. -/
theorem lookup_of_nodup_keys {ms : List (Key × Source)} (h : (Source.keys ms).Nodup) {k : String}
    {s : Source} (hmem : (some k, s) ∈ ms) : ms.lookup (some k) = some s := by
  induction ms with
  | nil => exact nomatch hmem
  | cons m rest ih =>
    obtain ⟨k', s'⟩ := m
    obtain heq | hrest := List.mem_cons.mp hmem
    · cases heq
      exact List.lookup_cons_self
    · have hk : k ∈ Source.keys rest := List.mem_filterMap.mpr ⟨_, hrest, rfl⟩
      cases k' with
      | none => exact ih h hrest
      | some k' =>
        obtain ⟨hnew, hrest'⟩ := List.nodup_cons.mp (show (k' :: Source.keys rest).Nodup from h)
        have hne : (some k == some k') = false := by
          rw [beq_eq_false_iff_ne]
          rintro ⟨⟩
          exact hnew hk
        rw [List.lookup_cons, hne]
        exact ih hrest' hrest

theorem pairwise_of_nodup_keys {ms : List (Key × Source)} (h : (Source.keys ms).Nodup) :
    ms.Pairwise fun m m' => ∀ name, m.1 = some name → m'.1 ≠ some name := by
  induction ms with
  | nil => exact .nil
  | cons m rest ih =>
    obtain ⟨k, s⟩ := m
    cases k with
    | none => exact .cons (fun _ _ => nofun) (ih h)
    | some k =>
      obtain ⟨hnew, hrest⟩ := List.nodup_cons.mp (show (k :: Source.keys rest).Nodup from h)
      refine .cons ?_ (ih hrest)
      rintro m' hm' name ⟨⟩ hname
      exact hnew (List.mem_filterMap.mpr ⟨m', hm', hname⟩)

/-- A member that is no field leaves nothing behind. -/
theorem pairwise_apart_passOver {ms : List (Key × Source)} (h : (Source.keys ms).Nodup) :
    ms.Pairwise (Apart L passOver) := by
  refine (pairwise_of_nodup_keys h).imp fun hkey => ⟨hkey, fun _ _ _ _ => ?_⟩
  simp only [passOver, bind_eq_ok_iff, proceed_eq_ok_iff]
  exact ⟨fun ⟨u, h, h'⟩ => ⟨u, h', h⟩, fun ⟨u, h, h'⟩ => ⟨u, h', h⟩⟩

theorem mem_zip_fields (hnodup : L.fields.Nodup) {items : List Source} {p : L.Field × Source}
    (hp : p ∈ L.fields.zip items) : items[L.fields.idxOf p.1]? = some p.2 := by
  obtain ⟨i, hi, rfl⟩ := List.mem_iff_getElem.mp hp
  rw [List.getElem_zip]
  rw [List.length_zip] at hi
  rw [List.Nodup.idxOf_getElem hnodup]
  exact List.getElem?_eq_getElem (by omega)

/-- **Records**: a record is read alike in every order when its fields are. -/
theorem orderlessOn_decode (hnodup : L.fields.Nodup) {P : L.Field → Source → Prop}
    (hslot : ∀ f, OrderlessOn (P f) (L.slot f).read) :
    OrderlessOn (fun x => ∀ f part, L.part? f x = some part → P f part) L.decode := by
  intro x y hxy hx hP
  cases hxy with
  | object closing h hperm =>
    have hkeys := hx.nodup_keys
    have hkeys' := keys_of_forall₂ h ▸ hkeys
    refine (alike_takeMembers_of_perm hslot orderlessOther_passOver h hperm
      (fun m hm => hx.member hm) (fun f s hs => hP f s (lookup_of_nodup_keys hkeys hs))
      (pairwise_apart_passOver hkeys') rfl).bind ?_
    rintro ⟨found, _⟩ ⟨_, _⟩ ⟨rfl, -⟩
    refine (alike_proceed closing.wanted).bind fun _ _ _ => ?_
    exact (settles_build _ _).alike
  | array closing h =>
    refine (alike_takeItems hslot closing h (fun s hs => hx.item hs) fun p hp =>
      hP p.1 p.2 (mem_zip_fields hnodup hp)).bind ?_
    rintro ⟨found, rest⟩ ⟨_, rest'⟩ ⟨rfl, hlen⟩
    refine (settles_build _ _).alike.bind fun a a' ha => ?_
    refine (alike_finish hlen _ closing).bind fun _ _ _ => ?_
    exact .ok ha
  | number n => exact alike_mismatch _ _ (.number n) (.number n)
  | _ => exact .error trivial trivial

theorem orderless_decode (hnodup : L.fields.Nodup) (hslot : ∀ f, Orderless (L.slot f).read) :
    Orderless L.decode := by
  intro x y hxy hx
  exact orderlessOn_decode hnodup (fun f => (hslot f).on fun _ => True) hxy hx fun _ _ _ => trivial

end Layout

end Provision.Json
