/-
Provision.Json.Layout — records as JSON objects.

A layout lists the fields of a record in their order, and says of each
its name and how its value is written and read. From it come the written
form, an object of the fields that are not left out, and the reader, which
takes the members of an object in any order, passes over those it does not
know and refuses one that comes twice. A field that is left out has the
value of a template, unless it is required. An array of the values in the
order of the fields is read as well.

The main statement is `Layout.Lawful.decode_encode`: for a layout whose
fields are read as they are written, reading undoes writing.
-/
import Provision.Json.Codec

namespace Provision.Json

/-- How a record is written and read. -/
structure Layout (α : Type) where
  /-- The fields of the record. -/
  Field : Type
  [decEq : DecidableEq Field]
  /-- What a message calls the record. -/
  title : String
  /-- The fields in their order. -/
  fields : List Field
  name : Field → String
  Value : Field → Type
  slot : (f : Field) → Slot (Value f)
  get : α → (f : Field) → Value f
  make : ((f : Field) → Value f) → α
  /-- The fields that must be there. -/
  required : Field → Bool
  /-- The record of the values of fields that are not there. -/
  template : α

namespace Layout

variable {α σ : Type} (L : Layout α)

instance : DecidableEq L.Field := L.decEq

/-- The values that have been found. -/
abbrev Values := (f : L.Field) → Option (L.Value f)

/-- No value has been found. -/
def noValues : L.Values := fun _ => none

variable {L} in
/-- The value of a field has been found. -/
def Values.set (found : L.Values) (f : L.Field) (v : L.Value f) : L.Values :=
  fun g => if h : f = g then some (h ▸ v) else found g

/-! ## Writing -/

/-- The members of the fields that are not left out. -/
def encodeMembers (a : α) : List L.Field → List (String × Json)
  | [] => []
  | f :: fs =>
    match (L.slot f).write (L.get a f) with
    | some j => (L.name f, j) :: encodeMembers a fs
    | none => encodeMembers a fs

/-- The object of the fields that are not left out, in their order. -/
def encode (a : α) : Json :=
  .obj (L.encodeMembers a L.fields)

/-! ## Reading -/

/-- The field of a name. -/
def field? (name : String) : Option L.Field :=
  L.fields.find? fun f => L.name f = name

/-- Takes the members of an object in their order. What is done with a
member that is no field is said by `other`. -/
def takeMembers (other : σ → String → Source → Except Halt σ) :
    List (Key × Source) → L.Values → σ → Except Halt (L.Values × σ)
  | [], found, state => .ok (found, state)
  | (key, value) :: rest, found, state => do
    let name ← readKey key
    match L.field? name with
    | some f =>
      if (found f).isSome then refuse (.duplicateField name)
      let v ← (L.slot f).read value
      takeMembers other rest (found.set f v) state
    | none =>
      let state ← other state name value
      takeMembers other rest found state

/-- Passes over a member that is no field. -/
def passOver (_ : Unit) (_ : String) (value : Source) : Except Halt Unit :=
  proceed value.passOver

/-- Takes the elements of an array for the fields in their order; returns
the elements that are left. -/
def takeItems (closing : Closing) :
    List L.Field → List Source → L.Values → Except Halt (L.Values × List Source)
  | [], items, found => .ok (found, items)
  | _ :: _, [], found => do
    proceed closing.wanted
    .ok (found, [])
  | f :: fs, s :: ss, found => do
    let v ← (L.slot f).read s
    takeItems closing fs ss (found.set f v)

/-- The record of the values that were found. The first required field
that is not among them gives its misfit. -/
def build (absent : L.Field → Misfit) (found : L.Values) : Except Halt α :=
  match L.fields.find? fun f => L.required f && (found f).isNone with
  | some f => refuse (absent f)
  | none => .ok (L.make fun f => (found f).getD (L.get L.template f))

/-- An object lacks a field. -/
def missing (f : L.Field) : Misfit :=
  .missingField (L.name f)

/-- An array is too short for a field. -/
def tooShort (f : L.Field) : Misfit :=
  .wrongLength (L.fields.idxOf f) (L.title ++ " with " ++ elementCount L.fields.length)

/-- Reads a record. -/
def decode : Decoder α
  | .object members closing => do
    let (found, _) ← L.takeMembers passOver members L.noValues ()
    proceed closing.wanted
    L.build L.missing found
  | .array items closing => do
    let (found, rest) ← L.takeItems closing L.fields items L.noValues
    let a ← L.build L.tooShort found
    finish L.fields.length rest closing
    .ok a
  | s => mismatch L.title s

/-- The codec of a record. -/
def codec : Codec α := ⟨L.encode, L.decode⟩

/-! ## Round trip -/

/-- A layout whose fields are found by their names, are read as they are
written and left out only when they have the value of the template, and
whose records are made of their own values. -/
structure Lawful : Prop where
  fields_nodup : L.fields.Nodup
  field?_name : ∀ f, L.field? (L.name f) = some f
  slot_lawful : ∀ f, (L.slot f).Lawful
  left_out : ∀ f v, (L.slot f).write v = none → L.required f = false ∧ L.get L.template f = v
  make_get : ∀ a, L.make (L.get a) = a

variable {L}

@[simp] theorem Values.set_self (found : L.Values) (f : L.Field) (v : L.Value f) :
    found.set f v f = some v := by
  simp [Values.set]

theorem Values.set_of_ne (found : L.Values) {f g : L.Field} (v : L.Value f) (h : f ≠ g) :
    found.set f v g = found g := by
  simp [Values.set, h]

variable (L) in
/-- The values that a written record shows. -/
def shown (a : α) : L.Values := fun f =>
  if ((L.slot f).write (L.get a f)).isSome then some (L.get a f) else none

theorem Lawful.mem_fields (hL : L.Lawful) (f : L.Field) : f ∈ L.fields :=
  List.mem_of_find?_eq_some (hL.field?_name f)

/-- Taking the members that were written finds the values of their fields. -/
theorem Lawful.takeMembers_encodeMembers (hL : L.Lawful) {e : Closing} (he : e.IsWhole)
    (other : σ → String → Source → Except Halt σ) (a : α) (state : σ)
    (rest : List (Key × Source)) :
    ∀ (fs : List L.Field) (found : L.Values), fs.Nodup → (∀ f ∈ fs, found f = none) →
      L.takeMembers other (Source.ofMembers e (L.encodeMembers a fs) ++ rest) found state =
        L.takeMembers other rest (fun f => if f ∈ fs then L.shown a f else found f) state
  | [], found, _, _ => by simp [encodeMembers, Source.ofMembers]
  | f :: fs, found, hnd, hnone => by
    obtain ⟨hf, hnd⟩ := List.nodup_cons.mp hnd
    have hfound : found f = none := hnone f List.mem_cons_self
    have hrest : ∀ g ∈ fs, found g = none := fun g hg => hnone g (List.mem_cons_of_mem _ hg)
    cases hv : (L.slot f).write (L.get a f) with
    | none =>
      rw [encodeMembers, hv]
      simp only
      rw [hL.takeMembers_encodeMembers he other a state rest fs found hnd hrest]
      congr 1
      funext g
      by_cases hg : g = f
      · subst hg
        simp [hf, hfound, shown, hv]
      · simp [hg]
    | some j =>
      rw [encodeMembers, hv]
      simp only [Source.ofMembers, List.cons_append, takeMembers]
      have hset : ∀ g ∈ fs, found.set f (L.get a f) g = none := fun g hg => by
        rw [Values.set_of_ne found _ (by rintro rfl; exact hf hg), hrest g hg]
      have ih := hL.takeMembers_encodeMembers he other a state rest fs (found.set f (L.get a f))
        hnd hset
      simp only [readKey, hL.field?_name, hfound,
        hL.slot_lawful f e he _ _ hv, Option.isSome_none, Bool.false_eq_true, if_false, bind,
        Except.bind]
      rw [ih]
      congr 1
      funext g
      by_cases hg : g = f
      · subst hg
        simp [hf, shown, hv]
      · simp [hg, Values.set_of_ne found _ (Ne.symm hg)]

/-- A record is built from the values that its written form shows. -/
theorem Lawful.build_shown (hL : L.Lawful) (absent : L.Field → Misfit) (a : α) :
    L.build absent (L.shown a) = .ok a := by
  have hnone : (L.fields.find? fun f => L.required f && (L.shown a f).isNone) = none := by
    rw [List.find?_eq_none]
    intro f _
    cases hv : (L.slot f).write (L.get a f) with
    | some j => simp [shown, hv]
    | none => simp [(hL.left_out f _ hv).1]
  have hvalues : (fun f => (L.shown a f).getD (L.get L.template f)) = L.get a := by
    funext f
    cases hv : (L.slot f).write (L.get a f) with
    | some j => simp [shown, hv]
    | none => simp [shown, hv, (hL.left_out f _ hv).2]
  simp only [build, hnone, hvalues, hL.make_get]

/-- **Reading undoes writing.** -/
theorem Lawful.decode_encode (hL : L.Lawful) {e : Closing} (he : e.IsWhole) (a : α) :
    L.decode (.ofJson e (L.encode a)) = .ok a := by
  have hw : e.wanted = none := he
  have h := hL.takeMembers_encodeMembers he passOver a () [] L.fields L.noValues hL.fields_nodup
    (fun _ _ => rfl)
  have hall : (fun f => if f ∈ L.fields then L.shown a f else L.noValues f) = L.shown a := by
    funext f
    simp [hL.mem_fields f]
  rw [hall, List.append_nil] at h
  simp only [encode, Source.ofJson, decode, h, takeMembers, bind, Except.bind, hw, proceed,
    hL.build_shown]

theorem Lawful.codec_lawful (hL : L.Lawful) : L.codec.Lawful :=
  fun _ he a => hL.decode_encode he a

/-! ## Nesting -/

/-- A record is nested once more than the values of its fields. -/
theorem depth_encode {d : Nat} (a : α)
    (h : ∀ f j, (L.slot f).write (L.get a f) = some j → j.depth ≤ d) :
    (L.encode a).depth ≤ 1 + d := by
  have hmembers : ∀ fs, Json.membersDepth (L.encodeMembers a fs) ≤ d := by
    intro fs
    induction fs with
    | nil => simp [encodeMembers, Json.membersDepth]
    | cons f fs ih =>
      rw [encodeMembers]
      split
      · rename_i j hj
        simp only [Json.membersDepth]
        have := h f j hj
        omega
      · exact ih
  simp only [encode, Json.depth]
  have := hmembers L.fields
  omega

end Layout

end Provision.Json
