/-
Provision.Proofs.Json.Object — what is found in a value in canonical form.

A document is assembled as a list of members and put into canonical order
at the end. `at?_canonical` says that nothing is lost on the way: where no
key of an object stands twice (`DistinctKeys`), the same paths lead to the
same parts before and after. An object with a member for each entry of a
map tells the map (`ofMap_canonical_inj`). To compare two documents but for
some members, `erase`, `alter` and `mapValues` change the members of one
object; each of them may be applied before or after the ordering.
-/
import Provision.Json.Canonical
import Provision.Proofs.OrderedMap

namespace Provision.Json

/-! ## Paths -/

/-- The part of a value to which a path of keys leads. -/
def at? (j : Json) : List String → Option Json
  | [] => some j
  | key :: path => (j.get? key).bind fun v => v.at? path

theorem at?_singleton (j : Json) (key : String) : j.at? [key] = j.get? key := by
  rw [at?]
  cases j.get? key <;> rfl

/-- The keys of the members of an object. -/
def keys (j : Json) : List String :=
  j.members.map Prod.fst

mutual
/-- Whether no key of an object stands twice. -/
def DistinctKeys : Json → Prop
  | .arr items => AllDistinct items
  | .obj ms => (ms.map Prod.fst).Nodup ∧ MembersDistinct ms
  | _ => True
/-- Whether no key stands twice in an object of the elements. -/
def AllDistinct : List Json → Prop
  | [] => True
  | j :: js => DistinctKeys j ∧ AllDistinct js
/-- Whether no key stands twice in an object of the values of the members. -/
def MembersDistinct : List (String × Json) → Prop
  | [] => True
  | (_, j) :: ms => DistinctKeys j ∧ MembersDistinct ms
end

@[simp] theorem distinctKeys_bool (b : Bool) : (Json.bool b).DistinctKeys := by
  rw [DistinctKeys] <;> simp

@[simp] theorem distinctKeys_nat (n : UInt64) : (Json.nat n).DistinctKeys := by
  rw [DistinctKeys] <;> simp

@[simp] theorem distinctKeys_str (s : String) : (Json.str s).DistinctKeys := by
  rw [DistinctKeys] <;> simp

theorem membersDistinct_iff (ms : List (String × Json)) :
    MembersDistinct ms ↔ ∀ e ∈ ms, DistinctKeys e.2 := by
  induction ms with
  | nil => simp [MembersDistinct]
  | cons e ms ih => simp [MembersDistinct, ih]

theorem distinctKeys_obj (ms : List (String × Json)) :
    DistinctKeys (.obj ms) ↔ (ms.map Prod.fst).Nodup ∧ ∀ e ∈ ms, DistinctKeys e.2 := by
  rw [DistinctKeys, membersDistinct_iff]

theorem mem_of_lookup {ms : List (String × Json)} {key : String} {v : Json}
    (h : ms.lookup key = some v) : (key, v) ∈ ms := by
  rw [← OrderedMap.lookup_eq_list_lookup] at h
  exact OrderedMap.mem_of_lookup_eq_some h

/-- A member that stands alone under its key is the one that is found. -/
theorem lookup_of_mem {ms : List (String × Json)} {key : String} {v : Json}
    (hd : (ms.map Prod.fst).Nodup) (h : (key, v) ∈ ms) : ms.lookup key = some v := by
  rw [← OrderedMap.get?_ofList_of_nodup hd, OrderedMap.get?_eq_some_iff]
  exact (OrderedMap.ofList_perm hd).mem_iff.mpr h

theorem canonicalMembers_eq_map (ms : List (String × Json)) :
    canonicalMembers ms = ms.map fun e => (e.1, e.2.canonical) := by
  induction ms with
  | nil => rw [canonicalMembers, List.map_nil]
  | cons e ms ih => rw [canonicalMembers, ih, List.map_cons]

/-- The values may be ordered before or after the members. -/
theorem canonical_obj (ms : List (String × Json)) :
    canonical (.obj ms) =
      .obj ((OrderedMap.ofList ms).entries.map fun e => (e.1, e.2.canonical)) := by
  rw [canonical, canonicalMembers_eq_map]
  exact congrArg obj (OrderedMap.entries_ofList_map (fun _ v => v.canonical) ms)

theorem lookup_map (f : Json → Json) (key : String) (ms : List (String × Json)) :
    (ms.map fun e => (e.1, f e.2)).lookup key = (ms.lookup key).map f := by
  induction ms with
  | nil => rfl
  | cons e ms ih =>
    rw [List.map_cons, List.lookup_cons, List.lookup_cons]
    split
    · rfl
    · exact ih

theorem get?_canonical {j : Json} (h : j.DistinctKeys) (key : String) :
    j.canonical.get? key = (j.get? key).map canonical := by
  cases j with
  | obj ms =>
    have hd := ((distinctKeys_obj ms).mp h).1
    rw [canonical_obj, get?, members, lookup_map, ← OrderedMap.lookup_eq_list_lookup]
    exact congrArg (Option.map canonical) (OrderedMap.get?_ofList_of_nodup hd key)
  | _ => simp [canonical, get?, members]

theorem DistinctKeys.get? {j v : Json} {key : String} (h : j.DistinctKeys)
    (hv : j.get? key = some v) : v.DistinctKeys := by
  cases j with
  | obj ms => exact ((distinctKeys_obj ms).mp h).2 (key, v) (mem_of_lookup hv)
  | _ => simp [Json.get?, members] at hv

/-- **Nothing is lost**: a path leads to the same part before and after the
members are put in order. -/
theorem at?_canonical {j : Json} (h : j.DistinctKeys) (path : List String) :
    j.canonical.at? path = (j.at? path).map canonical := by
  induction path generalizing j with
  | nil => rfl
  | cons key path ih =>
    rw [at?, at?, get?_canonical h]
    cases hv : j.get? key with
    | none => rfl
    | some v => exact ih (h.get? hv)

/-- Two values that are the same in canonical order have the same parts. -/
theorem get?_of_canonical_eq {i j : Json} (hi : i.DistinctKeys) (hj : j.DistinctKeys)
    (h : i.canonical = j.canonical) (key : String) :
    (i.get? key).map canonical = (j.get? key).map canonical := by
  rw [← get?_canonical hi, ← get?_canonical hj, h]

/-- A part that may be left out is told by what is written of it. -/
theorem map_canonical_inj {α : Type} {f : α → Json}
    (hf : ∀ a b, (f a).canonical = (f b).canonical → a = b) {o p : Option α}
    (h : (o.map f).map canonical = (p.map f).map canonical) : o = p := by
  rw [Option.map_map, Option.map_map] at h
  exact (Option.map_inj_right hf).mp h

theorem canonical_str_inj {s t : String} (h : (Json.str s).canonical = (Json.str t).canonical) :
    s = t := by
  simpa [canonical] using h

theorem canonical_nat_inj {m n : UInt64} (h : (Json.nat m).canonical = (Json.nat n).canonical) :
    m = n := by
  simpa [canonical] using h

/-- The members of an object in canonical order are those it was made of. -/
theorem members_canonical_perm {ms : List (String × Json)} (h : (ms.map Prod.fst).Nodup) :
    (canonical (.obj ms)).members.Perm (ms.map fun e => (e.1, e.2.canonical)) := by
  rw [canonical_obj, members]
  exact (OrderedMap.ofList_perm h).map _

theorem keys_canonical_perm {ms : List (String × Json)} (h : (ms.map Prod.fst).Nodup) :
    (canonical (.obj ms)).keys.Perm (ms.map Prod.fst) := by
  have hp := (members_canonical_perm h).map Prod.fst
  rwa [List.map_map] at hp

/-! ## Objects of maps -/

/-- The object with a member for each entry of a map. -/
def ofMap {κ ν : Type} [Ord κ] (text : κ → String) (encode : ν → Json) (m : OrderedMap κ ν) :
    Json :=
  .obj (m.entries.map fun e => (text e.1, encode e.2))

section

variable {κ ν : Type} [Ord κ] [Std.LawfulEqOrd κ] {text : κ → String} {encode : ν → Json}

theorem distinctKeys_ofMap [Std.TransOrd κ] (htext : ∀ a b, text a = text b → a = b)
    (hencode : ∀ v, (encode v).DistinctKeys) (m : OrderedMap κ ν) :
    (ofMap text encode m).DistinctKeys := by
  rw [ofMap, distinctKeys_obj, List.map_map]
  refine ⟨?_, fun e he => ?_⟩
  · have h := m.keys_nodup
    rw [OrderedMap.keys, List.Nodup, List.pairwise_map] at h
    exact List.pairwise_map.mpr (h.imp fun hne heq => hne (htext _ _ heq))
  · obtain ⟨x, -, rfl⟩ := List.mem_map.mp he
    exact hencode x.2

/-- The member of a key is what the map answers it. -/
theorem get?_ofMap (htext : ∀ a b, text a = text b → a = b) (m : OrderedMap κ ν) (k : κ) :
    (ofMap text encode m).get? (text k) = (m.get? k).map encode := by
  rw [get?, ofMap, members, OrderedMap.get?]
  induction m.entries with
  | nil => rfl
  | cons e l ih =>
    rw [List.map_cons, List.lookup_cons, OrderedMap.lookup]
    by_cases h : k = e.1
    · simp [h]
    · have ht : (text k == text e.1) = false :=
        beq_eq_false_iff_ne.mpr fun heq => h (htext _ _ heq)
      simp [h, ht, ih]

/-- **A map is told by its object**, when its keys and values are by what is
written of them. -/
theorem ofMap_canonical_inj [Std.TransOrd κ] (htext : ∀ a b, text a = text b → a = b)
    (hdistinct : ∀ v, (encode v).DistinctKeys)
    (hencode : ∀ v w, (encode v).canonical = (encode w).canonical → v = w)
    {m n : OrderedMap κ ν} (h : (ofMap text encode m).canonical = (ofMap text encode n).canonical) :
    m = n := by
  refine OrderedMap.ext_get? fun k => ?_
  have hk := congrArg (fun j => j.get? (text k)) h
  simp only [get?_canonical (distinctKeys_ofMap htext hdistinct _), get?_ofMap htext] at hk
  exact map_canonical_inj hencode hk

end

/-! ## Changing the members of an object -/

/-- The value without the members under this key. -/
def erase (key : String) : Json → Json
  | .obj ms => .obj (ms.filter fun e => e.1 ≠ key)
  | j => j

/-- The value with the members under this key changed. -/
def alter (key : String) (f : Json → Json) : Json → Json
  | .obj ms => .obj (ms.map fun e => (e.1, if e.1 = key then f e.2 else e.2))
  | j => j

/-- The value with every member changed. -/
def mapValues (f : Json → Json) : Json → Json
  | .obj ms => .obj (ms.map fun e => (e.1, f e.2))
  | j => j

theorem canonical_erase (key : String) (j : Json) :
    (j.erase key).canonical = j.canonical.erase key := by
  cases j with
  | obj ms =>
    have h := OrderedMap.entries_ofList_filter (fun k => decide (k ≠ key)) ms
    rw [erase, canonical_obj, canonical_obj, erase, h, List.filter_map]
    rfl
  | _ => simp [canonical, erase]

theorem canonical_alter {f : Json → Json} (hf : ∀ j, (f j).canonical = f j.canonical)
    (key : String) (j : Json) : (j.alter key f).canonical = j.canonical.alter key f := by
  cases j with
  | obj ms =>
    have h := OrderedMap.entries_ofList_map (fun k v => if k = key then f v else v) ms
    rw [alter, canonical_obj, canonical_obj, alter, h, List.map_map, List.map_map]
    refine congrArg obj (List.map_congr_left fun e _ => ?_)
    by_cases hk : e.1 = key <;> simp [hk, hf]
  | _ => simp [canonical, alter]

theorem canonical_mapValues {f : Json → Json} (hf : ∀ j, (f j).canonical = f j.canonical)
    (j : Json) : (j.mapValues f).canonical = j.canonical.mapValues f := by
  cases j with
  | obj ms =>
    have h := OrderedMap.entries_ofList_map (fun _ v => f v) ms
    rw [mapValues, canonical_obj, canonical_obj, mapValues, h, List.map_map, List.map_map]
    exact congrArg obj (List.map_congr_left fun e _ => by simp [hf])
  | _ => simp [canonical, mapValues]

end Provision.Json
