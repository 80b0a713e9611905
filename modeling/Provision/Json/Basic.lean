/-
Provision.Json.Basic — JSON values.

The values a document is made of. Numbers are the naturals below 2 ^ 64:
they are all a document holds, and they are written and read back
exactly. The members of an object are kept in the order in which they are
written.
-/
import Provision.OrderedMap

namespace Provision

/-- A JSON value. -/
inductive Json where
  | null
  | bool (b : Bool)
  | nat (n : UInt64)
  | str (s : String)
  | arr (items : List Json)
  | obj (members : List (String × Json))
deriving Inhabited, Repr

namespace Json

/-! ## Building -/

/-- The member that is present exactly when its value is. -/
def member? (key : String) (value : Option Json) : List (String × Json) :=
  match value with
  | some v => [(key, v)]
  | none => []

/-! ## Looking inside -/

/-- The members of an object; other values have none. -/
def members : Json → List (String × Json)
  | .obj ms => ms
  | _ => []

/-- The value of the first member with this key. -/
def get? (j : Json) (key : String) : Option Json :=
  j.members.lookup key

/-! ## Nesting -/

mutual
/-- The number of brackets that enclose the innermost part. -/
def depth : Json → Nat
  | .arr items => 1 + itemsDepth items
  | .obj ms => 1 + membersDepth ms
  | _ => 0
/-- The greatest depth of the elements. -/
def itemsDepth : List Json → Nat
  | [] => 0
  | j :: js => max (depth j) (itemsDepth js)
/-- The greatest depth of the values of the members. -/
def membersDepth : List (String × Json) → Nat
  | [] => 0
  | (_, j) :: ms => max (depth j) (membersDepth ms)
end

/-! ## Equality -/

mutual
/-- Whether two values are the same. -/
def same : Json → Json → Bool
  | .null, .null => true
  | .bool a, .bool b => a == b
  | .nat a, .nat b => a == b
  | .str a, .str b => a == b
  | .arr a, .arr b => sameItems a b
  | .obj a, .obj b => sameMembers a b
  | _, _ => false
/-- Whether two lists hold the same values. -/
def sameItems : List Json → List Json → Bool
  | [], [] => true
  | a :: as, b :: bs => same a b && sameItems as bs
  | _, _ => false
/-- Whether two lists hold the same members. -/
def sameMembers : List (String × Json) → List (String × Json) → Bool
  | [], [] => true
  | (k, a) :: as, (l, b) :: bs => k == l && same a b && sameMembers as bs
  | _, _ => false
end

mutual
theorem same_iff : ∀ a b : Json, same a b = true ↔ a = b
  | .null, b => by cases b <;> simp [same]
  | .bool _, b => by cases b <;> simp [same]
  | .nat _, b => by cases b <;> simp [same]
  | .str _, b => by cases b <;> simp [same]
  | .arr as, b => by cases b <;> simp [same, sameItems_iff as]
  | .obj as, b => by cases b <;> simp [same, sameMembers_iff as]
theorem sameItems_iff : ∀ as bs : List Json, sameItems as bs = true ↔ as = bs
  | [], bs => by cases bs <;> simp [sameItems]
  | a :: as, bs => by cases bs <;> simp [sameItems, same_iff a, sameItems_iff as]
theorem sameMembers_iff : ∀ as bs : List (String × Json), sameMembers as bs = true ↔ as = bs
  | [], bs => by cases bs <;> simp [sameMembers]
  | (k, a) :: as, bs => by
    cases bs <;> simp [sameMembers, same_iff a, sameMembers_iff as, Prod.ext_iff]
end

instance : DecidableEq Json := fun a b => decidable_of_iff _ (same_iff a b)

end Json

end Provision
