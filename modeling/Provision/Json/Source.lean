/-
Provision.Json.Source — what a text holds, up to the place where it breaks
off.

A text that is no JSON still has a meaning for a reader that goes through
it from left to right: it may be refused for something it says long
before the place where it is broken. So a text is taken apart into a tree
whose branches may end in a flaw or a break, and a decoder that walks the
tree in order meets what is wrong with a text where the text has it.

Some parts are judged only when they are wanted. Half of a surrogate pair
is no character and a number may be too large, but a member that is
passed over may contain them. A flaw therefore says what it is to a
reader that wants the part and to one that passes over it, and where in
the text the former stops.
-/
import Provision.Json.Basic
import Provision.Json.Number

namespace Provision.Json

/-! ## Faults -/

/-- Why a text is no JSON. -/
inductive Fault where
  /-- Something stands where it cannot stand. -/
  | malformed
  /-- The text ends too early. -/
  | truncated
deriving DecidableEq, Repr

/-- The place where a reader stops, and why. -/
structure Stop where
  fault : Fault
  /-- What is left of the text. -/
  rest : List Char
deriving DecidableEq, Repr

/-- A text, a number or a word that is not what it should be. -/
structure Flaw where
  /-- The text from the beginning of the part. -/
  start : List Char
  /-- Where a reader that wants the part stops. -/
  stop : Stop
  /-- The fault that a reader passing over the part meets, unless it can
  be passed over. -/
  passed : Option Fault
deriving DecidableEq, Repr

/-- The place where an array or an object breaks off. -/
structure Break where
  /-- The fault that a reader of the broken part meets. -/
  wanted : Fault
  /-- The fault that a reader passing over it meets. -/
  passed : Fault
deriving DecidableEq, Repr

namespace Break

/-- A break that is the same to every reader. -/
def of (f : Fault) : Break := ⟨f, f⟩

/-- Something stands where it cannot stand. -/
abbrev malformed : Break := of .malformed

/-- The text ends too early. -/
abbrev truncated : Break := of .truncated

end Break

/-! ## The tree -/

/-- How an array or an object ends. -/
inductive Closing where
  /-- With its bracket. -/
  | closed
  /-- As a value that is already in memory ends: there is no more of it. -/
  | held
  /-- With a break where a comma or the bracket is due. -/
  | broken (b : Break)
  /-- With a comma and a break where an element or a member is due; of an
  object, also with a break where its first member is due. -/
  | dangling (b : Break)
deriving DecidableEq, Repr

/-- The key of a member, unless half of a surrogate pair stands in it. -/
abbrev Key := Option String

/-- What stands where a value is due. -/
inductive Source where
  | flawed (f : Flaw)
  | null
  | bool (b : Bool)
  | number (n : Number)
  | text (s : String)
  | array (items : List Source) (closing : Closing)
  | object (members : List (Key × Source)) (closing : Closing)
deriving Inhabited

namespace Closing

/-- What the end of an array or object means to a reader of it. -/
def wanted : Closing → Option Fault
  | .closed | .held => none
  | .broken b | .dangling b => some b.wanted

/-- What the end means to a reader that passes over it. -/
def passed : Closing → Option Fault
  | .closed | .held => none
  | .broken b | .dangling b => some b.passed

/-- The end of an array or object that is whole, in a text or in memory. -/
def IsWhole (e : Closing) : Prop := e.wanted = none

theorem isWhole_closed : closed.IsWhole := rfl

theorem isWhole_held : held.IsWhole := rfl

end Closing

namespace Source

/-! ## Values as trees -/

section
variable (e : Closing)

mutual
/-- The tree of a value, in which arrays and objects end as `e` says. -/
def ofJson : Json → Source
  | .null => .null
  | .bool b => .bool b
  | .nat n => .number (.natural n)
  | .str s => .text s
  | .arr items => .array (ofItems items) e
  | .obj ms => .object (ofMembers ms) e
/-- The trees of the elements of an array. -/
def ofItems : List Json → List Source
  | [] => []
  | j :: js => ofJson j :: ofItems js
/-- The trees of the members of an object. -/
def ofMembers : List (String × Json) → List (Key × Source)
  | [] => []
  | (k, j) :: ms => (some k, ofJson j) :: ofMembers ms
end

end

theorem ofMembers_append (e : Closing) (a b : List (String × Json)) :
    ofMembers e (a ++ b) = ofMembers e a ++ ofMembers e b := by
  induction a with
  | nil => rfl
  | cons m a ih => simp [ofMembers, ih]

mutual
/-- The value of an unbroken tree whose numbers are all naturals. -/
def toJson? : Source → Option Json
  | .null => some .null
  | .bool b => some (.bool b)
  | .number (.natural n) => some (.nat n)
  | .text s => some (.str s)
  | .array items closing =>
    if closing.wanted = none then (toItems? items).map .arr else none
  | .object ms closing =>
    if closing.wanted = none then (toMembers? ms).map .obj else none
  | _ => none
/-- The values of the elements of an array. -/
def toItems? : List Source → Option (List Json)
  | [] => some []
  | s :: ss => (toJson? s).bind fun j => (toItems? ss).map (j :: ·)
/-- The members of an object. -/
def toMembers? : List (Key × Source) → Option (List (String × Json))
  | [] => some []
  | (k, s) :: ms =>
    k.bind fun k => (toJson? s).bind fun j => (toMembers? ms).map ((k, j) :: ·)
end

variable {e : Closing}

mutual
/-- **A value is the value of its tree.** -/
theorem toJson?_ofJson (h : e.IsWhole) : ∀ j : Json, toJson? (ofJson e j) = some j
  | .null => rfl
  | .bool _ => rfl
  | .nat _ | .str _ => rfl
  | .arr items => by
    have hw : e.wanted = none := h
    simp [ofJson, toJson?, hw, toItems?_ofItems h items]
  | .obj ms => by
    have hw : e.wanted = none := h
    simp [ofJson, toJson?, hw, toMembers?_ofMembers h ms]
theorem toItems?_ofItems (h : e.IsWhole) : ∀ js : List Json, toItems? (ofItems e js) = some js
  | [] => rfl
  | j :: js => by simp [ofItems, toItems?, toJson?_ofJson h j, toItems?_ofItems h js]
theorem toMembers?_ofMembers (h : e.IsWhole) :
    ∀ ms : List (String × Json), toMembers? (ofMembers e ms) = some ms
  | [] => rfl
  | (k, j) :: ms => by
    simp [ofMembers, toMembers?, toJson?_ofJson h j, toMembers?_ofMembers h ms]
end

/-! ## Passing over a value -/

mutual
/-- The fault that passing over a value meets. -/
def passOver : Source → Option Fault
  | .flawed f => f.passed
  | .array items closing => (passItems items).or closing.passed
  | .object ms closing => (passMembers ms).or closing.passed
  | _ => none
/-- The first fault that passing over elements meets. -/
def passItems : List Source → Option Fault
  | [] => none
  | s :: ss => (passOver s).or (passItems ss)
/-- The first fault that passing over members meets. -/
def passMembers : List (Key × Source) → Option Fault
  | [] => none
  | (_, s) :: ms => (passOver s).or (passMembers ms)
end

/-! ## Holding a value in memory -/

mutual
/-- Takes a value into memory: it is read in full, and nested in fewer
than `room` arrays and objects. -/
def hold (room : Nat) : Source → Except Fault Source
  | .flawed f => .error f.stop.fault
  | .array items closing =>
    if room ≤ 1 then .error .malformed
    else do
      let items ← holdItems (room - 1) items
      match closing.wanted with
      | some f => .error f
      | none => .ok (.array items .held)
  | .object ms closing =>
    if room ≤ 1 then .error .malformed
    else do
      let ms ← holdMembers (room - 1) ms
      match closing.wanted with
      | some f => .error f
      | none => .ok (.object ms .held)
  | s => .ok s
/-- Takes the elements of an array into memory, in order. -/
def holdItems (room : Nat) : List Source → Except Fault (List Source)
  | [] => .ok []
  | s :: ss => do
    let s ← hold room s
    let ss ← holdItems room ss
    .ok (s :: ss)
/-- Takes the members of an object into memory, in order. -/
def holdMembers (room : Nat) : List (Key × Source) → Except Fault (List (Key × Source))
  | [] => .ok []
  | (k, s) :: ms => do
    if k.isNone then .error .malformed
    let s ← hold room s
    let ms ← holdMembers room ms
    .ok ((k, s) :: ms)
end

mutual
/-- A whole value that is not nested too deeply can be taken into memory. -/
theorem hold_ofJson (h : e.IsWhole) :
    ∀ (j : Json) {room : Nat}, j.depth < room → hold room (ofJson e j) = .ok (ofJson .held j)
  | .null, _, _ | .bool _, _, _ | .nat _, _, _ | .str _, _, _ => by simp [ofJson, hold]
  | .arr items, room, hd => by
    have hw : e.wanted = none := h
    simp only [Json.depth] at hd
    have hroom : ¬ room ≤ 1 := by omega
    simp [ofJson, hold, hroom, hw, bind, Except.bind,
      holdItems_ofItems h items (show Json.itemsDepth items < room - 1 by omega)]
  | .obj ms, room, hd => by
    have hw : e.wanted = none := h
    simp only [Json.depth] at hd
    have hroom : ¬ room ≤ 1 := by omega
    simp [ofJson, hold, hroom, hw, bind, Except.bind,
      holdMembers_ofMembers h ms (show Json.membersDepth ms < room - 1 by omega)]
theorem holdItems_ofItems (h : e.IsWhole) :
    ∀ (js : List Json) {room : Nat}, Json.itemsDepth js < room →
      holdItems room (ofItems e js) = .ok (ofItems .held js)
  | [], _, _ => by simp [ofItems, holdItems]
  | j :: js, room, hd => by
    simp only [Json.itemsDepth] at hd
    simp [ofItems, holdItems, bind, Except.bind,
      hold_ofJson h j (show j.depth < room by omega),
      holdItems_ofItems h js (show Json.itemsDepth js < room by omega)]
theorem holdMembers_ofMembers (h : e.IsWhole) :
    ∀ (ms : List (String × Json)) {room : Nat}, Json.membersDepth ms < room →
      holdMembers room (ofMembers e ms) = .ok (ofMembers .held ms)
  | [], _, _ => by simp [ofMembers, holdMembers]
  | (k, j) :: ms, room, hd => by
    simp only [Json.membersDepth] at hd
    simp [ofMembers, holdMembers, bind, Except.bind,
      hold_ofJson h j (show j.depth < room by omega),
      holdMembers_ofMembers h ms (show Json.membersDepth ms < room by omega)]
end

end Source

end Provision.Json
