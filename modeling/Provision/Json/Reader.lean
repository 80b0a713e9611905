/-
Provision.Json.Reader — taking a text apart.

`readValue` reads the value a text begins with and returns its tree with
what is left of the text, or nothing where the text broke off. Its first
argument bounds the recursion; `Document.ofText` gives it twice the
length of the text, and every second step consumes a character.
-/
import Provision.Json.Scalar

namespace Provision.Json

/-! ## Blanks -/

/-- The characters that may stand between the parts of a text. -/
def isBlank (c : Char) : Bool :=
  c == ' ' || c == '\n' || c == '\t' || c == '\r'

/-- Drops the blanks a text begins with. -/
def skipBlanks (s : List Char) : List Char :=
  s.dropWhile isBlank

/-! ## Values -/

/-- A tree, and what is left of the text unless it broke off. -/
abbrev Reading := Source × Option (List Char)

/-- The tree of a quoted text. -/
def Reading.ofText (start : List Char) (t : TextReading) : Reading :=
  match t.wanted, t.passed with
  | .ok s, passed => (.text s, passed.toOption)
  | .error stop, .ok rest => (.flawed ⟨start, stop, none⟩, some rest)
  | .error stop, .error f => (.flawed ⟨start, stop, some f⟩, none)

/-- The tree of a number. A number that is too large can be passed over;
one that is broken is malformed to a reader that passes over it, even
where the text ends. -/
def Reading.ofNumber (start : List Char) :
    Except Stop (NumberLiteral × List Char) → Reading
  | .ok (l, rest) =>
    match l.read with
    | some n => (.number n, some rest)
    | none => (.flawed ⟨start, ⟨.malformed, l.unread ++ rest⟩, none⟩, some rest)
  | .error stop => (.flawed ⟨start, stop, some .malformed⟩, none)

/-- The tree of a word. -/
def Reading.ofWord (start : List Char) (s : Source) : Except Stop (List Char) → Reading
  | .ok rest => (s, some rest)
  | .error stop => (.flawed ⟨start, stop, some stop.fault⟩, none)

/-- The tree of a place where no value begins. -/
def Reading.nothing (s : List Char) : Reading :=
  (.flawed ⟨s, .before s, some (Stop.before s).fault⟩, none)

mutual
/-- Reads the value a text begins with. -/
def readValue : Nat → List Char → Reading
  | 0, _ => .nothing []
  | fuel + 1, s =>
    match skipBlanks s with
    | [] => .nothing []
    | '"' :: rest => .ofText ('"' :: rest) (readText rest)
    | '[' :: rest =>
      match skipBlanks rest with
      | ']' :: rest => (.array [] .closed, some rest)
      | rest =>
        let (items, closing, rest) := readItems fuel rest
        (.array items closing, rest)
    | '\x7b' :: rest =>
      match skipBlanks rest with
      | [] => (.object [] (.dangling .truncated), none)
      | '\x7d' :: rest => (.object [] .closed, some rest)
      | rest =>
        let (ms, closing, rest) := readMembers fuel rest
        (.object ms closing, rest)
    | 't' :: rest => .ofWord ('t' :: rest) (.bool true) (readWord ['r', 'u', 'e'] rest)
    | 'f' :: rest => .ofWord ('f' :: rest) (.bool false) (readWord ['a', 'l', 's', 'e'] rest)
    | 'n' :: rest => .ofWord ('n' :: rest) .null (readWord ['u', 'l', 'l'] rest)
    | c :: rest =>
      if c = '-' ∨ c.isDigit then .ofNumber (c :: rest) (readNumber (c :: rest))
      else .nothing (c :: rest)

/-- Reads the elements of an array and its end. -/
def readItems : Nat → List Char → List Source × Closing × Option (List Char)
  | 0, _ => ([], .broken .truncated, none)
  | fuel + 1, s =>
    match readValue fuel s with
    | (v, none) => ([v], .broken .malformed, none)
    | (v, some rest) =>
      match skipBlanks rest with
      | [] => ([v], .broken .truncated, none)
      | ']' :: rest => ([v], .closed, some rest)
      | ',' :: rest =>
        match skipBlanks rest with
        | ']' :: rest => ([v], .dangling .malformed, some rest)
        | rest =>
          let (vs, closing, rest) := readItems fuel rest
          (v :: vs, closing, rest)
      | _ => ([v], .broken .malformed, none)

/-- Reads the members of an object, of which one is due, and its end. -/
def readMembers : Nat → List Char → List (Key × Source) × Closing × Option (List Char)
  | 0, _ => ([], .broken .truncated, none)
  | fuel + 1, s =>
    match skipBlanks s with
    | [] => ([], .dangling .truncated, none)
    | '"' :: rest =>
      let key := readText rest
      match key.passed with
      | .error f => ([], .dangling ⟨key.fault.getD f, f⟩, none)
      | .ok rest =>
        let key := key.wanted.toOption
        match skipBlanks rest with
        | ':' :: rest =>
          match readValue fuel rest with
          | (v, none) => ([(key, v)], .broken .malformed, none)
          | (v, some rest) =>
            match skipBlanks rest with
            | [] => ([(key, v)], .broken .truncated, none)
            | '\x7d' :: rest => ([(key, v)], .closed, some rest)
            | ',' :: rest =>
              let (ms, closing, rest) := readMembers fuel rest
              ((key, v) :: ms, closing, rest)
            | _ => ([(key, v)], .broken .malformed, none)
        | rest => ([(key, (Reading.nothing rest).1)], .broken .malformed, none)
    | _ => ([], .dangling .malformed, none)
end

/-! ## Documents -/

/-- A text that should hold one value. -/
structure Document where
  value : Source
  /-- Whether something other than blanks follows the value. -/
  trailing : Bool

/-- Takes a text apart. -/
def Document.ofChars (s : List Char) : Document :=
  let (value, rest) := readValue (2 * s.length + 2) s
  ⟨value, match rest with
    | some rest => skipBlanks rest ≠ []
    | none => false⟩

/-- Takes a text apart. -/
def Document.ofText (s : String) : Document :=
  .ofChars s.toList

/-- The text in which `null` stands for what was taken of a flawed part. -/
def Flaw.mend (f : Flaw) (s : List Char) : List Char :=
  s.take (s.length - f.start.length) ++ ['n', 'u', 'l', 'l'] ++ f.stop.rest

/-- The value a text holds, when its numbers are naturals. -/
def parse? (s : String) : Option Json :=
  let d := Document.ofText s
  if d.trailing then none else d.value.toJson?

end Provision.Json
