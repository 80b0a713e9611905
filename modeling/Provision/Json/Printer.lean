/-
Provision.Json.Printer — the text of a value.

A `Style` says what stands before each element and member and after each
colon. The compact style puts nothing there; the pretty style starts a
new line, indented by two blanks for each enclosing bracket. An empty
array or object is written without a gap in either style. In a quoted
text only the mark, the backslash and the control characters are escaped.
-/
import Provision.Json.Basic
import Provision.Decimal.Basic

namespace Provision.Json

/-! ## Quoted texts -/

/-- Four hexadecimal digits of a code below 256. -/
def codeDigits (n : Nat) : List Char :=
  ['0', '0', (n / 16).digitChar, (n % 16).digitChar]

/-- A character inside quotes. -/
def escape (c : Char) : List Char :=
  if c = '"' then ['\\', '"']
  else if c = '\\' then ['\\', '\\']
  else if c = '\n' then ['\\', 'n']
  else if c = '\r' then ['\\', 'r']
  else if c = '\t' then ['\\', 't']
  else if c = '\x08' then ['\\', 'b']
  else if c = '\x0c' then ['\\', 'f']
  else if c.toNat < 0x20 then '\\' :: 'u' :: codeDigits c.toNat
  else [c]

/-- A text between quotation marks. -/
def quote (s : String) : List Char :=
  '"' :: (s.toList.flatMap escape ++ ['"'])

/-! ## Styles -/

/-- How the parts of a value are set apart. -/
structure Style where
  /-- What stands before a part within so many brackets. -/
  gap : Nat → List Char
  /-- What stands after a colon. -/
  afterColon : List Char

namespace Style

/-- Nothing stands between the parts. -/
def compact : Style := ⟨fun _ => [], []⟩

/-- Every part has a line of its own. -/
def pretty : Style := ⟨fun depth => '\n' :: List.replicate (2 * depth) ' ', [' ']⟩

variable (st : Style)

mutual
/-- The text of a value within `depth` brackets. -/
def write (depth : Nat) : Json → List Char
  | .null => ['n', 'u', 'l', 'l']
  | .bool true => ['t', 'r', 'u', 'e']
  | .bool false => ['f', 'a', 'l', 's', 'e']
  | .nat n => Decimal.digits n.toNat
  | .str s => quote s
  | .arr [] => ['[', ']']
  | .arr (j :: js) =>
    '[' :: (st.gap (depth + 1) ++ (write (depth + 1) j ++
      (writeItems (depth + 1) js ++ (st.gap depth ++ [']']))))
  | .obj [] => ['\x7b', '\x7d']
  | .obj ((k, j) :: ms) =>
    '\x7b' :: (st.gap (depth + 1) ++ (quote k ++ ':' :: (st.afterColon ++
      (write (depth + 1) j ++ (writeMembers (depth + 1) ms ++ (st.gap depth ++ ['\x7d']))))))
/-- The text of the elements after the first. -/
def writeItems (depth : Nat) : List Json → List Char
  | [] => []
  | j :: js => ',' :: (st.gap depth ++ (write depth j ++ writeItems depth js))
/-- The text of the members after the first. -/
def writeMembers (depth : Nat) : List (String × Json) → List Char
  | [] => []
  | (k, j) :: ms =>
    ',' :: (st.gap depth ++ (quote k ++ ':' :: (st.afterColon ++
      (write depth j ++ writeMembers depth ms))))
end

end Style

/-- The text without any blanks. -/
def compact (j : Json) : String :=
  String.ofList (Style.compact.write 0 j)

/-- The text with a line for each part. -/
def pretty (j : Json) : String :=
  String.ofList (Style.pretty.write 0 j)

end Provision.Json
