/-
Provision.Json.Scalar — reading quoted texts, numbers and words.

Each reader begins after the mark that announces its part and returns the
part with what is left of the text, or the `Stop` where it gives up. It
gives up as soon as the part cannot be what it should be: a character
that does not continue the part has then been taken, unless the reader
only looked ahead. A quoted text is read in two ways at once, by a reader
that wants it and by one that passes over it.
-/
import Provision.Json.Source
import Provision.Hex

namespace Provision.Json

/-! ## Stops -/

/-- Drops the first `n` bytes of a text. A character beyond ASCII that is
cut in two stays, because what is left of it is as little expected as the
whole. -/
def dropBytes (n : Nat) : List Char → List Char
  | [] => []
  | c :: s => if c.utf8Size ≤ n then dropBytes (n - c.utf8Size) s else c :: s

/-- A reader stops at a character that it has taken, or at the end. -/
def Stop.after : List Char → Stop
  | [] => ⟨.truncated, []⟩
  | s => ⟨.malformed, dropBytes 1 s⟩

/-- A reader stops before a character that it has seen, or at the end. -/
def Stop.before : List Char → Stop
  | [] => ⟨.truncated, []⟩
  | s => ⟨.malformed, s⟩

/-! ## Escapes -/

/-- The character of a one-letter escape. -/
def shortEscape? : Char → Option Char
  | '"' => some '"'
  | '\\' => some '\\'
  | '/' => some '/'
  | 'b' => some '\x08'
  | 'f' => some '\x0c'
  | 'n' => some '\n'
  | 'r' => some '\r'
  | 't' => some '\t'
  | _ => none

/-- Whether fewer than four bytes are left. -/
def isShort (s : List Char) : Bool :=
  (s.take 4).foldl (fun n c => n + c.utf8Size) 0 < 4

/-- The stop at a code that is not four digits: four bytes are taken. -/
def Stop.inCode (s : List Char) : Stop :=
  if isShort s then ⟨.truncated, []⟩ else ⟨.malformed, dropBytes 4 s⟩

/-- A part of a quoted text: a character, or an escape of one half of a
surrogate pair with what follows it. -/
inductive TextUnit where
  | char (c : Char)
  | half (code : Nat) (rest : List Char)
deriving DecidableEq, Repr

/-- Whether a code is the first half of a surrogate pair. -/
def isHighSurrogate (n : Nat) : Bool := 0xD800 ≤ n && n ≤ 0xDBFF

/-- Whether a code is the second half of a surrogate pair. -/
def isLowSurrogate (n : Nat) : Bool := 0xDC00 ≤ n && n ≤ 0xDFFF

/-- The character of a surrogate pair. -/
def ofSurrogates (high low : Nat) : Char :=
  Char.ofNat (0x10000 + (high - 0xD800) * 0x400 + (low - 0xDC00))

/-- The unit of an escape by code, and of what follows it. -/
def TextUnit.ofCode (n : Nat) (rest : List Char) : TextUnit :=
  if isHighSurrogate n || isLowSurrogate n then .half n rest else .char (Char.ofNat n)

/-- The stop after the first half of a surrogate pair, where the escape of
a second half does not follow. An escape that is none is taken up to the
place where that shows. -/
def Stop.afterHigh : List Char → Stop
  | ['\\'] => .after []
  | '\\' :: 'u' :: a :: b :: c :: d :: rest =>
    if [a, b, c, d].all Hex.isDigit then ⟨.malformed, rest⟩
    else .inCode (a :: b :: c :: d :: rest)
  | '\\' :: 'u' :: rest => .inCode rest
  | '\\' :: rest => .after rest
  | rest => .after rest

/-- The stop at a surrogate without its other half. -/
def Stop.atHalf (code : Nat) (rest : List Char) : Stop :=
  if isHighSurrogate code then .afterHigh rest else ⟨.malformed, rest⟩

/-- Joins the halves of surrogate pairs, gathering the characters in
reverse. -/
def joinInto (acc : List Char) : List TextUnit → Except Stop (List Char)
  | [] => .ok acc.reverse
  | .char c :: us => joinInto (c :: acc) us
  | .half h rest :: .half l _ :: us =>
    if isHighSurrogate h && isLowSurrogate l then joinInto (ofSurrogates h l :: acc) us
    else .error (.atHalf h rest)
  | .half h rest :: _ => .error (.atHalf h rest)

/-- Texts without halves of surrogate pairs are their characters. -/
theorem joinInto_map_char (cs acc : List Char) :
    joinInto acc (cs.map .char) = .ok (acc.reverse ++ cs) := by
  induction cs generalizing acc with
  | nil => simp [joinInto]
  | cons c cs ih => simp [joinInto, ih]

/-! ## Quoted texts -/

/-- Takes the units of a quoted text, gathering them in reverse; then
what is left after the closing mark. -/
def takeUnits (acc : List TextUnit) : List Char → List TextUnit × Except Stop (List Char)
  | [] => (acc.reverse, .error (.after []))
  | '"' :: rest => (acc.reverse, .ok rest)
  | ['\\'] => (acc.reverse, .error (.after []))
  | '\\' :: 'u' :: a :: b :: c :: d :: rest =>
    if [a, b, c, d].all Hex.isDigit then
      takeUnits (.ofCode (Hex.value [a, b, c, d]) rest :: acc) rest
    else
      (acc.reverse, .error (.inCode (a :: b :: c :: d :: rest)))
  | '\\' :: 'u' :: rest => (acc.reverse, .error (.inCode rest))
  | '\\' :: e :: rest =>
    match shortEscape? e with
    | some c => takeUnits (.char c :: acc) rest
    | none => (acc.reverse, .error (.after (e :: rest)))
  | c :: rest =>
    if c.toNat < 0x20 then (acc.reverse, .error (.after (c :: rest)))
    else takeUnits (.char c :: acc) rest

/-- What a quoted text is to its readers. -/
structure TextReading where
  /-- The text, to a reader that wants it. -/
  wanted : Except Stop String
  /-- What is left after it, to a reader that passes over it. -/
  passed : Except Fault (List Char)

/-- The fault that a reader of the text meets. -/
def TextReading.fault (t : TextReading) : Option Fault :=
  match t.wanted with
  | .ok _ => none
  | .error stop => some stop.fault

/-- Reads a quoted text after its opening mark. -/
def readText (s : List Char) : TextReading :=
  let (us, tail) := takeUnits [] s
  { wanted := do
      let cs ← joinInto [] us
      let _ ← tail
      .ok (String.ofList cs)
    passed := tail.mapError Stop.fault }

/-! ## Numbers -/

/-- Splits off the digits a text begins with; there must be one. -/
def readDigits (missing : List Char → Stop) (s : List Char) :
    Except Stop (List Char × List Char) :=
  let ds := s.takeWhile Char.isDigit
  let rest := s.dropWhile Char.isDigit
  if ds = [] then .error (missing rest) else .ok (ds, rest)

/-- Reads the part of a number after its whole digits: a fraction. Its
first digit is looked for before it is taken. -/
def readFraction : List Char → Except Stop (List Char × List Char)
  | '.' :: rest => readDigits .before rest
  | s => .ok ([], s)

/-- Drops the sign of an exponent; whether it is a minus. -/
def readSign : List Char → Bool × List Char
  | '+' :: rest => (false, rest)
  | '-' :: rest => (true, rest)
  | s => (false, s)

/-- Reads the last part of a number: an exponent. -/
def readExponent (s : List Char) : Except Stop (Option (Bool × List Char) × List Char) :=
  match s with
  | c :: rest =>
    if c = 'e' ∨ c = 'E' then do
      let (down, rest) := readSign rest
      let (ds, rest) ← readDigits .after rest
      .ok (some (down, ds), rest)
    else .ok (none, s)
  | [] => .ok (none, [])

/-- Drops a minus sign; whether there was one. -/
def readMinus : List Char → Bool × List Char
  | '-' :: rest => (true, rest)
  | s => (false, s)

/-- Reads a number. A whole part of several digits does not begin with
zero: its reader stops after the zero. -/
def readNumber (s : List Char) : Except Stop (NumberLiteral × List Char) := do
  let (negative, s) := readMinus s
  let (whole, s) ← readDigits .after s
  if whole.head? = some '0' ∧ 1 < whole.length then .error ⟨.malformed, whole.tail ++ s⟩
  let (fraction, s) ← readFraction s
  let (exponent, s) ← readExponent s
  .ok (⟨negative, whole, fraction, exponent⟩, s)

/-! ## Words -/

/-- Reads a word that a text must continue with. -/
def readWord : List Char → List Char → Except Stop (List Char)
  | [], s => .ok s
  | w :: ws, s =>
    match s with
    | c :: rest => if c = w then readWord ws rest else .error (.after s)
    | [] => .error (.after [])

end Provision.Json
