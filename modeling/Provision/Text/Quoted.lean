/-
Provision.Text.Quoted — how a message quotes a text or a character.

A quoted text stands between quotation marks. The mark itself and the
backslash are escaped, tab, carriage return, line feed and NUL have short
escapes, and a character that is unprintable or extends a grapheme is
written by its code point, so that a message is always one visible line.
-/
import Provision.Text.Printable

namespace Provision.Text

/-- The escape `\u` with the code point in lowercase hexadecimal. -/
def codePointEscape (c : Char) : List Char :=
  ['\\', 'u', '\x7b'] ++ Nat.toDigits 16 c.toNat ++ ['\x7d']

/-- One character inside quotes, where `mark` is the quote that ends them. -/
def escape (mark c : Char) : List Char :=
  if c = '\x00' then ['\\', '0']
  else if c = '\t' then ['\\', 't']
  else if c = '\r' then ['\\', 'r']
  else if c = '\n' then ['\\', 'n']
  else if c = '\\' ∨ c = mark then ['\\', c]
  else if isGraphemeExtend c then codePointEscape c
  else if isPrintable c then [c]
  else codePointEscape c

/-- The text between quotation marks. -/
def quoteChars (s : List Char) : List Char :=
  '"' :: (s.flatMap (escape '"') ++ ['"'])

/-- The text between quotation marks, as messages show it. -/
def quote (s : String) : String :=
  String.ofList (quoteChars s.toList)

/-- One character between apostrophes; a grapheme extender stands for
itself only inside a text, so it is escaped here too. -/
def quoteChar (c : Char) : String :=
  String.ofList (['\x27'] ++ escape '\x27' c ++ ['\x27'])

end Provision.Text
