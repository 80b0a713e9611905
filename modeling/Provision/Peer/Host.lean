/-
Provision.Peer.Host — the hosts a peer may be reached at.

A host is an IPv4 address, an IPv6 address in brackets, or a DNS name.
Peer addresses end up in lists separated by commas and in quoted
settings, so nothing else is let through. A text of four dotted numbers
that is no IPv4 address is still a DNS name if its labels are.
-/
import Provision.Decimal.Basic
import Provision.Hex
import Provision.Text.Cut

namespace Provision.Host

/-! ## IPv4 -/

/-- The digits of a number up to 255, without redundant zeros. -/
def isOctet (ds : List Char) : Bool :=
  ds ≠ [] && ds.length ≤ 3 && (ds.length = 1 || ds.head? ≠ some '0')
    && ds.all Char.isDigit && Decimal.value ds ≤ 255

/-- Reads an octet; returns what follows it. -/
def readOctet (s : List Char) : Option (List Char) :=
  if isOctet (s.takeWhile Char.isDigit) then some (s.dropWhile Char.isDigit) else none

/-- Reads so many octets, each after a dot. -/
def readDottedOctets : Nat → List Char → Option (List Char)
  | 0, s => some s
  | n + 1, '.' :: s => readOctet s >>= readDottedOctets n
  | _ + 1, _ => none

/-- Reads an IPv4 address; returns what follows it. -/
def readIPv4 (s : List Char) : Option (List Char) :=
  readOctet s >>= readDottedOctets 3

/-- Whether the text is an IPv4 address. -/
def isIPv4 (s : List Char) : Bool :=
  readIPv4 s = some []

/-! ## IPv6 -/

/-- Reads a group of one to four hexadecimal digits; returns what follows it. -/
def readGroup (s : List Char) : Option (List Char) :=
  let ds := s.takeWhile Hex.isDigit
  if ds ≠ [] ∧ ds.length ≤ 4 then some (s.dropWhile Hex.isDigit) else none

/-- Passes the colon that stands before every group but the first. -/
def passColon (first : Bool) (s : List Char) : Option (List Char) :=
  if first then some s
  else match s with
    | ':' :: rest => some rest
    | _ => none

/-- A run of groups that has been read. -/
structure Groups where
  /-- The number of groups; an IPv4 address counts for two. -/
  count : Nat
  /-- Whether an IPv4 address ends the run. -/
  endsInIPv4 : Bool
  /-- What follows the run. -/
  rest : List Char

/-- Reads at most `room` groups. An IPv4 address may stand for two. -/
def readGroups : (room : Nat) → (first : Bool) → List Char → Groups
  | 0, _, s => ⟨0, false, s⟩
  | room + 1, first, s =>
    match passColon first s with
    | none => ⟨0, false, s⟩
    | some r =>
      match if room = 0 then none else readIPv4 r with
      | some rest => ⟨2, true, rest⟩
      | none =>
        match readGroup r with
        | none => ⟨0, false, s⟩
        | some rest =>
          let more := readGroups room false rest
          ⟨more.count + 1, more.endsInIPv4, more.rest⟩

/-- Whether the text is an IPv6 address: eight groups, or fewer with one
`::` for at least one group of zeros. Only the last two groups may be
written as an IPv4 address. -/
def isIPv6 (s : List Char) : Bool :=
  let front := readGroups 8 true s
  if front.count = 8 then front.rest.isEmpty
  else if front.endsInIPv4 then false
  else match front.rest with
    | ':' :: ':' :: rest => (readGroups (7 - front.count) true rest).rest.isEmpty
    | _ => false

/-! ## DNS names -/

/-- A letter, a digit or a hyphen. -/
def isLabelChar (c : Char) : Bool :=
  c.isAlphanum || c == '-'

/-- Up to 63 letters, digits and hyphens, with no hyphen at the ends. -/
def isLabel (l : List Char) : Bool :=
  l ≠ [] && l.length ≤ 63 && l.head? ≠ some '-' && l.getLast? ≠ some '-' && l.all isLabelChar

/-- Labels separated by dots, up to 253 characters in all. -/
def isName (s : List Char) : Bool :=
  s.length ≤ 253 && (Text.pieces '.' s).all isLabel

/-! ## Hosts -/

/-- What stands between brackets. -/
def bracketed? : List Char → Option (List Char)
  | '[' :: rest => if rest.getLast? = some ']' then some rest.dropLast else none
  | _ => none

/-- Whether the text is a host. -/
def isHost (s : List Char) : Bool :=
  match bracketed? s with
  | some inner => isIPv6 inner
  | none => isIPv4 s || isName s

end Provision.Host
