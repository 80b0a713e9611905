/-
Provision.Fork — protocol upgrades and the blocks at which they activate.

A schedule gives every fork a block; only the DAO fork may be left out.
A schedule is in order when no fork is scheduled before the one that
precedes it; `violations` lists the neighbours that are not, and
`violations_eq_nil_iff` says that there are none exactly when the blocks
never decrease, be the two forks neighbours or not.
-/
import Provision.Decimal.Basic

namespace Provision

/-- The protocol upgrades, in the order in which they activate. -/
inductive Fork where
  | homestead
  | dao
  | eip150
  | eip155
  | eip158
  | byzantium
  | constantinople
  | petersburg
  | istanbul
  | muirGlacier
  | berlin
  | london
  | arrowGlacier
deriving DecidableEq, Repr

/-- The forks in activation order. -/
def Fork.all : List Fork :=
  [.homestead, .dao, .eip150, .eip155, .eip158,
   .byzantium, .constantinople, .petersburg, .istanbul, .muirGlacier,
   .berlin, .london, .arrowGlacier]

/-- The name of a fork. -/
def Fork.name : Fork → String
  | .homestead => "homestead"
  | .dao => "dao"
  | .eip150 => "eip150"
  | .eip155 => "eip155"
  | .eip158 => "eip158"
  | .byzantium => "byzantium"
  | .constantinople => "constantinople"
  | .petersburg => "petersburg"
  | .istanbul => "istanbul"
  | .muirGlacier => "muirGlacier"
  | .berlin => "berlin"
  | .london => "london"
  | .arrowGlacier => "arrowGlacier"

/-- The block at which each fork activates. -/
structure ForkSchedule where
  homestead : UInt64 := 0
  /-- The DAO fork is scheduled only on networks that opt in. -/
  dao : Option UInt64 := none
  eip150 : UInt64 := 0
  eip155 : UInt64 := 0
  eip158 : UInt64 := 0
  byzantium : UInt64 := 0
  constantinople : UInt64 := 0
  petersburg : UInt64 := 0
  istanbul : UInt64 := 0
  muirGlacier : UInt64 := 0
  berlin : UInt64 := 0
  london : UInt64 := 0
  arrowGlacier : UInt64 := 0
deriving DecidableEq, Repr

namespace ForkSchedule

/-- The block of a fork; none when it is not scheduled. -/
def block? (s : ForkSchedule) : Fork → Option UInt64
  | .homestead => some s.homestead
  | .dao => s.dao
  | .eip150 => some s.eip150
  | .eip155 => some s.eip155
  | .eip158 => some s.eip158
  | .byzantium => some s.byzantium
  | .constantinople => some s.constantinople
  | .petersburg => some s.petersburg
  | .istanbul => some s.istanbul
  | .muirGlacier => some s.muirGlacier
  | .berlin => some s.berlin
  | .london => some s.london
  | .arrowGlacier => some s.arrowGlacier

/-- The scheduled forks with their blocks, in activation order. -/
def ordered (s : ForkSchedule) : List (Fork × UInt64) :=
  Fork.all.filterMap fun f => (s.block? f).map fun b => (f, b)

/-! ## Order -/

/-- Two neighbouring forks of which the later has the smaller block. -/
structure Violation where
  earlier : Fork × UInt64
  later : Fork × UInt64
deriving DecidableEq, Repr

/-- The neighbours in a list of scheduled forks that are out of order. -/
def descents : List (Fork × UInt64) → List Violation
  | a :: b :: rest =>
    if b.2 < a.2 then ⟨a, b⟩ :: descents (b :: rest) else descents (b :: rest)
  | _ => []

/-- The neighbours in the schedule that are out of order. -/
def violations (s : ForkSchedule) : List Violation :=
  descents s.ordered

theorem descents_eq_nil_iff (l : List (Fork × UInt64)) :
    descents l = [] ↔ l.Pairwise fun a b => a.2 ≤ b.2 := by
  induction l with
  | nil => simp [descents]
  | cons a l ih =>
    cases l with
    | nil => simp [descents]
    | cons b rest =>
      rw [descents, List.pairwise_cons]
      split
      · rename_i h
        simp only [reduceCtorEq, false_iff, not_and]
        intro hall
        exact absurd (hall b List.mem_cons_self) (UInt64.not_le.mpr h)
      · rename_i h
        have hab : a.2 ≤ b.2 := UInt64.not_lt.mp h
        rw [ih]
        refine ⟨fun hp => ⟨fun c hc => ?_, hp⟩, fun hp => hp.2⟩
        rcases List.mem_cons.mp hc with rfl | hc
        · exact hab
        · exact UInt64.le_trans hab ((List.pairwise_cons.mp hp).1 c hc)

/-- **Order**: there are no violations exactly when the blocks never
decrease along the schedule. -/
theorem violations_eq_nil_iff (s : ForkSchedule) :
    s.violations = [] ↔ s.ordered.Pairwise fun a b => a.2 ≤ b.2 :=
  descents_eq_nil_iff s.ordered

/-! ## Messages -/

/-- What a message says about one violation. -/
def Violation.message (v : Violation) : String :=
  v.later.1.name ++ " (" ++ Decimal.text v.later.2.toNat ++ ") is before " ++
    v.earlier.1.name ++ " (" ++ Decimal.text v.earlier.2.toNat ++ ")"

/-- What a message says about all of them. -/
def violationsMessage (vs : List Violation) : String :=
  "fork schedule is out of order: " ++ String.intercalate ", " (vs.map Violation.message)

end ForkSchedule

end Provision
