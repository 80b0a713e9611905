/-
Provision.Build — the identity of a build of the program.
-/

namespace Provision

/-- A program, its version, and the commit it was built from, if known. -/
structure Build where
  name : String
  version : String
  commit : Option String := none
deriving DecidableEq, Repr

namespace Build

/-- The text of a build. -/
def text (b : Build) : String :=
  b.name ++ "/v" ++ b.version ++ "-" ++ b.commit.getD "unknown"

/-- This program. -/
def current : Build where
  name := "eth-clients"
  version := "0.0.1"

end Build

end Provision
