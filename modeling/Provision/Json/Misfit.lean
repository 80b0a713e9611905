/-
Provision.Json.Misfit — why a JSON value is not of the wanted type.
-/
import Provision.Json.Source
import Provision.EncodingError
import Provision.FixedBytes
import Provision.Decimal.Shortest

namespace Provision.Json

/-- What a value was found to be. -/
inductive Found where
  | boolean (b : Bool)
  | integer (n : Int)
  | real (x : Float)
  | string (s : String)
  | null
  | sequence
  | map

/-- What a message calls the value. -/
def Found.message : Found → String
  | .boolean b => "boolean `" ++ (if b then "true" else "false") ++ "`"
  | .integer n => "integer `" ++ Decimal.signedText n ++ "`"
  | .real x => "floating point `" ++ Decimal.FloatStyle.message.text x ++ "`"
  | .string s => "string " ++ Text.quote s
  | .null => "null"
  | .sequence => "sequence"
  | .map => "map"

/-- Why a value is not of the wanted type. -/
inductive Misfit where
  /-- A value of another type than this. -/
  | wrongType (found : Found) (expected : String)
  /-- An integer outside the range of this type. -/
  | wrongInteger (n : Int) (expected : String)
  /-- A member that an object has twice. -/
  | duplicateField (name : String)
  /-- A member that an object must have and has not. -/
  | missingField (name : String)
  /-- A name that is none of these. -/
  | unknownVariant (name : String) (known : List String)
  /-- An array of the wrong length for this. -/
  | wrongLength (length : Nat) (expected : String)
  /-- An object without any of the members that would say which choice it is. -/
  | noVariant (title : String)
  /-- A text that is not the bytes it should spell. -/
  | badBytes (fault : FixedBytes.TextFault)
  /-- A text that its type refuses. -/
  | refused (error : EncodingError)

/-- The names between backquotes, separated by commas. -/
def quotedNames (names : List String) : String :=
  String.intercalate ", " (names.map fun n => "`" ++ n ++ "`")

/-- What a message says about the misfit. -/
def Misfit.message : Misfit → String
  | .wrongType found expected => "invalid type: " ++ found.message ++ ", expected " ++ expected
  | .wrongInteger n expected =>
    "invalid value: integer `" ++ Decimal.signedText n ++ "`, expected " ++ expected
  | .duplicateField name => "duplicate field `" ++ name ++ "`"
  | .missingField name => "missing field `" ++ name ++ "`"
  | .unknownVariant name known =>
    "unknown variant `" ++ name ++ "`, expected one of " ++ quotedNames known
  | .wrongLength n expected => "invalid length " ++ Decimal.text n ++ ", expected " ++ expected
  | .noVariant title => "no variant of enum " ++ title ++ " found in flattened data"
  | .badBytes fault => fault.message
  | .refused error => error.message

/-- Why a text is not the description it should be. -/
inductive Failure where
  /-- It is no JSON. -/
  | fault (f : Fault)
  /-- It is JSON of another type. -/
  | misfit (m : Misfit)

end Provision.Json
