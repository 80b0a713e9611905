/-
Provision.Cli.World — what the program may look at.

A command reads files and variables of the environment and nothing else.
`World.ofFiles` is a world in which the only files are those of one
directory, where the program runs.
-/
import Provision.Text.Cut

namespace Provision.Cli

/-- Why a file has no text. -/
inductive ReadFault where
  /-- There is no file of this name. -/
  | missing
  /-- A part of the path that should be a directory is a file. -/
  | notDirectory
  /-- The path is that of a directory. -/
  | directory
  /-- The path or a part of it is too long. -/
  | nameTooLong
  /-- The bytes of the file are not UTF-8. -/
  | notText
  /-- The system says something else. -/
  | other (message : String)
deriving DecidableEq, Repr

/-- What a message says about the fault. -/
def ReadFault.message : ReadFault → String
  | .missing => "No such file or directory (os error 2)"
  | .notDirectory => "Not a directory (os error 20)"
  | .directory => "Is a directory (os error 21)"
  | .nameTooLong => "File name too long (os error 36)"
  | .notText => "stream did not contain valid UTF-8"
  | .other message => message

/-- What the program may look at. -/
structure World where
  /-- The bytes of the file at a path. -/
  file : String → Except ReadFault ByteArray
  /-- The bytes of a variable of the environment, if it is set. -/
  setting? : String → Option ByteArray

namespace World

/-- The text of the file at a path. -/
def fileText (w : World) (path : String) : Except ReadFault String :=
  match w.file path with
  | .error fault => .error fault
  | .ok bytes =>
    match String.fromUTF8? bytes with
    | some text => .ok text
    | none => .error .notText

/-- The text of a variable, if it is set and has one. -/
def settingText? (w : World) (name : String) : Option String :=
  (w.setting? name).bind String.fromUTF8?

/-! ## A directory of files -/

/-- The files of a directory and of those below it, by the parts of their
paths. -/
abbrev Files := List (List (List Char) × ByteArray)

/-- Where a path leads to. -/
inductive Place where
  /-- To this directory or one below it. -/
  | inside (path : List (List Char))
  /-- To a directory above, of which nothing is known. -/
  | above
  /-- To a file. -/
  | file (bytes : ByteArray)

/-- The longest name of a file. -/
def nameLimit : Nat := 255

/-- One more than the length of the longest path. -/
def pathLimit : Nat := 4096

/-- The directory that holds a directory. -/
def Place.parent : Place → Place
  | .inside path => if path = [] then .above else .inside path.dropLast
  | place => place

/-- What has a name in a directory. -/
def lookUp (files : Files) (place : Place) (name : List Char) : Except ReadFault Place :=
  match place with
  | .file _ => .error .notDirectory
  | .above => .error .missing
  | .inside path =>
    let path := path ++ [name]
    match files.lookup path with
    | some bytes => .ok (.file bytes)
    | none =>
      if files.any fun f => path.isPrefixOf f.1 then .ok (.inside path) else .error .missing

/-- Goes one part of a path further. A name that is too long is no name
in any directory. -/
def step (files : Files) (place : Place) (part : List Char) : Except ReadFault Place :=
  match place with
  | .file _ => .error .notDirectory
  | place =>
    if part ∈ [[], ['.']] then .ok place
    else if part = ['.', '.'] then .ok place.parent
    else if nameLimit < (String.ofList part).utf8ByteSize then .error .nameTooLong
    else lookUp files place part

/-- Follows the parts of a path. -/
def follow (files : Files) : Place → List (List Char) → Except ReadFault Place
  | place, [] => .ok place
  | place, part :: parts => do
    let place ← step files place part
    follow files place parts

/-- The bytes of the file at a path, from the directory of the files on. -/
def readFile (files : Files) (path : String) : Except ReadFault ByteArray :=
  if path.isEmpty then .error .missing
  else if pathLimit ≤ path.utf8ByteSize then .error .nameTooLong
  else
    let start := if path.toList.head? = some '/' then Place.above else .inside []
    match follow files start (Text.pieces '/' path.toList) with
    | .ok (.file bytes) => .ok bytes
    | .ok _ => .error .directory
    | .error fault => .error fault

/-- The world of these files and variables. -/
def ofFiles (files settings : List (String × ByteArray)) : World where
  file := readFile (files.map fun f => (Text.pieces '/' f.1.toList, f.2))
  setting? := fun name => settings.lookup name

end World

end Provision.Cli
