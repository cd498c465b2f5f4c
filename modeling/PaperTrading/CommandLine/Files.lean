import PaperTrading.Failure
import PaperTrading.Table

/-!
# Files

The program runs in a directory of its own and can read some files below it.  A path is followed part
by part, so that what is wrong with it is found at the first part that leads nowhere.

* `Files`: the texts of files, by path.
* `normalPath`: a path as it is written in messages.
* `Files.look`: what is found at a path.
* `Files.read`, `Files.read?`: the text of a file that has to be there, or that may be missing.
-/

namespace PaperTrading.CommandLine

/-- **The files that can be read,** by path. -/
abbrev Files := Table String

/-! ### Paths -/

/-- The parts of a path that matter. -/
def pathParts (path : String) : List String :=
  ((path.toList.splitOn '/').map String.ofList).filter fun part => part ≠ "" ∧ part ≠ "."

/-- The slashes that a path starts with, as far as they matter: two are not one, but three are. -/
def pathRoot (path : String) : String :=
  match path.toList with
  | '/' :: '/' :: '/' :: _ => "/"
  | '/' :: '/' :: _ => "//"
  | '/' :: _ => "/"
  | _ => ""

/-- **A path without the parts that do not matter.** -/
def normalPath (path : String) : String :=
  let whole := pathRoot path ++ "/".intercalate (pathParts path)
  if whole.isEmpty then "." else whole

/-- The longest name that a part of a path may be, in bytes of UTF-8. -/
def nameLimit : Nat := 255

/-- The longest path, in bytes of UTF-8. -/
def pathLimit : Nat := 4095

/-! ### Directories -/

/-- A directory: one below the current one, one of the whole system, or one around the current one. -/
inductive Directory where
  | inner (parts : List String)
  | system (parts : List String)
  | outer
  deriving DecidableEq, Repr

/-- **What is found at a path.** -/
inductive Found where
  | file (text : String)
  | directory (d : Directory)
  | missing
  /-- A file stands where the path needs a directory. -/
  | blocked
  | tooLong
  deriving DecidableEq, Repr

/-- The directories that every system has. -/
def systemDirectories : List String :=
  ["bin", "boot", "dev", "etc", "home", "lib", "lib64", "media", "mnt", "opt", "proc", "root", "run",
    "sbin", "srv", "sys", "tmp", "usr", "var"]

namespace Directory

/-- The directory around a directory. -/
def parent : Directory → Directory
  | inner [] | outer => outer
  | inner parts => inner parts.dropLast
  | system parts => system parts.dropLast

/-- What a name stands for in a directory below the current one; a directory is there if a file is in
it. -/
def innerChild (files : Files) (parts : List String) : Found :=
  match files.entries.find? fun f => pathParts f.1 == parts with
  | some f => .file f.2
  | none =>
    if files.keys.any fun key => parts.isPrefixOf (pathParts key) then .directory (inner parts)
    else .missing

/-- What a name stands for in a directory of the system, of which little is known. -/
def systemChild : List String → Found
  | [name] => if systemDirectories.contains name then .directory (system [name]) else .missing
  | ["dev", "null"] => .file ""
  | _ => .missing

/-- What a name stands for in a directory. -/
def child (files : Files) (d : Directory) (name : String) : Found :=
  match d with
  | inner parts => innerChild files (parts ++ [name])
  | system parts => systemChild (parts ++ [name])
  | outer => .missing

end Directory

/-- **One part further.** -/
def Found.step (files : Files) (found : Found) (name : String) : Found :=
  match found with
  | .directory d =>
    if name = ".." then .directory d.parent
    else if nameLimit < name.utf8ByteSize then .tooLong
    else d.child files name
  | .file _ => .blocked
  | found => found

namespace Files

/-- What is found by following a path from the current directory, or from the root. -/
def follow (files : Files) (path : String) : Found :=
  let start : Directory := if pathRoot path = "" then .inner [] else .system []
  if pathLimit < (normalPath path).utf8ByteSize then .tooLong
  else (pathParts path).foldl (Found.step files) (.directory start)

/-- **What is found at a path.** -/
def look (files : Files) (path : String) : Found :=
  match files.entries.find? fun f => normalPath f.1 == normalPath path with
  | some f => .file f.2
  | none => files.follow path

/-- The text that was found at a path. -/
def textOf (path : String) : Found → Except Failure String
  | .file text => .ok text
  | .directory _ => .error (.isDirectory (normalPath path))
  | .blocked => .error (.notDirectory (normalPath path))
  | .missing => .error (.fileNotFound (normalPath path))
  | .tooLong => .error (.nameTooLong (normalPath path))

/-- The path holds a null character, which no path can. -/
def isImpossible (path : String) : Bool := path.toList.contains '\x00'

/-- **The text of a file that has to be there.** -/
def read (files : Files) (path : String) : Except Failure String :=
  if isImpossible path then .error .nullCharacter else textOf path (files.look path)

/-- **The text of a file that may be missing.** -/
def read? (files : Files) (path : String) : Except Failure (Option String) :=
  if isImpossible path then .ok none
  else match files.look path with
    | .missing | .blocked => .ok none
    | found => (textOf path found).map some

end Files

example : let files : Files := ⟨[("a/b", "x")]⟩
    files.look "./a//b/" = .file "x" ∧ files.look "a/../a" = .directory (.inner ["a"])
    ∧ files.look "a/b/.." = .blocked ∧ files.look "c/../a/b" = .missing
    ∧ files.look "../.." = .directory .outer ∧ normalPath "//a/./b" = "//a/b" := by decide +kernel

end PaperTrading.CommandLine
