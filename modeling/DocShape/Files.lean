import DocShape.Text
import DocShape.Text.Classes

/-!
# File names and files

A file name is directories and a last part between slashes; empty parts and `.` do not count
(`FileName.normal`). `Files` holds the contents of the files that are known, absolute or relative to
the current directory, and `Files.lookup` finds them by any of their names.
-/

namespace DocShape

namespace FileName

/-- What an absolute file name begins with: a slash, or exactly two. -/
def root (path : Text) : Text :=
  match (path.takeWhile fun c : CodePoint => c == '/').length with
  | 0 => ""
  | 2 => "//"
  | _ => "/"

/-- The names between slashes, without empty ones and `.`. -/
def names (path : Text) : List Text :=
  (Text.splitOn '/' path).filter fun part => !(part.isEmpty || part == Text.ofString ".")

/-- The parts of a file name: its root, if it is absolute, and its names. -/
def parts (path : Text) : List Text := [root path].filter (!·.isEmpty) ++ names path

/-- The shortest spelling of a file name that keeps its parts. -/
def normal (path : Text) : Text :=
  let name := root path ++ Text.join "/" (names path)
  if name.isEmpty then "." else name

/-- The part of the last name from its last point on; a point at either end of the name begins
none. -/
def suffix (path : Text) : Text :=
  let name := (names path).getLastD []
  let after := (name.reverse.takeWhile fun c : CodePoint => c ≠ '.').reverse
  let before := name.length - after.length
  if 1 < before ∧ !after.isEmpty then CodePoint.ofChar '.' :: after else []

end FileName

/-- What a file name leads to. -/
inductive Located where
  | file (content : List UInt8)
  | directory
  | missing
deriving DecidableEq, Repr

/-- The files that are known, by their names, and further directories. -/
structure Files where
  entries : List (Text × List UInt8)
  directories : List Text

namespace Files

/-- What the parts of a name lead to. -/
def atParts (files : Files) (parts : List Text) : Located :=
  match files.entries.find? fun e => FileName.parts e.1 = parts with
  | some e => .file e.2
  | none =>
    let isAbove (path : Text) : Bool := parts.isPrefixOf (FileName.parts path)
    if parts.isEmpty || files.entries.any (isAbove ·.1) || files.directories.any isAbove then
      .directory
    else .missing

/-- The parts of a name without `..`, given the parts before them; none where `..` does not follow a
directory that is known. -/
def resolve (files : Files) : (before : List Text) → List Text → Option (List Text)
  | before, [] => some before
  | before, part :: rest =>
    if part = ".." then
      if before.isEmpty ∨ files.atParts before ≠ .directory then none
      else resolve files before.dropLast rest
    else resolve files (before ++ [part]) rest

/-- What a name leads to. -/
def lookup (files : Files) (path : Text) : Located :=
  match files.resolve [] (FileName.parts path) with
  | some parts => files.atParts parts
  | none => .missing

end Files

end DocShape
