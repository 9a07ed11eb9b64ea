import Chip8.Text.Blank

/-!
# Files by their paths

A path leads through folders to a file or a folder. Its parts are cut by slashes; empty parts and
single dots lead nowhere, and two dots lead to the folder above. Here the only folder whose files
are known is the one where paths start. It lies somewhere below a root with the usual folders.

A part with too many bytes is not looked up, and neither is a path with too many.
-/

namespace Chip8.CommandLine

/-- What lies at a path. -/
inductive Entry where
  | file (bytes : List UInt8)
  | folder
  /-- The path is too long, or a part of it, to tell. -/
  | beyondReach
  deriving DecidableEq, Repr

/-- The parts of a path. -/
def pathParts (path : List Char) : List (List Char) :=
  (Text.pieces '/' path).filter fun p => !p.isEmpty && p != ['.']

/-- The part of a path that leads to the folder above. -/
def above : List Char := ['.', '.']

/-- The number of bytes of a text. -/
def byteCount (text : List Char) : Nat := (String.ofList text).utf8ByteSize

/-- The largest number of bytes of a part. -/
def longestPart : Nat := 255

/-- The largest number of bytes of a path, without the parts that lead nowhere. -/
def longestPath : Nat := 4095

/-- A file by the parts of its path from the starting folder. -/
abbrev FileTable := List (List (List Char) × List UInt8)

/-- Follows the parts of a path from a folder, given by its own parts, or from a folder that
nothing is known about. -/
def follow (files : FileTable) : Option (List (List Char)) → List (List Char) → Option Entry
  | _, [] => some .folder
  | none, p :: rest =>
    if p = above then follow files none rest
    else if longestPart < byteCount p then some .beyondReach
    else none
  | some here, p :: rest =>
    if p = above then follow files (if here.isEmpty then none else some here.dropLast) rest
    else if longestPart < byteCount p then some .beyondReach
    else
      let there := here ++ [p]
      match files.lookup there with
      | some bytes => if rest.isEmpty then some (.file bytes) else none
      | none => if files.any (there.isPrefixOf ·.1) then follow files (some there) rest else none

/-- The folders at the root. -/
def rootFolders : List (List Char) :=
  ["bin", "boot", "dev", "etc", "home", "lib", "media", "mnt", "opt", "proc", "root", "run", "sbin",
    "srv", "sys", "tmp", "usr", "var"].map String.toList

/-- What the parts of a path lead to from the root. The null device is an empty file. -/
def followFromRoot (parts : List (List Char)) : Option Entry :=
  match parts.dropWhile (· == above) with
  | [p] => if rootFolders.contains p then some .folder else follow [] none [p]
  | [p, q] =>
    if p = "dev".toList ∧ q = "null".toList then some (.file [])
    else follow [] none [p, q]
  | parts => follow [] none parts

/-- What lies at a path in a folder with the given files. A path with a null character in it leads
nowhere. -/
def lookup (files : List (String × List UInt8)) (path : String) : Option Entry :=
  let cs := path.toList
  let parts := pathParts cs
  let isRooted := cs.head? == some '/'
  if cs.contains '\x00' then none
  else if longestPath < byteCount ((if isRooted then ['/'] else []) ++ Text.joined '/' parts) then
    some .beyondReach
  else if isRooted then followFromRoot parts
  else follow (files.map fun (name, bytes) => (pathParts name.toList, bytes)) (some []) parts

end Chip8.CommandLine
