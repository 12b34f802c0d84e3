set_option autoImplicit false

/-!
# What a path names

Specification: section 10.10 (a file that is missing or does not exist).

An entry is what stands at a path.  A folder here is a list of files with their paths
below it; looking a path up follows its parts from the folder on.  What lies above the
folder is known to exist and nothing else: there are folders, and no names in them.
-/

namespace Quadrupler

/-- What stands at a path. -/
inductive Entry where
  | absent
  | folder
  | file (bytes : ByteArray)
  /-- something that cannot be read, and why -/
  | unreadable (reason : String)

namespace Folder

/-- A path as its parts. -/
abbrev Path := List String

/-- The parts of a path, without those that stay where they are. -/
def parts (path : String) : Path :=
  (path.splitOn "/").filter fun part => part ≠ "" ∧ part ≠ "."

end Folder

/-- Files with their paths below the folder, those written last first. -/
structure Folder where
  files : List (Folder.Path × ByteArray)

namespace Folder

/-- A folder without files. -/
def empty : Folder := ⟨[]⟩

/-- Writes a file, with the folders that its path needs. -/
def write (folder : Folder) (path : String) (bytes : ByteArray) : Folder :=
  ⟨(parts path, bytes) :: folder.files⟩

/-- The path leads to a file from somewhere above it. -/
def holds (folder : Folder) (path : Path) : Bool :=
  folder.files.any fun (file, _) => path.isPrefixOf file

/-- Where following a path has come to. -/
inductive Place where
  /-- this far down in the folder -/
  | below (path : Path)
  /-- somewhere above it -/
  | above

/-- What stands at a path that goes on from a place. -/
def follow (folder : Folder) : Place → List String → Entry
  | _, [] => .folder
  | .above, part :: others =>
    if part ∈ ["", ".", ".."] then folder.follow .above others else .absent
  | .below path, part :: others =>
    if part ∈ ["", "."] then
      folder.follow (.below path) others
    else if part = ".." then
      folder.follow (if path.isEmpty then .above else .below path.dropLast) others
    else
      match folder.files.lookup (path ++ [part]) with
      | some bytes => if others.isEmpty then .file bytes else .absent
      | none =>
        if folder.holds (path ++ [part]) then
          folder.follow (.below (path ++ [part])) others
        else
          .absent

/-- What stands at a path that starts from the folder, or from the root of all folders. -/
def entry (folder : Folder) (path : String) : Entry :=
  if path = "" then .absent
  else
    folder.follow (if path.toList.head? = some '/' then .above else .below []) (path.splitOn "/")

end Folder

end Quadrupler
