import ClassHost.Bytes
import ClassHost.ClassPath.FilePath

/-!
# Files

A class path reads whole files by their path. `FileSystem` is that one operation; `FileTree` is a
file system given by its files and directories, below the working directory.
-/

namespace ClassHost

/-- The content of the regular file at a path, if there is one that can be read. -/
abbrev FileSystem := String → Option Bytes

/-- Files with their content, and directories that exist without one. -/
structure FileTree where
  entries : List (List String × Option Bytes)

namespace FileTree

/-- A directory is listed as such or holds something. -/
def isDirectory (tree : FileTree) (place : List String) : Bool :=
  place.isEmpty || tree.entries.any fun entry =>
    if entry.1 = place then entry.2.isNone else place.isPrefixOf entry.1

/-- The content of the file at a place; a file listed twice has the later content. -/
def content? (tree : FileTree) (place : List String) : Option Bytes :=
  match tree.entries.reverse.find? fun entry => entry.1 = place with
  | some entry => entry.2
  | none => none

/-- Follows segments from a place. Every place on the way has to be a directory, and nothing is
known above the working directory. -/
def walk (tree : FileTree) (place : List String) : List String → Option (List String)
  | [] => some place
  | segment :: rest =>
    if !tree.isDirectory place then none
    else if segment = "" ∨ segment = "." then tree.walk place rest
    else if segment = ".." then
      if place.isEmpty then none else tree.walk place.dropLast rest
    else tree.walk (place ++ [segment]) rest

/-- The file system of a tree. No absolute path leads into it. -/
def read (tree : FileTree) : FileSystem := fun path =>
  if path.isEmpty || path.toList.head? = some '/' then none
  else
    match tree.walk [] (FilePath.segments path) with
    | some place => tree.content? place
    | none => none

end FileTree

end ClassHost
