import ClassHost.Archive.Zip
import ClassHost.ClassPath.FileTree

/-!
# Class paths

A class path is a row of places where classes are looked for by binary name: directories, archives,
and classes given directly. The first entry that knows a name wins.

* `ClassPath.Entry.search` looks in one place. A directory is asked only for names whose segments
  stay below its root (`isRelativeName`).
* `ClassPath.Entry.ofPath` tells archives from directories by the extension of a path.
-/

namespace ClassHost

/-- Where a class file was found. -/
inductive Source where
  | directory (path : String)
  | archive (label : String)
  | memory (label : String)
  deriving Repr, DecidableEq

def Source.text : Source → String
  | directory path => path
  | archive label => "jar:" ++ label
  | memory label => "memory:" ++ label

/-- A class file that was found. -/
structure Located where
  source : Source
  bytes : Bytes
  deriving Repr, DecidableEq

/-- Finds class files by binary name. -/
abbrev Finder := String → Option Located

namespace ClassPath

/-- Names that lead below a root: segments between slashes are neither empty nor dots, and no
character is special to file systems. -/
def isRelativeName (name : String) : Bool :=
  !name.toList.any (fun c => c = '\\' || c = '\x00') &&
    (FilePath.segments name).all fun s => s ≠ "" && s ≠ "." && s ≠ ".."

/-- The file of a class below a root. -/
def classFilePath (root name : String) : String :=
  FilePath.join root (name ++ ".class")

/-- One place to look in. -/
inductive Entry where
  | directory (root : String)
  | archive (label : String) (content : Archive)
  | memory (classes : List (String × Bytes))

/-- Why a path cannot become an entry. -/
inductive EntryFault where
  | unreadable (path : String)
  | noArchive (label : String)
  deriving Repr, DecidableEq

def EntryFault.message : EntryFault → String
  | unreadable path => "reading " ++ path
  | noArchive label => "opening archive " ++ label

namespace Entry

/-- An archive held in memory. -/
def ofArchive (label : String) (bytes : Bytes) : Except EntryFault Entry :=
  match Archive.ofBytes? bytes with
  | some content => .ok (archive label content)
  | none => .error (.noArchive label)

/-- Paths that end in one of these are archives, in any mixture of case. -/
def archiveExtensions : List String := ["jar", "zip"]

/-- Lower case for the letters A to Z. -/
def lowerCase (text : String) : String := text.map Char.toLower

/-- Whether a path is taken for an archive. -/
def isArchivePath (path : String) : Bool :=
  match FilePath.extension? path with
  | some extension => archiveExtensions.contains (lowerCase extension)
  | none => false

/-- The entry for a path: an archive by its extension, a directory otherwise. Directories need not
exist. -/
def ofPath (files : FileSystem) (path : String) : Except EntryFault Entry :=
  if isArchivePath path then
    match files path with
    | some bytes => ofArchive path bytes
    | none => .error (.unreadable path)
  else .ok (directory path)

/-- Looks a binary name up in one place. -/
def search (files : FileSystem) : Entry → Finder
  | directory root, name =>
    if isRelativeName name then
      (files (classFilePath root name)).map fun bytes =>
        ⟨.directory (classFilePath root name), bytes⟩
    else none
  | archive label content, name =>
    (content.read? (name ++ ".class")).map fun bytes => ⟨.archive label, bytes⟩
  | memory classes, name =>
    (classes.lookup name).map fun bytes => ⟨.memory name, bytes⟩

end Entry

/-- Looks a binary name up in each place in turn. -/
def search (files : FileSystem) (entries : List Entry) : Finder := fun name =>
  entries.findSome? fun entry => entry.search files name

end ClassPath

end ClassHost
