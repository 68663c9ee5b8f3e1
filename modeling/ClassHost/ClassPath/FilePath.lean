/-!
# Paths

Paths are texts with `/` between their segments. `join` puts a relative name behind a root,
`extension?` is the part of the last segment behind its last dot, and `segments` splits a path.
-/

namespace ClassHost.FilePath

/-- The parts between slashes. -/
def segments (path : String) : List String :=
  path.splitOn "/"

/-- A relative name behind a root. An empty root, or one that ends in a slash, needs no other. -/
def join (root name : String) : String :=
  if root.isEmpty || root.toList.getLast? = some '/' then root ++ name else root ++ "/" ++ name

/-- The last segment that names something; none if that is the parent of what is in front. -/
def fileName? (path : String) : Option String :=
  match ((segments path).filter fun s => s ≠ "" ∧ s ≠ ".").getLast? with
  | some name => if name = ".." then none else some name
  | none => none

/-- What follows the last dot of the file name. A dot in front of everything starts no
extension. -/
def extension? (path : String) : Option String :=
  match fileName? path with
  | none => none
  | some name =>
    let reversed := name.toList.reverse
    match reversed.dropWhile (· ≠ '.') with
    | [] | [_] => none
    | _ :: _ :: _ => some (String.ofList (reversed.takeWhile (· ≠ '.')).reverse)

end ClassHost.FilePath
