import FingerTracking.Files

/-!
File trees: what lies below the working directory.

`Tree.look` follows a path name by name, as an operating system does: through directories only,
and with a fault that says what stopped it. Of what lies above the working directory nothing is
known but that it is there.
-/

namespace FingerTracking

structure Tree where
  /-- The files by their paths; directories are there as far as files need them. -/
  entries : List (String × Medium)
deriving DecidableEq

namespace Tree

/-- The most bytes of one name in a path. -/
def mostNameBytes : Nat := 255

/-- A path has fewer bytes than this. -/
def pathBytes : Nat := 4096

/-- The names of a path, the empty ones included. -/
def names (path : String) : List String :=
  path.splitOn "/"

/-- The path of a file without what leads nowhere. -/
def plainNames (path : String) : List String :=
  (names path).filter fun n => n != "" && n != "."

/-- A directory on the way. -/
inductive Place where
  /-- At these names from the working directory. -/
  | inside (below : List String)
  | outside

def Place.parent : Place → Place
  | inside [] | outside => outside
  | inside (n :: ns) => inside (n :: ns).dropLast

/-- The file at these names from the working directory. -/
def find? (t : Tree) (below : List String) : Option Medium :=
  (t.entries.find? fun e => plainNames e.1 == below).map (·.2)

/-- There are files below these names. -/
def isDirectory (t : Tree) (below : List String) : Bool :=
  t.entries.any fun e => (plainNames e.1).take below.length == below

def walk (t : Tree) : Place → List String → Except IoFault Medium
  | _, [] => .ok .directory
  | place, n :: rest =>
    if n = "" ∨ n = "." then t.walk place rest
    else if n = ".." then t.walk place.parent rest
    else if mostNameBytes < n.utf8ByteSize then .error .nameTooLong
    else
      match place with
      | .outside => .error .notFound
      | .inside below =>
        let here := below ++ [n]
        match t.find? here with
        | some medium => if rest.isEmpty then .ok medium else .error .notDirectory
        | none => if t.isDirectory here then t.walk (.inside here) rest else .error .notFound

/-- What stands at a path. -/
def look (t : Tree) (path : String) : Except IoFault Medium :=
  if path.toList.contains '\x00' then .error .nulInPath
  else if path = "" then .error .notFound
  else if pathBytes ≤ path.utf8ByteSize then .error .nameTooLong
  else if path.toList.head? = some '/' then t.walk .outside (names path)
  else t.walk (.inside []) (names path)

/-- The tree as files to look at. -/
def files (t : Tree) : Files :=
  ⟨t.look⟩

end Tree

end FingerTracking
