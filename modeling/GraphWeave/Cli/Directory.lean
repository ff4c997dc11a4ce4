/-!
The working directory of a command-line program: its files by relative path, with their contents. A
directory exists when a file lies under it, and the working directory always does.
-/

namespace GraphWeave.Cli

/-- Why a file cannot be written. -/
inductive WriteError where
  /-- A directory on the way does not exist, or the path is empty. -/
  | missing
  /-- A name on the way is a file. -/
  | notDirectory
  /-- The path names a directory. -/
  | isDirectory
  /-- Any other refusal of the system, in its words. -/
  | other (reason : String)
deriving DecidableEq, Repr, Inhabited

/-- The system's wording of a write error. -/
def WriteError.reason : WriteError → String
  | .missing => "no such file or directory"
  | .notDirectory => "not a directory"
  | .isDirectory => "is a directory"
  | .other reason => reason

/-- Files by relative path, names joined by `/`, in the order they were first written. -/
structure Directory where
  files : List (String × String) := []
deriving Repr, Inhabited

/-- Where a path leads. -/
inductive Target where
  /-- To a name in the working directory, given by the names on its path. -/
  | inside (names : List String)
  /-- Out of the working directory. -/
  | outside
  /-- To a directory, as a path ending in `/`, `.` or `..` does. -/
  | directory
deriving DecidableEq, Repr

namespace Directory

/-- The names on a stored path. -/
def namesOf (path : String) : List String := path.splitOn "/"

/-- Whether a file is stored under these names. -/
def isFile (d : Directory) (names : List String) : Bool :=
  d.files.any fun (p, _) => namesOf p == names

/-- Whether these names lead to a directory: the working directory, or one a file lies under. -/
def isDirectory (d : Directory) (names : List String) : Bool :=
  names.isEmpty || d.files.any fun (p, _) =>
    let ns := namesOf p
    names.length < ns.length && ns.take names.length == names

/-- Walks the names of a path from a directory. -/
def walk (d : Directory) : List String → List String → Except WriteError Target
  | _, [] => .ok .directory
  | here, [last] =>
    if last == "" || last == "." || last == ".." then .ok .directory
    else
      let names := here ++ [last]
      if d.isDirectory names then .error .isDirectory else .ok (.inside names)
  | here, name :: rest =>
    if name == "" || name == "." then walk d here rest
    else if name == ".." then
      if here.isEmpty then .ok .outside else walk d here.dropLast rest
    else
      let names := here ++ [name]
      if d.isFile names then .error .notDirectory
      else if d.isDirectory names then walk d names rest
      else .error .missing

/-- Where a path leads from the working directory. -/
def resolve (d : Directory) (path : String) : Except WriteError Target :=
  if path.isEmpty then .error .missing
  else if path.startsWith "/" then .ok .outside
  else walk d [] (namesOf path)

/-- Writes a file, replacing what it held. -/
def write (d : Directory) (path contents : String) : Except WriteError Directory := do
  match ← d.resolve path with
  | .outside => pure d
  | .directory => throw .isDirectory
  | .inside names =>
    let key := "/".intercalate names
    if d.files.any (·.1 == key) then
      pure { files := d.files.map fun (p, c) => if p == key then (p, contents) else (p, c) }
    else pure { files := d.files ++ [(key, contents)] }

end Directory

end GraphWeave.Cli
