import ShaderEffect.Path

namespace ShaderEffect

/-- What stands at a path. -/
inductive Files.Node where
  | file (content : String)
  | directory
deriving DecidableEq, Repr, Inhabited

/-- Why a path cannot be used. -/
inductive Files.Problem where
  | missing | isDirectory | notDirectory | nameTooLong | invalidName
deriving DecidableEq, Repr, Inhabited

/-- A tree of files: the content of each file by the names that lead to it, and the directories that
were made on their own. Every directory above a file exists too. -/
structure Files where
  entries : List (List String × String) := []
  directories : List (List String) := []
deriving Inhabited, Repr

namespace Files

/-- How a problem is reported. -/
def Problem.message : Problem → String
  | missing => "no such file or directory"
  | isDirectory => "is a directory"
  | notDirectory => "not a directory"
  | nameTooLong => "file name too long"
  | invalidName => "invalid argument"

/-- The number of bytes a name in a directory may have. -/
def nameLimit : Nat := 255

/-- The number of bytes from which on a path is too long. -/
def pathLimit : Nat := 4096

/-- The tree with the given files. -/
def ofList (files : List (String × String)) : Files :=
  { entries := files.map fun (path, content) => (Text.split '/' (Path.clean path), content) }

/-- Directories that always exist: the working directory, those above it, and the outermost one. -/
def alwaysExists (names : List String) : Bool :=
  names.all (fun name => name = "" || name = "..")

/-- What stands at the end of some names. -/
def node? (f : Files) (names : List String) : Option Node :=
  match f.entries.lookup names with
  | some content => some (.file content)
  | none =>
    let above (other : List String) : Bool := names.isPrefixOf other
    if alwaysExists names || f.entries.any (fun (path, _) => above path)
      || f.directories.any above then
      some .directory
    else none

/-- The place above another one. Nothing lies above the outermost directory. -/
def parent (place : List String) : List String :=
  if place = [""] then place
  else if alwaysExists place then place ++ [".."]
  else place.dropLast

/-- Follows the parts of a path from a place in the tree. -/
def follow (f : Files) (place : List String) : List String → Except Problem (List String)
  | [] => pure place
  | part :: rest =>
    match f.node? place with
    | none => throw .missing
    | some (.file _) => throw .notDirectory
    | some .directory =>
      if part = "" || part = "." then f.follow place rest
      else if part = ".." then f.follow (parent place) rest
      else if part.length > nameLimit then throw .nameTooLong
      else f.follow (place ++ [part]) rest

/-- The names a path leads along. The last name need not exist. -/
def locate (f : Files) (path : String) : Except Problem (List String) :=
  if path.toList.contains '\x00' then throw .invalidName
  else if path = "" then throw .missing
  else if path.length ≥ pathLimit then throw .nameTooLong
  else f.follow (if Text.startsWith "/" path then [""] else []) (Text.split '/' path)

/-- What a path leads to. -/
def get (f : Files) (path : String) : Except Problem Node := do
  match f.node? (← f.locate path) with
  | some n => pure n
  | none => throw .missing

/-- Whether something stands at a path. -/
def exists? (f : Files) (path : String) : Bool :=
  (f.get path).toBool

/-- The content of a file, or the message about why it cannot be read. -/
def read (f : Files) (path : String) : Except (Problem × String) String :=
  match f.get path with
  | .ok (.file content) => pure content
  | .ok .directory => throw (.isDirectory, s!"read {path}: is a directory")
  | .error e => throw (e, s!"open {path}: " ++ e.message)

/-- Makes the directory at a path whose parent exists. -/
def makeDirectory (f : Files) (path : String) : Except (Problem × String) Files :=
  match f.locate path with
  | .error e => throw (e, "mkdir " ++ path ++ ": " ++ e.message)
  | .ok names =>
    match f.node? names with
    | some .directory => pure f
    | some (.file _) =>
      throw (.notDirectory, "mkdir " ++ path ++ ": " ++ Problem.notDirectory.message)
    | none => pure { f with directories := f.directories ++ [names] }

/-- The paths to a place and to every directory above it, the outermost first. -/
def ancestors (path : String) : List String :=
  let names := Text.split '/' path
  ((List.range names.length).map fun n => Text.join "/" (names.take (n + 1))).filter (· ≠ "")

/-- Makes a directory and those above it. -/
def makeDirectories (f : Files) (path : String) : Except (Problem × String) Files :=
  (ancestors path).foldlM makeDirectory f

/-- Replaces the content at some names. -/
def put (names : List String) (content : String) :
    List (List String × String) → List (List String × String)
  | [] => [(names, content)]
  | (other, old) :: rest =>
    if other = names then (names, content) :: rest else (other, old) :: put names content rest

/-- Writes a file whose directory exists. -/
def write (f : Files) (path content : String) : Except (Problem × String) Files :=
  let refuse (e : Problem) : Except (Problem × String) Files :=
    throw (e, "open " ++ path ++ ": " ++ e.message)
  match f.locate path with
  | .error e => refuse e
  | .ok names =>
    if f.node? names = some .directory then refuse .isDirectory
    else if f.node? names.dropLast ≠ some .directory then refuse .missing
    else pure { f with entries := put names content f.entries }

/-- The files that are not the same in an earlier tree, sorted by path. -/
def changedSince (f before : Files) : List (String × String) :=
  let changed :=
  f.entries.filter fun (names, content) => before.entries.lookup names ≠ some content
  (changed.map fun (names, content) => (Text.join "/" names, content)).mergeSort
    fun a b => !(b.1 < a.1)

end Files
end ShaderEffect
