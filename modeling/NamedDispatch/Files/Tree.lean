/-
A tree of files below a working directory: how a path is followed, what creating directories and
writing files do to the tree, and what the file system may object to.
-/

namespace NamedDispatch

/-! ## Faults -/

/-- What the file system objects to. -/
inductive FileFault where
  | notFound
  | alreadyExists
  | notADirectory
  | isADirectory
deriving DecidableEq, Repr

/-- How an objection of the file system is worded. -/
def FileFault.message : FileFault → String
  | .notFound => "No such file or directory (os error 2)"
  | .alreadyExists => "File exists (os error 17)"
  | .notADirectory => "Not a directory (os error 20)"
  | .isADirectory => "Is a directory (os error 21)"

/-! ## Paths -/

namespace FilePath

/-- The parts of a path between its slashes, without the empty ones. -/
def parts (path : String) : List String := (path.splitOn "/").filter fun p => !p.isEmpty

/-- Whether a path ends in a slash and so asks for a directory. -/
def asksForDirectory (path : String) : Bool := path.toList.getLast? == some '/'

/-- The parts that lead to the directory a path lies in; `.` leads nowhere. -/
def parentParts (path : String) : List String := ((parts path).filter (· != ".")).dropLast

end FilePath

/-! ## Trees -/

/-- What stands at a place of a tree. -/
inductive FileEntry where
  | file (text : String)
  | directory
deriving DecidableEq, Repr

/-- The entries of a tree, each at the names that lead to it. The working directory itself is not
listed. -/
structure FileTree where
  entries : List (List String × FileEntry)

namespace FileTree

/-- A working directory with nothing in it. -/
def empty : FileTree := ⟨[]⟩

/-- What stands at a place; at the empty one it is the working directory itself. -/
def find? (t : FileTree) (place : List String) : Option FileEntry :=
  if place.isEmpty then some .directory else t.entries.lookup place

/-- Puts an entry at a place, instead of the one there. -/
def put (t : FileTree) (place : List String) (e : FileEntry) : FileTree :=
  ⟨(place, e) :: t.entries.filter fun old => old.1 != place⟩

/-- Follows parts from a directory to a directory. -/
def follow (t : FileTree) (place : List String) : List String → Except FileFault (List String)
  | [] => .ok place
  | part :: parts =>
    if part = "." then t.follow place parts
    else if part = ".." then t.follow place.dropLast parts
    else
      match t.find? (place ++ [part]) with
      | none => .error .notFound
      | some (.file _) => .error .notADirectory
      | some .directory => t.follow (place ++ [part]) parts

/-- Whether the parts lead to a directory from the working directory. -/
def isDirectory (t : FileTree) (parts : List String) : Bool := (t.follow [] parts).isOk

/-- A part that names no new entry. -/
def isDots (part : String) : Bool := part == "." || part == ".."

/-! ## Directories -/

/-- Creates the directory `name` in the one that `upper` leads to, which must be there. -/
def createDirectory (t : FileTree) (upper : List String) (name : String) :
    Except FileFault FileTree := do
  let place ← t.follow [] upper
  if isDots name || (t.find? (place ++ [name])).isSome then .error .alreadyExists
  else return t.put (place ++ [name]) .directory

/-- Creates the directory that the parts, given from the last to the first, lead to, and those above
it that are missing. One that exists is left as it is. -/
def createDirectories (t : FileTree) : List String → Except FileFault Unit × FileTree
  | [] => (.ok (), t)
  | name :: upper =>
    -- a directory that is there already is what was asked for, any other entry is in the way
    let settle (t : FileTree) (cause : FileFault) : Except FileFault Unit × FileTree :=
      (if t.isDirectory (upper.reverse ++ [name]) then .ok () else .error cause, t)
    match t.createDirectory upper.reverse name with
    | .ok t => (.ok (), t)
    | .error .notFound =>
      match t.createDirectories upper with
      | (.error cause, t) => (.error cause, t)
      | (.ok (), t) =>
        match t.createDirectory upper.reverse name with
        | .ok t => (.ok (), t)
        | .error cause => settle t cause
    | .error cause => settle t cause

/-! ## Files -/

/-- Writes a file, be it a new one or one that is replaced. -/
def writeFile (t : FileTree) (path text : String) : Except FileFault FileTree :=
  if path.isEmpty then .error .notFound
  else
    match (FilePath.parts path).reverse with
    | [] => .error .isADirectory
    | name :: upper => do
      let place ← t.follow [] upper.reverse
      if isDots name || FilePath.asksForDirectory path then .error .isADirectory
      else if t.find? (place ++ [name]) = some .directory then .error .isADirectory
      else return t.put (place ++ [name]) (.file text)

/-- Writes a file after creating the directories it lies in. Those stay when the file fails. -/
def writeWithParents (t : FileTree) (path text : String) : Except FileFault Unit × FileTree :=
  match t.createDirectories (FilePath.parentParts path).reverse with
  | (.error cause, t) => (.error cause, t)
  | (.ok (), t) =>
    match t.writeFile path text with
    | .ok t => (.ok (), t)
    | .error cause => (.error cause, t)

/-! ## Listing -/

/-- An entry as it is listed: its path, a directory's with a slash at the end, and a file's text. -/
def listed (e : List String × FileEntry) : String × Option String :=
  let path := "/".intercalate e.1
  match e.2 with
  | .file text => (path, some text)
  | .directory => (path ++ "/", none)

/-- Whether a place stands at or before another, by the first name in which they differ. -/
def placeLe : List String → List String → Bool
  | [], _ => true
  | _ :: _, [] => false
  | a :: as, b :: bs => a < b || (a == b && placeLe as bs)

/-- All entries, each directory before what it holds, sorted by name. -/
def listing (t : FileTree) : List (String × Option String) :=
  (t.entries.mergeSort fun a b => placeLe a.1 b.1).map listed

end FileTree

end NamedDispatch
