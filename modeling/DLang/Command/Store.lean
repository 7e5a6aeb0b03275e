import DLang.Command.Path

/-!
# Files and directories

A store holds files and directories by their location, the list of the components below the working
directory.  The working directory itself has the empty location, the directories above it are
reached by double dots, and the root by a slash.  Of what lies outside the working directory the
store knows only that these directories exist.

A path is followed component by component, and every one but the last must lead to a directory.  The
last one names a file, unless it is made of dots or a slash follows it.

There are no links: a location is the only way to its file, so writing at one location changes no
file at another.
-/

namespace DLang

/-- A place, as the way to it from the working directory. -/
abbrev Location := List String

namespace Location

/-- The root. -/
def root : Location :=
  ["/"]

/-- The directory above a place.  The root is above itself. -/
def above (location : Location) : Location :=
  match location.getLast? with
  | none | some ".." => location ++ [".."]
  | some "/" => location
  | some _ => location.dropLast

/-- Whether a place is the working directory or lies below it. -/
def isInside (location : Location) : Bool :=
  location.head? ≠ some ".." && location.head? ≠ some "/"

end Location

/-- Why a file cannot be read or written. -/
inductive FileError where
  | notFound
  | notDirectory
  | isDirectory
  | nameTooLong
  deriving DecidableEq, Repr

/-- The message of a file error. -/
def FileError.message : FileError → String
  | notFound => "No such file or directory (os error 2)"
  | notDirectory => "Not a directory (os error 20)"
  | isDirectory => "Is a directory (os error 21)"
  | nameTooLong => "File name too long (os error 36)"

/-- The most bytes that one component of a path may have. -/
def nameLimit : Nat :=
  255

/-- The most bytes that a whole path may have. -/
def pathLimit : Nat :=
  4095

/-- What a path leads to, as far as its form tells. -/
inductive Place where
  /-- A directory. -/
  | directory
  /-- The entry of a directory, which may be there or not. -/
  | entry (directory : Location) (name : String)
  deriving DecidableEq, Repr

/-- Files with their contents, and the directories below the working directory. -/
structure Store where
  directories : List Location
  files : List (Location × String)
  deriving DecidableEq, Repr

namespace Store

/-- The store of an empty working directory. -/
def empty : Store :=
  { directories := [], files := [] }

/-- The content of the file at a location. -/
def content? (store : Store) (location : Location) : Option String :=
  (store.files.find? fun file => file.1 == location).map Prod.snd

/-- Whether a location is that of a directory. -/
def isDirectory (store : Store) (location : Location) : Bool :=
  location.all (· = "..") || location == .root || store.directories.contains location

/-- Puts a file at a location, in place of one that is there. -/
def put (store : Store) (location : Location) (content : String) : Store :=
  { store with files := (location, content) :: store.files.filter fun file => file.1 != location }

/-- A file is found where it was put. -/
theorem content?_put_self (store : Store) (location : Location) (content : String) :
    (store.put location content).content? location = some content := by
  simp [put, content?]

/-- Putting a file changes no other file. -/
theorem content?_put_of_ne (store : Store) {location other : Location} (content : String)
    (h : other ≠ location) :
    (store.put location content).content? other = store.content? other := by
  have hne : (location == other) = false := by simpa using h.symm
  simp only [put, content?, List.find?_cons, hne]
  rw [List.find?_filter]
  congr 2
  funext file
  by_cases hfile : file.1 = other
  · simp [hfile, h]
  · simp [hfile]

/-- Goes from a directory to the one that a component names there. -/
def enter (store : Store) (directory : Location) (name : String) : Except FileError Location :=
  if name = "." then .ok directory
  else if name = ".." then .ok directory.above
  else if nameLimit < name.utf8ByteSize then .error .nameTooLong
  else if store.isDirectory (directory ++ [name]) then .ok (directory ++ [name])
  else if (store.content? (directory ++ [name])).isSome then .error .notDirectory
  else .error .notFound

/-- Follows a path up to its last component. -/
def locate (store : Store) (path : String) : Except FileError Place := do
  if path = "" then .error .notFound
  else if pathLimit < path.utf8ByteSize then .error .nameTooLong
  else
    let start : Location := if Path.isAbsolute path then .root else []
    let directory ← (Path.components path).dropLast.foldlM store.enter start
    match (Path.components path).getLast? with
    | none | some "." | some ".." => return .directory
    | some name => return .entry directory name

/-- Reads the file that a path leads to. -/
def read (store : Store) (path : String) : Except FileError String := do
  match ← store.locate path with
  | .directory => .error .isDirectory
  | .entry directory name =>
    if nameLimit < name.utf8ByteSize then .error .nameTooLong
    else if store.isDirectory (directory ++ [name]) then .error .isDirectory
    else
      match store.content? (directory ++ [name]) with
      | none => .error .notFound
      | some content => if Path.endsInSlash path then .error .notDirectory else .ok content

/-- Writes a file at the place that a path leads to. -/
def write (store : Store) (path content : String) : Except FileError Store := do
  match ← store.locate path with
  | .directory => .error .isDirectory
  | .entry directory name =>
    if Path.endsInSlash path then .error .isDirectory
    else if nameLimit < name.utf8ByteSize then .error .nameTooLong
    else if store.isDirectory (directory ++ [name]) then .error .isDirectory
    else .ok (store.put (directory ++ [name]) content)

/-- Makes the directories that components name, each in the one before. -/
def makeDirectories (store : Store) (directory : Location) : List String → Store
  | [] => store
  | "." :: rest => store.makeDirectories directory rest
  | ".." :: rest => store.makeDirectories directory.above rest
  | name :: rest =>
    { store with directories := (directory ++ [name]) :: store.directories }.makeDirectories
      (directory ++ [name]) rest

/-- The store in which one file stands at a path, with the directories that lead to it. -/
def single (path content : String) : Store :=
  let start : Location := if Path.isAbsolute path then .root else []
  let store := empty.makeDirectories start (Path.components path).dropLast
  match store.write path content with
  | .ok store' => store'
  | .error _ => store

/-- The files in the working directory and below. -/
def filesInside (store : Store) : List (Location × String) :=
  store.files.filter fun file => file.1.isInside

end Store

end DLang
