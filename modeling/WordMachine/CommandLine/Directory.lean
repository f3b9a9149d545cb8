import WordMachine.CommandLine.Files
import WordMachine.CommandLine.Record

/-!
# Directories as values

A directory that holds files and no directories. A path is walked part by part from
the left, as far as it leads through directories: the directory itself, those above
it, and the topmost one. Of the places above only the files written there are known.
A file that is there may still be refused to a reader or a writer.
-/

namespace WordMachine.CommandLine

/-- Files by name. -/
structure Directory where
  files : List (String × Image)
  /-- Why the file with a name is not read. -/
  readRefusal? : String → Option FileError
  /-- Why the file with a name is not written. -/
  writeRefusal? : String → Option FileError
  /-- The line of a record in the log, with its line end. -/
  logLine : Record → String

/-- Where a path leads. -/
inductive Place
  | directory
  | file (name : String)
  /-- A name with a slash after it, which only a directory can have. -/
  | closed (name : String)
  deriving DecidableEq, Repr

namespace Directory

/-- A directory that refuses nothing. -/
def ofFiles (files : List (String × Image)) : Directory where
  files
  readRefusal? := fun _ => none
  writeRefusal? := fun _ => none
  logLine := fun record => record.message ++ "\n"

/-- The contents of a file. -/
def get? (directory : Directory) (name : String) : Option Image := directory.files.lookup name

/-- The directory with a file written, in place of one that had the name. -/
def put (directory : Directory) (name : String) (contents : Image) : Directory :=
  { directory with files := (name, contents) :: directory.files.filter (·.1 != name) }

theorem get?_put_self (directory : Directory) (name : String) (contents : Image) :
    (directory.put name contents).get? name = some contents := by
  simp [get?, put]

theorem get?_put_of_ne (directory : Directory) {name other : String} (contents : Image)
    (h : other ≠ name) : (directory.put name contents).get? other = directory.get? other := by
  have hother : (other == name) = false := by simpa using h
  simp only [get?, put, List.lookup_cons, hother]
  induction directory.files with
  | nil => rfl
  | cons file files ih =>
    obtain ⟨key, value⟩ := file
    by_cases hkey : key = name
    · simp [hkey, hother, ih, List.lookup_cons]
    · cases hsame : other == key <;> simp [hkey, hsame, ih, List.lookup_cons]

/-! ## Paths -/

/-- The bytes a name may have. -/
def nameLimit : Nat := 255

/-- The bytes a path may have. -/
def pathLimit : Nat := 4095

/-- The path of the topmost directory. -/
def top : String := "/"

/-- The path of the directory above the one with the path `base`. -/
def above (base : String) : String := if base = top then top else "../" ++ base

/-- Where the parts of a path lead from the directory with the path `base`. -/
def walk (directory : Directory) (base : String) : List String → Except FileError Place
  | [] => .ok .directory
  | part :: rest =>
    if part = "" ∨ part = "." then directory.walk base rest
    else if part = ".." then directory.walk (above base) rest
    else if rest ≠ [] ∧ rest.all (· == "") then .ok (.closed (base ++ part))
    else if part.utf8ByteSize > nameLimit then .error .nameTooLong
    else if rest = [] then .ok (.file (base ++ part))
    else if (directory.get? (base ++ part)).isSome then .error .notADirectory
    else .error .notFound

/-- The parts of a path between its slashes. -/
def parts (path : String) : List String := (path.toList.splitOn '/').map String.ofList

/-- Where a path leads. The empty path leads nowhere. -/
def place (directory : Directory) (path : String) : Except FileError Place :=
  if path = "" then .error .notFound
  else if path.utf8ByteSize > pathLimit then .error .nameTooLong
  else match parts path with
    | "" :: rest => directory.walk top rest
    | parts => directory.walk "" parts

/-- The contents of the file that a path leads to. -/
def readFile (directory : Directory) (path : String) : Except FileError Image :=
  match directory.place path with
  | .error error => .error error
  | .ok .directory => .error .isADirectory
  | .ok (.closed name) =>
    .error (if (directory.get? name).isSome then .notADirectory else .notFound)
  | .ok (.file name) =>
    match directory.get? name, directory.readRefusal? name with
    | none, _ => .error .notFound
    | some _, some error => .error error
    | some contents, none => .ok contents

/-- The name of the file that is written at a path. -/
def target (directory : Directory) (path : String) : Except FileError String :=
  match directory.place path with
  | .error error => .error error
  | .ok .directory => .error .isADirectory
  | .ok (.closed _) => .error .isADirectory
  | .ok (.file name) =>
    match directory.writeRefusal? name with
    | some error => .error error
    | none => .ok name

/-- Writes a file at a path. A refused write changes nothing. -/
def writeFile (directory : Directory) (path : String) (contents : Image) :
    Except FileError Unit × Directory :=
  match directory.target path with
  | .error error => (.error error, directory)
  | .ok name => (.ok (), directory.put name contents)

instance : Files (StateM Directory) where
  read path := fun directory => (directory.readFile path, directory)
  write path contents := fun directory => directory.writeFile path contents

instance : Log (StateM Directory) where
  line record := fun directory => (directory.logLine record, directory)

end Directory

end WordMachine.CommandLine
