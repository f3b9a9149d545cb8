import WordMachine.Image

/-!
# Files

What a run needs of the place its files are in: to read one by its path, and to
write one. Either can fail.
-/

namespace WordMachine.CommandLine

/-- Why a file cannot be read or written. -/
inductive FileError
  | notFound
  /-- The path goes on behind a file. -/
  | notADirectory
  /-- The path leads to a directory. -/
  | isADirectory
  | nameTooLong
  | refused (reason : String)
  deriving DecidableEq, Repr

/-- The wording of the reason. -/
def FileError.message : FileError → String
  | notFound => "No such file or directory (os error 2)"
  | notADirectory => "Not a directory (os error 20)"
  | isADirectory => "Is a directory (os error 21)"
  | nameTooLong => "File name too long (os error 36)"
  | refused reason => reason

/-- A place where files can be read and written by path. -/
class Files (m : Type → Type) where
  read : String → m (Except FileError Image)
  write : String → Image → m (Except FileError Unit)

end WordMachine.CommandLine
