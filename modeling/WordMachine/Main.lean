import WordMachine.CommandLine.Run

/-!
# The program

Runs the arguments on the files of the disk.
-/

namespace WordMachine.CommandLine

/-- The reason behind an error of the system. -/
def FileError.ofSystem : IO.Error → FileError
  | .noFileOrDirectory .. => .notFound
  | .inappropriateType _ 20 _ => .notADirectory
  | .inappropriateType _ 21 _ => .isADirectory
  | error => .refused (toString error)

instance : Files IO where
  read name := do
    try
      return .ok (← IO.FS.readBinFile name).toList
    catch error => return .error (.ofSystem error)
  write name contents := do
    try
      IO.FS.writeBinFile name ⟨contents.toArray⟩
      return .ok ()
    catch error => return .error (.ofSystem error)

/-- The lines of the log have no time in them. -/
instance : Log IO where
  line record := return record.message ++ "\n"

end WordMachine.CommandLine

/-- Runs the arguments, prints what there is to print, and exits. -/
def main (arguments : List String) : IO UInt32 := do
  let outcome ← WordMachine.CommandLine.run (m := IO) arguments
  IO.print outcome.stdout
  IO.eprint outcome.stderr
  return UInt32.ofNat outcome.exitCode
