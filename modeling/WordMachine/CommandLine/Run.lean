import WordMachine.Assembly.Program
import WordMachine.CommandLine.Arguments
import WordMachine.CommandLine.Directory
import WordMachine.Text.Lines

/-!
# Running a command

A run reads one file, and `asm` writes one, as its last act. It is written over any
place that files can be read from and written to and that has a log, so a run on a
directory kept as a value is the same run as one on a disk.
-/

namespace WordMachine.CommandLine

/-! ## Failures -/

/-- Why a run fails. -/
inductive Failure
  | read (path : String) (cause : FileError)
  /-- The file is not text in UTF-8. -/
  | notText (path : String)
  | assembly (path : String) (cause : Assembly.ProgramError)
  | write (path : String) (cause : FileError)
  deriving DecidableEq, Repr

namespace Failure

/-- What the run was about to do. -/
def context : Failure → String
  | read path _ => "failed to read " ++ path
  | notText path => "failed to read " ++ path
  | assembly path _ => "failed to assemble " ++ path
  | write path _ => "failed to write " ++ path

/-- What went wrong, each cause before its own cause. -/
def causes : Failure → List String
  | read _ cause => [cause.message]
  | notText _ => ["stream did not contain valid UTF-8"]
  | assembly _ cause => [cause.message, cause.cause.message]
  | write _ cause => [cause.message]

/-- The causes as lines. They are numbered if there are several. -/
def causeLines : List String → List String
  | [cause] => ["    " ++ cause]
  | causes => causes.mapIdx fun number cause => "    " ++ Numeral.decimal number ++ ": " ++ cause

/-- What is recorded of the failure. -/
def records : Failure → List Record
  | assembly _ cause => [.unassembled cause]
  | read _ _ | notText _ | write _ _ => []

/-- The report on a failed run. -/
def report (failure : Failure) : String :=
  Text.unlines (["Error: " ++ failure.context, "", "Caused by:"] ++ causeLines failure.causes)

end Failure

/-! ## Runs -/

/-- The text in a file, if it is text in UTF-8. -/
def textOf? (contents : Image) : Option String := String.fromUTF8? ⟨contents.toArray⟩

/-- The image of the listing in a file. -/
def assembleContents (input : String) (contents : Image) : Except Failure Image :=
  match textOf? contents with
  | none => .error (.notText input)
  | some text => (Assembly.assembleProgram text).mapError (.assembly input)

/-- The text that answers a request for help. -/
def helpText : String :=
  Text.unlines
    ["Disassembler, lifter and assembler for program images", "",
      "disasm IMAGE [--start=ADDRESS] [--count=COUNT]   prints a table of the instructions",
      "lift IMAGE [--start=ADDRESS] [--count=COUNT]     prints what each instruction does",
      "asm LISTING -o IMAGE                             assembles a listing"]

/-- The text that answers a request for the version. -/
def versionText : String := Text.unlines ["synacor 0.1.0"]

/-- How a command ends: with what it prints, or with the reason why it fails. In either case with
the records that it has made on its way. -/
structure Ending where
  result : Except Failure String
  records : List Record

/-- Carries out a command. -/
def Command.run {m : Type → Type} [Monad m] [Files m] (command : Command) : m Ending := do
  match command with
  | .help => return ⟨.ok helpText, []⟩
  | .version => return ⟨.ok versionText, []⟩
  | .disassemble input range =>
    match ← Files.read input with
    | .error error => return ⟨.error (.read input error), []⟩
    | .ok image =>
      return ⟨.ok (Text.unlines (disassemblyLines image range)),
        (range.items image).flatMap sweepRecords⟩
  | .lift input range =>
    match ← Files.read input with
    | .error error => return ⟨.error (.read input error), []⟩
    | .ok image =>
      return ⟨.ok (Text.unlines (liftingLines image range)),
        (range.items image).flatMap liftingRecords⟩
  | .assemble input output =>
    match ← Files.read input with
    | .error error => return ⟨.error (.read input error), []⟩
    | .ok contents =>
      match assembleContents input contents with
      | .error failure => return ⟨.error failure, failure.records⟩
      | .ok image =>
        match ← Files.write output image with
        | .error error => return ⟨.error (.write output error), []⟩
        | .ok () => return ⟨.ok "", [.written image.length output]⟩

/-- What a run leaves behind for its caller. -/
structure Outcome where
  exitCode : Nat
  stdout : String
  stderr : String
  deriving DecidableEq, Repr

/-- The outcome of arguments that ask for nothing. The usage of the command, which stands in front
of the last line, is left out. -/
def Outcome.ofUsageError : UsageError → Outcome
  | .nothing => ⟨2, "", helpText⟩
  | error =>
    ⟨2, "", Text.unlines ["error: " ++ error.message, "", "For more information, try '--help'."]⟩

/-- The outcome of a command. The lines of the log stand before the report. -/
def Outcome.ofResult (logged : List String) : Except Failure String → Outcome
  | .ok output => ⟨0, output, String.join logged⟩
  | .error failure => ⟨1, "", String.join logged ++ failure.report⟩

/-- The lines that are shown of the log: one for each record if the arguments ask for it. What the
surroundings of the program may ask for is left out. -/
def logged {m : Type → Type} [Monad m] [Log m] (verbose : Bool) (records : List Record) :
    m (List String) :=
  if verbose then records.mapM Log.line else return []

/-- Carries out a command and shows its log if that is asked for. -/
def Invocation.run {m : Type → Type} [Monad m] [Files m] [Log m] (invocation : Invocation) :
    m Outcome := do
  let ending ← invocation.command.run
  return .ofResult (← logged invocation.verbose ending.records) ending.result

/-- Does what the arguments ask for. -/
def run {m : Type → Type} [Monad m] [Files m] [Log m] (arguments : List String) : m Outcome :=
  match Invocation.ofArguments arguments with
  | .error error => return .ofUsageError error
  | .ok invocation => invocation.run

end WordMachine.CommandLine
