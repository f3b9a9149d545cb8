import WordMachine.Assembly.Program
import WordMachine.Disassembly
import WordMachine.Lifting
import WordMachine.Sweep

/-!
# Records

What a run comes across that is worth a record in the log: words of an image that are no
instruction, instructions that cannot be lifted, a listing that cannot be assembled, and
an image that has been written. The log is shown if the arguments ask for it.
-/

namespace WordMachine.CommandLine

/-- A record in the log. -/
inductive Record
  /-- There is no instruction at an address of the sweep. -/
  | undecoded (error : DecodeError)
  /-- What the instruction does cannot be expressed. -/
  | unlifted (instruction : Instruction)
  | unassembled (error : Assembly.ProgramError)
  /-- An image of this length has been written. -/
  | written (length : Nat) (path : String)
  deriving DecidableEq, Repr

/-- The wording of a record. -/
def Record.message : Record → String
  | undecoded error => error.message
  | unlifted instruction =>
    "cannot lift `" ++ instruction.text ++ "` at " ++ instruction.address.text
  | unassembled error =>
    "assembly failed on line " ++ Numeral.decimal error.line ++ ": " ++ error.cause.message
  | written length path => "wrote " ++ Numeral.decimal length ++ " bytes to " ++ path

/-- The records of a sweep that has met the item. -/
def sweepRecords (item : Item) : List Record :=
  match item.result with
  | .ok _ => []
  | .error error => [.undecoded error]

/-- The records of a sweep that has met the item and lifted it. -/
def liftingRecords (item : Item) : List Record :=
  match item.result with
  | .ok instruction =>
    match instruction.statement? with
    | some _ => []
    | none => [.unlifted instruction]
  | .error error => [.undecoded error]

/-- A log, in which a record becomes a line. How that looks, with the time in it, is up to the place
where the program runs. -/
class Log (m : Type → Type) where
  line : Record → m String

end WordMachine.CommandLine
