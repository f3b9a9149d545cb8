import WordMachine.Text.Numeral

/-!
# Assembly errors

What can be wrong with a line of assembly, and with a listing. Operands are counted
from zero, lines from one.
-/

namespace WordMachine.Assembly

/-- Why a line cannot be assembled. -/
inductive LineError
  /-- There is nothing but blanks. -/
  | empty
  /-- The line is not a mnemonic with operands; this is what was left when that showed. -/
  | unexpected (text : String)
  | unknownMnemonic (mnemonic : String)
  | operandCount (mnemonic : String) (expected found : Nat)
  /-- Only a register can stand here. -/
  | expectedRegister (index : Nat) (text : String)
  /-- The operand is written like a register that does not exist. -/
  | invalidRegister (index : Nat) (text : String)
  | unparsableOperand (index : Nat) (text : String)
  /-- The number, as written, does not fit into a literal. -/
  | literalOutOfRange (index : Nat) (value : Nat)
  | misalignedAddress (index : Nat) (value : Nat)
  deriving DecidableEq, Repr

/-- The wording of a line error. -/
def LineError.message : LineError → String
  | empty => "nothing to assemble"
  | unexpected text => "unexpected input: `" ++ text ++ "`"
  | unknownMnemonic mnemonic => mnemonic ++ " is not an operation"
  | operandCount mnemonic expected found =>
    mnemonic ++ " requires " ++ Numeral.decimal expected ++ " operands but was given "
      ++ Numeral.decimal found
  | expectedRegister index text =>
    "operand " ++ Numeral.decimal index ++ " expects a register but was given `" ++ text ++ "`"
  | invalidRegister index text =>
    "operand " ++ Numeral.decimal index ++ ": `" ++ text ++ "` is not one of R0 through R7"
  | unparsableOperand index text =>
    "operand " ++ Numeral.decimal index ++ ": cannot parse `" ++ text ++ "`"
  | literalOutOfRange index value =>
    "operand " ++ Numeral.decimal index ++ ": " ++ Numeral.decimal value
      ++ " does not fit in a 15 bit literal"
  | misalignedAddress index value =>
    "operand " ++ Numeral.decimal index ++ ": address 0x" ++ Numeral.upperHex value
      ++ " is not word aligned"

/-- The first line of a listing that cannot be assembled. -/
structure ProgramError where
  line : Nat
  cause : LineError
  deriving DecidableEq, Repr

/-- The wording of a listing error. -/
def ProgramError.message (error : ProgramError) : String :=
  "Error on line " ++ Numeral.decimal error.line ++ ": " ++ error.cause.message

end WordMachine.Assembly
