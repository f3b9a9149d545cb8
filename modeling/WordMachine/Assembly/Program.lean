import WordMachine.Assembly.Line
import WordMachine.Assembly.OperandWord
import WordMachine.Image
import WordMachine.Text.Lines

/-!
# Assembling

A line becomes the opcode of its operation followed by a word for each operand. A
listing becomes the bytes of its lines one after the other; lines that are blank or
hold only a comment are passed over, and the first line that cannot be assembled
decides the outcome.
-/

namespace WordMachine.Assembly

/-- The operation with this mnemonic, or with the opcode that the text denotes. -/
def operationNamed? (name : List Char) : Option Operation :=
  (Operation.ofMnemonic? (String.ofList name)).or ((numeral? name).bind Operation.ofNumber?)

/-- The words of the instruction that a line describes. -/
def Line.words (line : Line) : Except LineError (List Word) :=
  match operationNamed? line.mnemonic with
  | none => .error (.unknownMnemonic (String.ofList line.mnemonic))
  | some operation =>
    if line.operands.length = operation.arity then do
      return operation.opcode :: (← operandWords 0 operation.slots line.operands)
    else .error (.operandCount operation.mnemonic operation.arity line.operands.length)

/-- Assembles the characters of a line. Blanks at either end do not count. -/
def assembleLine (cs : List Char) : Except LineError Image :=
  match Text.trim cs with
  | [] => .error .empty
  | text =>
    match Line.parse text with
    | .error left => .error (.unexpected (String.ofList left))
    | .ok line => line.words.map Image.ofWords

/-- Whether a listing passes over the line. -/
def isPassedOver (line : List Char) : Bool := Line.isEnd (Text.trim line)

/-- Assembles the lines of a listing, the first of which has the number `number`. -/
def assembleLines (number : Nat) : List (List Char) → Except ProgramError Image
  | [] => .ok []
  | line :: lines =>
    if isPassedOver line then assembleLines (number + 1) lines
    else
      match assembleLine line with
      | .error cause => .error ⟨number, cause⟩
      | .ok bytes => (assembleLines (number + 1) lines).map (bytes ++ ·)

/-- Assembles one instruction. -/
def assemble (text : String) : Except LineError Image := assembleLine text.toList

/-- Assembles a listing of one instruction a line. -/
def assembleProgram (text : String) : Except ProgramError Image :=
  assembleLines 1 (Text.lines text)

end WordMachine.Assembly
