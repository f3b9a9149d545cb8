import WordMachine.Instruction
import WordMachine.Text.Escape

/-!
# Disassembly text

An instruction is shown as tokens, for a reader who wants to colour or link them,
and as plain text, which leaves out the address and is a line of assembly. A word
is shown by what it means: a register by its name, a number by the slot it stands
in, and a word without a meaning as a number after all.
-/

namespace WordMachine

/-- What a piece of disassembly text shows. -/
inductive TokenKind
  | addressLabel
  | gap
  | mnemonic
  | separator
  | register
  | character
  | possibleAddress
  | integer
  deriving DecidableEq, Repr

/-- A piece of disassembly text. -/
structure Token where
  kind : TokenKind
  text : String
  deriving DecidableEq, Repr

/-- The texts of the tokens one after the other. -/
def Token.render : List Token → String
  | [] => ""
  | token :: tokens => token.text ++ render tokens

/-- What stands between two operands. -/
def Token.comma : Token := ⟨.separator, ", "⟩

/-- A character slot shows a number as a quoted character and an address slot as an address. -/
def Operand.token (operand : Operand) : Token :=
  match operand.meaning with
  | .register register => ⟨.register, register.text⟩
  | .literal value =>
    if operand.kind.isChar then
      ⟨.character, "'" ++ Text.escape (Char.ofNat value.toNat) ++ "'"⟩
    else if operand.kind.isAddress then
      ⟨.possibleAddress, (Address.ofWordIndex value).text⟩
    else ⟨.integer, value.text⟩
  | .invalid word => ⟨.integer, word.text⟩

namespace Instruction

/-- The width of the column that mnemonics stand in. -/
def mnemonicWidth : Nat := 6

/-- The operands with commas between them. -/
def operandTokens (instruction : Instruction) : List Token :=
  (instruction.operands.map Operand.token).intersperse Token.comma

/-- The address, a gap, the mnemonic in its column, then the operands. -/
def tokens (instruction : Instruction) : List Token :=
  [⟨.addressLabel, instruction.address.text⟩, ⟨.gap, "  "⟩,
    ⟨.mnemonic, Text.padRight ' ' mnemonicWidth instruction.operation.mnemonic⟩]
    ++ instruction.operandTokens

/-- The tokens as one line. -/
def line (instruction : Instruction) : String := Token.render instruction.tokens

/-- The mnemonic, and after a space the operands if there are any. -/
def text (instruction : Instruction) : String :=
  match instruction.operands with
  | [] => instruction.operation.mnemonic
  | _ :: _ =>
    instruction.operation.mnemonic ++ " " ++ Token.render instruction.operandTokens

end Instruction

end WordMachine
