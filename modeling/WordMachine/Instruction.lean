import WordMachine.Operation

/-!
# Instructions

An instruction is an operation at an address together with its operands. One read
from an image has exactly one operand for each slot; one made by hand may have
fewer or more, so its operands are reached through `operand?`.
-/

namespace WordMachine

/-- An operation at an address, with operands. -/
structure Instruction where
  address : Address
  operation : Operation
  operands : List Operand
  deriving DecidableEq, Repr

namespace Instruction

/-- The operand in the given slot, if there is one. -/
def operand? (instruction : Instruction) (slot : Nat) : Option Operand :=
  instruction.operands[slot]?

/-- The bytes its operation takes, whatever operands there are. -/
def length (instruction : Instruction) : Nat := instruction.operation.length

/-- The address just after the instruction. -/
def next (instruction : Instruction) : Address := instruction.address + instruction.length

/-- The opcode followed by the operand words. -/
def words (instruction : Instruction) : List Word :=
  instruction.operation.opcode :: instruction.operands.map Operand.word

end Instruction

end WordMachine
