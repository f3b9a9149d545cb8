import WordMachine.Instruction
import WordMachine.Lifted.Statement

/-!
# Lifting

An instruction becomes one statement of the lifted language. Numbers that stand for
word indices are doubled, and so are registers that hold them; sums and products
are brought back below 32768. An instruction with an operand that the language
cannot express, such as a number where a register is written, becomes
`unimplemented`.
-/

namespace WordMachine

open Lifted

namespace Operand

/-- The operand as a value. -/
def value? (operand : Operand) : Option Expr :=
  match operand.meaning with
  | .literal value => some (.const value)
  | .register register => some (.reg register)
  | .invalid _ => none

/-- The operand, a word index, as a byte address. -/
def address? (operand : Operand) : Option Expr :=
  match operand.meaning with
  | .literal value => some (.const (value * 2))
  | .register register => some (.binary .mult (.reg register) (.const 2))
  | .invalid _ => none

/-- The operand, a word index, as a place to go to. -/
def target? (operand : Operand) : Option Target :=
  match operand.literalAddress? with
  | some address => some (.label address)
  | none => operand.address?.map .indirect

end Operand

namespace Instruction

/-- The register written through a slot. -/
def destination? (instruction : Instruction) (slot : Nat) : Option Register :=
  (instruction.operand? slot).bind Operand.register?

/-- The value in a slot. -/
def value? (instruction : Instruction) (slot : Nat) : Option Expr :=
  (instruction.operand? slot).bind Operand.value?

/-- The byte address in a slot. -/
def address? (instruction : Instruction) (slot : Nat) : Option Expr :=
  (instruction.operand? slot).bind Operand.address?

/-- The place to go to in a slot. -/
def target? (instruction : Instruction) (slot : Nat) : Option Target :=
  (instruction.operand? slot).bind Operand.target?

/-- The operator applied to the values in the second and the third slot. -/
def binary? (instruction : Instruction) (operator : Operator) : Option Expr := do
  return .binary operator (← instruction.value? 1) (← instruction.value? 2)

/-- Writes a value to the register in the first slot. -/
def assign? (instruction : Instruction) (value : Option Expr) : Option Statement := do
  return .setReg (← instruction.destination? 0) (← value)

/-- Brings a value below 32768. -/
def wrapped (value : Expr) : Expr := .binary .mod value (.const Word.literalModulo)

/-- What the instruction does, if its operands can be expressed. -/
def statement? (instruction : Instruction) : Option Statement :=
  match instruction.operation with
  | .halt => some .noReturn
  | .set => instruction.assign? (instruction.value? 1)
  | .push => (instruction.value? 0).map .push
  | .pop => instruction.assign? (some .pop)
  | .eq => instruction.assign? (instruction.binary? .equal)
  | .gt => instruction.assign? (instruction.binary? .greater)
  | .jmp => (instruction.target? 0).map .jump
  | .jt => do
    return .branch (← instruction.value? 0) (← instruction.target? 1) (.label instruction.next)
  | .jf => do
    return .branch (← instruction.value? 0) (.label instruction.next) (← instruction.target? 1)
  | .add => instruction.assign? ((instruction.binary? .add).map wrapped)
  | .mult => instruction.assign? ((instruction.binary? .mult).map wrapped)
  | .mod => instruction.assign? (instruction.binary? .mod)
  | .and => instruction.assign? (instruction.binary? .and)
  | .or => instruction.assign? (instruction.binary? .or)
  | .not => instruction.assign? ((instruction.value? 1).map fun value =>
      .binary .and (.complement value) (.const Word.literalMax))
  | .rmem => instruction.assign? ((instruction.address? 1).map .load)
  | .wmem => do return .store (← instruction.address? 0) (← instruction.value? 1)
  | .call => (instruction.target? 0).map .call
  | .ret => some (.ret .pop)
  | .output => (instruction.value? 0).map .output
  | .input => instruction.assign? (some .input)
  | .noop => some .nop

end Instruction

/-- What lifting an instruction gives. -/
structure Lifting where
  /-- The statements in the order of their effects. -/
  statements : List Statement
  /-- The bytes of the lifted instruction. -/
  length : Nat
  deriving DecidableEq, Repr

/-- Lifts an instruction. What cannot be expressed is kept as one `unimplemented` statement. -/
def Instruction.lift (instruction : Instruction) : Lifting :=
  ⟨[instruction.statement?.getD .unimplemented], instruction.length⟩

end WordMachine
