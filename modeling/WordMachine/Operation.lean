import WordMachine.Operand

/-!
# Operations

The twenty-two operations of the machine. An operation fixes its opcode, its name
in assembly and the kinds of its operand slots, and with them the length of every
instruction that carries it out.
-/

namespace WordMachine

/-- An operation, called by its mnemonic where that is a usable name. -/
inductive Operation
  /-- Stops the machine. -/
  | halt
  /-- Sets a register to a value. -/
  | set
  /-- Pushes a value on the stack. -/
  | push
  /-- Moves the top of the stack into a register. -/
  | pop
  /-- Sets a register to one if two values are equal, else to zero. -/
  | eq
  /-- Sets a register to one if one value exceeds another, else to zero. -/
  | gt
  /-- Goes to an address. -/
  | jmp
  /-- Goes to an address if a value is not zero. -/
  | jt
  /-- Goes to an address if a value is zero. -/
  | jf
  /-- Sets a register to a sum, modulo 32768. -/
  | add
  /-- Sets a register to a product, modulo 32768. -/
  | mult
  /-- Sets a register to a remainder. -/
  | mod
  /-- Sets a register to the bitwise and of two values. -/
  | and
  /-- Sets a register to the bitwise or of two values. -/
  | or
  /-- Sets a register to the fifteen bit complement of a value. -/
  | not
  /-- Sets a register to the word at an address. -/
  | rmem
  /-- Stores a value at an address. -/
  | wmem
  /-- Pushes the place of the next instruction and goes to an address. -/
  | call
  /-- Goes to the place on top of the stack. -/
  | ret
  /-- Writes a character. -/
  | output
  /-- Reads a character into a register. -/
  | input
  /-- Does nothing. -/
  | noop
  deriving DecidableEq, Repr

namespace Operation

/-- The operations in the order of their opcodes. -/
def all : List Operation :=
  [halt, set, push, pop, eq, gt, jmp, jt, jf, add, mult, mod, and, or, not, rmem, wmem, call,
    ret, output, input, noop]

/-- The word that starts an instruction with this operation. -/
def opcode : Operation → Word
  | halt => 0
  | set => 1
  | push => 2
  | pop => 3
  | eq => 4
  | gt => 5
  | jmp => 6
  | jt => 7
  | jf => 8
  | add => 9
  | mult => 10
  | mod => 11
  | and => 12
  | or => 13
  | not => 14
  | rmem => 15
  | wmem => 16
  | call => 17
  | ret => 18
  | output => 19
  | input => 20
  | noop => 21

/-- The operation's name in assembly. -/
def mnemonic : Operation → String
  | halt => "halt"
  | set => "set"
  | push => "push"
  | pop => "pop"
  | eq => "eq"
  | gt => "gt"
  | jmp => "jmp"
  | jt => "jt"
  | jf => "jf"
  | add => "add"
  | mult => "mult"
  | mod => "mod"
  | and => "and"
  | or => "or"
  | not => "not"
  | rmem => "rmem"
  | wmem => "wmem"
  | call => "call"
  | ret => "ret"
  | output => "out"
  | input => "in"
  | noop => "noop"

/-- The kinds of the operand slots in order. -/
def slots : Operation → List SlotKind
  | halt | ret | noop => []
  | set | not => [.register, .value]
  | push => [.value]
  | pop | input => [.register]
  | eq | gt | add | mult | mod | and | or => [.register, .value, .value]
  | jmp | call => [.address]
  | jt | jf => [.value, .address]
  | rmem => [.register ∪ .address, .value]
  | wmem => [.address, .value]
  | output => [.char]

/-- How many operands the operation takes. -/
def arity (operation : Operation) : Nat := operation.slots.length

/-- The bytes of an instruction with this operation, its opcode word included. -/
def length (operation : Operation) : Nat := Word.size * (1 + operation.arity)

/-- The most operands any operation takes. -/
def maxArity : Nat := 3

/-- The bytes of the longest instruction. -/
def maxLength : Nat := Word.size * (1 + maxArity)

/-- The operation whose opcode is this number. -/
def ofNumber? (number : Nat) : Option Operation := all[number]?

/-- The operation with this opcode. -/
def ofOpcode? (word : Word) : Option Operation := ofNumber? word.toNat

/-- The operation with this mnemonic. Mnemonics are in small letters only. -/
def ofMnemonic? (name : String) : Option Operation := all.find? (·.mnemonic == name)

/-- Opcodes number the operations as `all` lists them. -/
@[simp] theorem ofOpcode?_opcode (operation : Operation) :
    ofOpcode? operation.opcode = some operation := by
  cases operation <;> rfl

/-- No two operations have the same mnemonic. -/
@[simp] theorem ofMnemonic?_mnemonic (operation : Operation) :
    ofMnemonic? operation.mnemonic = some operation := by
  cases operation <;> decide +kernel

theorem arity_le_maxArity (operation : Operation) : operation.arity ≤ maxArity := by
  cases operation <;> decide

theorem length_le_maxLength (operation : Operation) : operation.length ≤ maxLength := by
  cases operation <;> decide

end Operation

end WordMachine
