import WordMachine.Image

/-!
# Decoding

Decoding looks at no more than the eight bytes from an address on, since no
instruction is longer. It answers with the instruction there, or with the first of
these reasons that applies: the address is odd; there is no whole word; the word is
not an opcode; the image ends inside the instruction; an operand word means nothing.
-/

namespace WordMachine

/-- Why there is no instruction at an address. -/
inductive DecodeError
  /-- The address is odd. -/
  | misaligned (address : Address)
  /-- No word is left at the address. -/
  | noOpcode (address : Address)
  /-- The word at the address is no opcode. -/
  | unknownOpcode (address : Address) (word : Word)
  /-- The image ends before the instruction does. -/
  | truncated (address : Address) (needed available : Nat)
  /-- The word of an operand is neither a number nor a register. -/
  | invalidOperand (address : Address) (index : Nat) (word : Word)
  deriving DecidableEq, Repr

namespace DecodeError

/-- The address at which decoding was tried. -/
def address : DecodeError → Address
  | misaligned address => address
  | noOpcode address => address
  | unknownOpcode address _ => address
  | truncated address _ _ => address
  | invalidOperand address _ _ => address

/-- The wording of the reason. -/
def message : DecodeError → String
  | misaligned address => "instructions are word aligned, but " ++ address.text ++ " is odd"
  | noOpcode address => "no opcode word at " ++ address.text
  | unknownOpcode address word =>
    Numeral.decimal word.toNat ++ " at " ++ address.text ++ " is not an opcode"
  | truncated address needed available =>
    "instruction at " ++ address.text ++ " needs " ++ Numeral.decimal needed ++ " bytes but only "
      ++ Numeral.decimal available ++ " remain"
  | invalidOperand address index word =>
    "operand " ++ Numeral.decimal index ++ " of instruction at " ++ address.text
      ++ " has invalid value " ++ Numeral.decimal word.toNat

end DecodeError

namespace Instruction

/-- The bytes decoding may look at. -/
def window (bytes : Image) : Image := bytes.take Operation.maxLength

/-- Reads the instruction of an operation from the words after its opcode, of which there are
enough. -/
def ofOperandWords (address : Address) (operation : Operation) (words : List Word) :
    Except DecodeError Instruction :=
  let operands := Operand.fill operation.slots words
  match operands.find? (!·.isValid) with
  | some operand => .error (.invalidOperand address operand.index operand.word)
  | none => .ok ⟨address, operation, operands⟩

/-- Reads the instruction at the start of a window that lies at an aligned address. -/
def ofWindow (address : Address) (bytes : Image) : Except DecodeError Instruction :=
  match bytes.words with
  | [] => .error (.noOpcode address)
  | word :: operandWords =>
    match Operation.ofOpcode? word with
    | none => .error (.unknownOpcode address word)
    | some operation =>
      if bytes.length < operation.length then
        .error (.truncated address operation.length bytes.length)
      else ofOperandWords address operation operandWords

/-- Decodes the first instruction of `bytes`, which lie in their image from `address` on. -/
def ofBytes (address : Address) (bytes : Image) : Except DecodeError Instruction :=
  if address.isAligned then ofWindow address (window bytes) else .error (.misaligned address)

end Instruction

/-- Decodes the instruction at an address of an image. -/
def Image.decode (image : Image) (address : Address) : Except DecodeError Instruction :=
  Instruction.ofBytes address (image.suffix address)

end WordMachine
