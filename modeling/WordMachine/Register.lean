import WordMachine.Word

/-!
# Registers

The machine has eight registers, `R0` to `R7`. Each has a word that names it
where an operand is expected.
-/

namespace WordMachine

/-- One of the eight registers. -/
structure Register where
  index : Fin 8
  deriving DecidableEq, Repr

namespace Register

/-- How many registers there are. -/
def count : Nat := 8

/-- The registers in order. -/
def all : List Register := (List.finRange 8).map Register.mk

/-- The register with this number, if there is one. -/
def ofIndex? (index : Nat) : Option Register :=
  if h : index < 8 then some ⟨⟨index, h⟩⟩ else none

/-- The word that names the register. -/
def toWord (register : Register) : Word :=
  UInt16.ofNat (Word.registerMin.toNat + register.index.val)

/-- The register a word names, if it names one. -/
def ofWord? (word : Word) : Option Register :=
  if Word.registerMin ≤ word then ofIndex? (word.toNat - Word.registerMin.toNat) else none

/-- The word that names a register names no other. -/
@[simp] theorem ofWord?_toWord (register : Register) : ofWord? register.toWord = some register := by
  obtain ⟨index⟩ := register
  revert index
  decide +kernel

/-- `R` and the number. -/
def text (register : Register) : String := "R" ++ Numeral.decimal register.index.val

end Register

end WordMachine
