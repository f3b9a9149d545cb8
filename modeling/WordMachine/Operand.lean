import WordMachine.Address
import WordMachine.Register

/-!
# Operands

An operand is a word in one of the slots of an operation. The slot's kind says how
a number there is to be treated: as it is, as a word index that stands for an
address, or as a character. A word that names a register names it in every slot.
-/

namespace WordMachine

/-! ## Kinds of slots -/

/-- The set of treatments a slot allows. The empty set means a plain value. -/
structure SlotKind where
  isAddress : Bool
  isChar : Bool
  isRegister : Bool
  deriving DecidableEq, Repr

namespace SlotKind

/-- A plain value. -/
def value : SlotKind := ⟨false, false, false⟩

/-- A word index, standing for an address. -/
def address : SlotKind := ⟨true, false, false⟩

/-- The code point of a character. -/
def char : SlotKind := ⟨false, true, false⟩

/-- A register. -/
def register : SlotKind := ⟨false, false, true⟩

instance : Union SlotKind :=
  ⟨fun a b => ⟨a.isAddress || b.isAddress, a.isChar || b.isChar, a.isRegister || b.isRegister⟩⟩

instance : HasSubset SlotKind :=
  ⟨fun a b => (a.isAddress → b.isAddress) ∧ (a.isChar → b.isChar) ∧ (a.isRegister → b.isRegister)⟩

instance (a b : SlotKind) : Decidable (a ⊆ b) :=
  inferInstanceAs (Decidable
    ((a.isAddress → b.isAddress) ∧ (a.isChar → b.isChar) ∧ (a.isRegister → b.isRegister)))

/-- A slot accepts registers only if that is the only treatment it allows. -/
def requiresRegister (kind : SlotKind) : Bool := kind == register

/-- The names of the treatments, `register` first, or `value` if there are none. -/
def text (kind : SlotKind) : String :=
  if kind = value then "value"
  else "|".intercalate
    ((if kind.isRegister then ["register"] else [])
      ++ (if kind.isAddress then ["address"] else [])
      ++ (if kind.isChar then ["char"] else []))

end SlotKind

/-! ## Operand words -/

/-- What a word means where an operand is expected. -/
inductive Meaning
  | literal (value : Word)
  | register (register : Register)
  | invalid (word : Word)
  deriving DecidableEq, Repr

/-- Numbers come first, then the registers, then words without a meaning. -/
def Word.meaning (word : Word) : Meaning :=
  if word ≤ Word.literalMax then .literal word
  else match Register.ofWord? word with
    | some register => .register register
    | none => .invalid word

/-- A word in a slot. An operand made by hand may carry any index, kind and word. -/
structure Operand where
  /-- The slot's position among the slots of its operation, from zero. -/
  index : Nat
  kind : SlotKind
  word : Word
  deriving DecidableEq, Repr

namespace Operand

/-- What the operand's word means. -/
def meaning (operand : Operand) : Meaning := operand.word.meaning

/-- Whether the word is a number. -/
def isLiteral (operand : Operand) : Bool := operand.word ≤ Word.literalMax

/-- Whether the word names a register. -/
def isRegister (operand : Operand) : Bool :=
  Word.registerMin ≤ operand.word && operand.word ≤ Word.registerMax

/-- Whether the word means anything. -/
def isValid (operand : Operand) : Bool := operand.word ≤ Word.registerMax

/-- The register the word names. -/
def register? (operand : Operand) : Option Register := Register.ofWord? operand.word

/-- The address a number stands for, whatever the slot's kind. -/
def literalAddress? (operand : Operand) : Option Address :=
  if operand.isLiteral then some (Address.ofWordIndex operand.word) else none

/-- The operands that fill slots of these kinds with these words. -/
def fill (kinds : List SlotKind) (words : List Word) : List Operand :=
  (kinds.zip words).mapIdx fun index (kind, word) => ⟨index, kind, word⟩

@[simp] theorem length_fill (kinds : List SlotKind) (words : List Word) :
    (fill kinds words).length = min kinds.length words.length := by
  simp [fill]

/-- The operand in a slot carries the slot's number, its kind and its word. -/
theorem getElem?_fill (kinds : List SlotKind) (words : List Word) (slot : Nat) :
    (fill kinds words)[slot]? = do
      return ⟨slot, ← kinds[slot]?, ← words[slot]?⟩ := by
  cases hkind : kinds[slot]? <;> cases hword : words[slot]? <;>
    simp [fill, List.zip, List.getElem?_zipWith, hkind, hword]

end Operand

end WordMachine
