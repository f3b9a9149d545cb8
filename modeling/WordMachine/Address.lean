import WordMachine.Text.Padding
import WordMachine.Word

/-!
# Addresses

Everything that looks at an image counts in bytes, while the machine itself
numbers words. An `Address` is a byte offset; a word index `i` stands for the
address `2 * i`.
-/

namespace WordMachine

/-- A byte offset into an image. -/
structure Address where
  offset : Nat
  deriving DecidableEq, Repr, Inhabited

namespace Address

instance : HAdd Address Nat Address := ⟨fun address bytes => ⟨address.offset + bytes⟩⟩

/-- The address of the word with this index. -/
def ofWordIndex (index : Word) : Address := ⟨index.toNat * Word.size⟩

/-- The index of the word at this address. It identifies the address only if that is aligned. -/
def wordIndex (address : Address) : Nat := address.offset / Word.size

/-- Whether a word starts here, counting words from the start of the image. -/
def isAligned (address : Address) : Bool := address.offset % Word.size == 0

/-- The offset in capital hexadecimal, at least four digits, after `0x`. -/
def text (address : Address) : String :=
  "0x" ++ Text.padLeft '0' 4 (Numeral.upperHex address.offset)

@[simp] theorem offset_add (address : Address) (bytes : Nat) :
    (address + bytes).offset = address.offset + bytes := rfl

end Address

end WordMachine
