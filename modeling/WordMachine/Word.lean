import WordMachine.Text.Numeral

/-!
# Words

The machine works on words of sixteen bits, stored low byte first. What a word
means as an operand depends on its value alone: the words up to `literalMax` are
numbers, the eight after them name the registers, and the rest name nothing.
-/

namespace WordMachine

/-- A machine word. -/
abbrev Word := UInt16

namespace Word

/-- The bytes a word takes in an image. -/
def size : Nat := 2

/-- The greatest word that is a number. -/
def literalMax : Word := 32767

/-- Arithmetic on the machine is modulo this number. -/
def literalModulo : Word := 32768

/-- The word that names the first register. -/
def registerMin : Word := 32768

/-- The word that names the last register. -/
def registerMax : Word := 32775

/-- The word's two bytes, low byte first. -/
def bytes (word : Word) : List UInt8 :=
  [UInt8.ofNat (word.toNat % 256), UInt8.ofNat (word.toNat / 256)]

/-- The word stored as these two bytes. -/
def ofBytes (low high : UInt8) : Word := UInt16.ofNat (low.toNat + 256 * high.toNat)

@[simp] theorem length_bytes (word : Word) : (bytes word).length = size := rfl

theorem toNat_ofBytes (low high : UInt8) :
    (ofBytes low high).toNat = low.toNat + 256 * high.toNat := by
  have hlow := low.toNat_lt
  have hhigh := high.toNat_lt
  simp only [ofBytes, UInt16.toNat_ofNat']
  omega

/-- Storing a word and reading it back gives the word. -/
theorem ofBytes_bytes (word : Word) :
    ofBytes (UInt8.ofNat (word.toNat % 256)) (UInt8.ofNat (word.toNat / 256)) = word := by
  have hword := word.toNat_lt
  apply UInt16.toNat_inj.1
  simp only [toNat_ofBytes, UInt8.toNat_ofNat']
  omega

/-- Reading two bytes and storing the word gives the bytes. -/
theorem bytes_ofBytes (low high : UInt8) : bytes (ofBytes low high) = [low, high] := by
  have hlow := low.toNat_lt
  have hhigh := high.toNat_lt
  have hmod : (low.toNat + 256 * high.toNat) % 256 = low.toNat := by omega
  have hdiv : (low.toNat + 256 * high.toNat) / 256 = high.toNat := by omega
  simp only [bytes, toNat_ofBytes, hmod, hdiv, UInt8.ofNat_toNat]

/-- The number in capital hexadecimal after `0x`, without leading zeros. -/
def text (word : Word) : String := "0x" ++ Numeral.upperHex word.toNat

end Word

end WordMachine
