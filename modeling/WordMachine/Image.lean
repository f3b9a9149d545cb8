import WordMachine.Instruction

/-!
# Images

A program image is a string of bytes that holds words, low byte first. Words are
read at any byte address, aligned or not, as long as both bytes are there.
-/

namespace WordMachine

/-- The bytes of a program. -/
abbrev Image := List UInt8

namespace Image

/-- The bytes from an address on. -/
def suffix (image : Image) (address : Address) : Image := image.drop address.offset

/-- How many bytes there are from an address on. -/
def remaining (image : Image) (address : Address) : Nat := image.length - address.offset

/-- The words in a string of bytes. A single byte at the end makes no word. -/
def words : Image → List Word
  | low :: high :: rest => Word.ofBytes low high :: words rest
  | _ => []

/-- The word that starts at an address, if both its bytes are there. -/
def wordAt? (image : Image) (address : Address) : Option Word :=
  match image.suffix address with
  | low :: high :: _ => some (Word.ofBytes low high)
  | _ => none

/-- The bytes of a string of words. -/
def ofWords (words : List Word) : Image := words.flatMap Word.bytes

@[simp] theorem ofWords_nil : ofWords [] = [] := rfl

@[simp] theorem ofWords_cons (word : Word) (words : List Word) :
    ofWords (word :: words) = word.bytes ++ ofWords words := rfl

@[simp] theorem ofWords_append (first second : List Word) :
    ofWords (first ++ second) = ofWords first ++ ofWords second := by
  simp [ofWords]

@[simp] theorem length_ofWords (words : List Word) :
    (ofWords words).length = Word.size * words.length := by
  induction words with
  | nil => rfl
  | cons word words ih =>
    rw [ofWords_cons, List.length_append, Word.length_bytes, ih, List.length_cons, Nat.mul_succ,
      Nat.add_comm]

/-- Words read from where a string of words was written, whatever bytes come after. -/
theorem words_ofWords_append (written : List Word) (rest : Image) :
    words (ofWords written ++ rest) = written ++ words rest := by
  induction written with
  | nil => rfl
  | cons word written ih =>
    have h : ofWords (word :: written) ++ rest = UInt8.ofNat (word.toNat % 256)
        :: UInt8.ofNat (word.toNat / 256) :: (ofWords written ++ rest) := rfl
    rw [h, words, ih, Word.ofBytes_bytes]
    rfl

@[simp] theorem words_ofWords (written : List Word) : words (ofWords written) = written := by
  have h := words_ofWords_append written []
  rw [List.append_nil] at h
  exact h.trans (List.append_nil written)

/-- As many `noop` instructions as fit into the length of these bytes. -/
def noops (bytes : Image) : Image :=
  ofWords (List.replicate (bytes.length / Word.size) Operation.noop.opcode)

/-- The bytes in the `length` places from `start` on, as far as the image reaches. -/
def slice (image : Image) (start length : Nat) : Image := (image.drop start).take length

/-- Writes bytes over those from `start` on and keeps the rest. -/
def overwrite (image : Image) (start : Nat) (bytes : Image) : Image :=
  image.take start ++ bytes ++ image.drop (start + bytes.length)

/-- Replaces the words in the `length` places from `start` on by `noop` instructions. An odd byte
at the end of the range stays. -/
def blankOut (image : Image) (start length : Nat) : Image :=
  image.overwrite start (noops (image.slice start length))

end Image

/-- The bytes of an instruction: its opcode, then its operand words. -/
def Instruction.encode (instruction : Instruction) : Image := Image.ofWords instruction.words

end WordMachine
