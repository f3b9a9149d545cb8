import Mathlib.Logic.ExistsUnique
import WordMachine.Proofs.Decoding
import WordMachine.Proofs.Meaning

/-!
# What decoding finds at an address

Several things can be wrong with the same bytes, and the answer names the first of them in
a fixed order. `Image.Shows` is that order written down: one case for each kind of answer,
with the condition under which it is given, in terms of the words of the image. Every
address of every image falls under exactly one case, with exactly one answer.

The decoder cuts a window out of the image before it looks at anything. `decodeInPlace`
does not: it reads each word where the word lies and counts the bytes that are left to the
end of the image. Its loop over the slots has a way out for a word that is missing. Both
give the same answers, and the check of the length in front of the loop keeps that way out
from ever being taken. It also keeps the addresses of the slots from running over where
these have no more than 64 bits.
-/

namespace WordMachine

namespace Operation

/-- The opcodes are the words up to 21. -/
theorem ofOpcode?_eq_none_iff {word : Word} : ofOpcode? word = none ↔ 21 < word := by
  rw [ofOpcode?, ofNumber?, List.getElem?_eq_none_iff, UInt16.lt_iff_toNat_lt]
  exact Iff.rfl

theorem length_eq (operation : Operation) : operation.length = 2 + 2 * operation.arity :=
  Nat.mul_add 2 1 operation.arity

end Operation

/-- The operand in a slot knows its slot, which is one of those there are, and has the slot's
word. -/
theorem Operand.eq_of_getElem?_fill {kinds : List SlotKind} {words : List Word} {slot : Nat}
    {operand : Operand} (h : (fill kinds words)[slot]? = some operand) :
    operand.index = slot ∧ slot < kinds.length ∧ words[slot]? = some operand.word := by
  simp only [getElem?_fill, Option.bind_eq_bind, Option.bind_eq_some_iff, Option.pure_def,
    Option.some.injEq] at h
  obtain ⟨kind, hkind, word, hword, rfl⟩ := h
  exact ⟨rfl, (List.getElem?_eq_some_iff.1 hkind).1, hword⟩

namespace Image

/-! ## Words at their places -/

theorem wordAt?_suffix (image : Image) (address : Address) (offset : Nat) :
    (image.suffix address).wordAt? ⟨offset⟩ = image.wordAt? (address + offset) := by
  rw [wordAt?, wordAt?, suffix, suffix, suffix, List.drop_drop, Address.offset_add]

/-- A word is made of the byte at the address and the one behind it. -/
theorem wordAt?_eq_getElem? (image : Image) (address : Address) :
    image.wordAt? address = do
      return Word.ofBytes (← image[address.offset]?) (← image[address.offset + 1]?) := by
  have hget : ∀ index, (image.suffix address)[index]? = image[address.offset + index]? := by
    intro index
    exact List.getElem?_drop
  have hlow := hget 0
  rw [Nat.add_zero] at hlow
  rw [← hlow, ← hget 1, wordAt?]
  rcases image.suffix address with _ | ⟨low, _ | ⟨high, rest⟩⟩ <;> rfl

/-- The words in a string of bytes are those at its even offsets. -/
theorem getElem?_words (bytes : Image) (index : Nat) :
    bytes.words[index]? = bytes.wordAt? ⟨Word.size * index⟩ := by
  induction index generalizing bytes with
  | zero =>
    match bytes with
    | [] | [_] | _ :: _ :: _ => rfl
  | succ index ih =>
    match bytes with
    | [] => simp [words, wordAt?, suffix]
    | [_] => simp [words, wordAt?, suffix, Word.size, Nat.mul_succ]
    | low :: high :: rest =>
      rw [words, List.getElem?_cons_succ, ih]
      rfl

/-- As many whole words as are wanted, from that many bytes. -/
theorem words_take (bytes : Image) (count : Nat) :
    words (bytes.take (Word.size * count)) = bytes.words.take count := by
  induction count generalizing bytes with
  | zero => rfl
  | succ count ih =>
    match bytes with
    | [] => simp [words]
    | [_] => simp [words, Word.size, Nat.mul_succ]
    | low :: high :: rest =>
      rw [words, List.take_succ_cons, ← ih]
      rfl

/-- A word is read exactly where both its bytes are there. -/
theorem wordAt?_eq_none_iff {image : Image} {address : Address} :
    image.wordAt? address = none ↔ image.length < address.offset + Word.size := by
  have hfirst : image.wordAt? address = (image.suffix address).words[0]? := by
    rw [getElem?_words, wordAt?_suffix]
    rfl
  rw [hfirst, List.getElem?_eq_none_iff, Nat.le_zero, List.length_eq_zero_iff, words_eq_nil_iff,
    suffix, List.length_drop]
  simp only [Word.size]
  omega

/-- The word in a slot of the instruction at an address, counting slots from zero. -/
def operandWordAt? (image : Image) (address : Address) (slot : Nat) : Option Word :=
  image.wordAt? (address + Word.size * (slot + 1))

/-- Where the bytes of an instruction are there, so is the word in each of its slots. -/
theorem exists_operandWordAt? {image : Image} {address : Address} {arity slot : Nat}
    (hfits : 2 + 2 * arity ≤ image.length - address.offset) (hslot : slot < arity) :
    ∃ word, image.operandWordAt? address slot = some word := by
  refine Option.ne_none_iff_exists'.1 fun hnone => ?_
  have hlt := wordAt?_eq_none_iff.1 hnone
  simp only [Address.offset_add, Word.size] at hlt
  omega

/-! ## Reading in place -/

/-- Why the loop over the slots ends early. -/
inductive OperandFault
  /-- The image ends before the word does. -/
  | missing
  /-- The word means nothing. -/
  | invalid (slot : Nat) (word : Word)
  deriving DecidableEq, Repr

/-- Reads the operands for slots of these kinds, the first of which has the number `slot`. -/
def readOperands (wordIn? : Nat → Option Word) (slot : Nat) :
    List SlotKind → Except OperandFault (List Operand)
  | [] => .ok []
  | kind :: kinds =>
    match wordIn? slot with
    | none => .error .missing
    | some word =>
      match word.meaning with
      | .invalid word => .error (.invalid slot word)
      | _ => (readOperands wordIn? (slot + 1) kinds).map (⟨slot, kind, word⟩ :: ·)

/-- Decodes the instruction at an address with so many bytes left, from its first word and the words
in its slots. -/
def decodeWords (address : Address) (available : Nat) (first? : Option Word)
    (wordIn? : Nat → Option Word) : Except DecodeError Instruction :=
  if !address.isAligned then .error (.misaligned address)
  else
    match first? with
    | none => .error (.noOpcode address)
    | some word =>
      match Operation.ofOpcode? word with
      | none => .error (.unknownOpcode address word)
      | some operation =>
        if available < operation.length then
          .error (.truncated address operation.length available)
        else
          match readOperands wordIn? 0 operation.slots with
          | .error .missing => .error (.truncated address operation.length available)
          | .error (.invalid slot word) => .error (.invalidOperand address slot word)
          | .ok operands => .ok ⟨address, operation, operands⟩

/-- Decodes the instruction at an address, reading every word where it lies. -/
def decodeInPlace (image : Image) (address : Address) : Except DecodeError Instruction :=
  decodeWords address (image.remaining address) (image.wordAt? address)
    (image.operandWordAt? address)

section

variable {wordIn? : Nat → Option Word} {slot : Nat} {kind : SlotKind} {kinds : List SlotKind}
  {word : Word}

theorem readOperands_cons_of_le (hword : wordIn? slot = some word)
    (hvalid : word ≤ Word.registerMax) :
    readOperands wordIn? slot (kind :: kinds)
      = (readOperands wordIn? (slot + 1) kinds).map (⟨slot, kind, word⟩ :: ·) := by
  rw [readOperands, hword]
  rcases word.meaning_cases with ⟨-, hmeaning⟩ | ⟨register, -, hmeaning⟩ | ⟨hlt, -⟩
  · simp only [hmeaning]
  · simp only [hmeaning]
  · exact absurd hvalid (UInt16.not_le.2 hlt)

theorem readOperands_cons_of_lt (hword : wordIn? slot = some word)
    (hinvalid : Word.registerMax < word) :
    readOperands wordIn? slot (kind :: kinds) = .error (.invalid slot word) := by
  rw [readOperands, hword]
  rcases word.meaning_cases with ⟨hle, -⟩ | ⟨register, rfl, -⟩ | ⟨-, hmeaning⟩
  · exact absurd (UInt16.le_trans hle (by decide)) (UInt16.not_le.2 hinvalid)
  · exact absurd register.toWord_bounds.2 (UInt16.not_le.2 hinvalid)
  · simp only [hmeaning]

/-- Where no word is missing, the loop does not find one missing. -/
theorem readOperands_ne_missing
    (h : ∀ k, slot ≤ k → k < slot + kinds.length →
      ∃ word, wordIn? k = some word) :
    readOperands wordIn? slot kinds ≠ .error .missing := by
  induction kinds generalizing slot with
  | nil => simp [readOperands]
  | cons kind kinds ih =>
    rw [List.length_cons] at h
    obtain ⟨word, hword⟩ := h slot (Nat.le_refl _) (by omega)
    -- what is missing further on would be passed up by the slots before it
    have htail : readOperands wordIn? (slot + 1) kinds ≠ .error .missing :=
      ih fun k hle hlt => h k (by omega) (by omega)
    by_cases hvalid : word ≤ Word.registerMax
    · rw [readOperands_cons_of_le hword hvalid]
      cases hrest : readOperands wordIn? (slot + 1) kinds with
      | error fault => exact fun hmissing => htail (hrest.trans hmissing)
      | ok operands => simp [Except.map]
    · rw [readOperands_cons_of_lt hword (UInt16.not_le.1 hvalid)]
      simp

/-- The loop stops at the first word that means nothing. -/
theorem readOperands_of_invalid {k : Nat} (hle : slot ≤ k) (hlt : k < slot + kinds.length)
    (hbefore : ∀ earlier, slot ≤ earlier → earlier < k →
      ∃ word, wordIn? earlier = some word ∧ word ≤ Word.registerMax)
    (hword : wordIn? k = some word) (hinvalid : Word.registerMax < word) :
    readOperands wordIn? slot kinds = .error (.invalid k word) := by
  induction kinds generalizing slot with
  | nil => exact absurd hlt (Nat.not_lt.2 hle)
  | cons kind kinds ih =>
    rw [List.length_cons] at hlt
    rcases Nat.eq_or_lt_of_le hle with rfl | hafter
    · exact readOperands_cons_of_lt hword hinvalid
    · obtain ⟨first, hfirst, hvalid⟩ := hbefore slot (Nat.le_refl _) hafter
      have htail : readOperands wordIn? (slot + 1) kinds = .error (.invalid k word) :=
        ih hafter (by omega) fun earlier hearlier => hbefore earlier (by omega)
      rw [readOperands_cons_of_le hfirst hvalid, htail]
      rfl

/-- Words that all mean something become the operands of their slots. -/
theorem readOperands_of_valid {words : List Word} (hlength : words.length = kinds.length)
    (hwords : ∀ k < kinds.length, wordIn? (slot + k) = words[k]?)
    (hvalid : ∀ word ∈ words, word ≤ Word.registerMax) :
    ∃ operands, readOperands wordIn? slot kinds = .ok operands
      ∧ ∀ k : Nat, operands[k]? = do return ⟨slot + k, ← kinds[k]?, ← words[k]?⟩ := by
  induction kinds generalizing slot words with
  | nil => exact ⟨[], rfl, fun k => rfl⟩
  | cons kind kinds ih =>
    match words with
    | [] => exact absurd hlength (by simp)
    | first :: words =>
      obtain ⟨hfirst, hrest⟩ := List.forall_mem_cons.1 hvalid
      have hshift : ∀ j, slot + 1 + j = slot + (j + 1) := fun j => by omega
      have htail : ∀ k < kinds.length,
          wordIn? (slot + 1 + k) = words[k]? := by
        intro k hk
        rw [hshift]
        exact hwords (k + 1) (Nat.succ_lt_succ hk)
      obtain ⟨operands, hread, hoperands⟩ := ih (Nat.succ.inj hlength) htail hrest
      refine ⟨⟨slot, kind, first⟩ :: operands, ?_, fun k => ?_⟩
      · have hword : wordIn? slot = some first := hwords 0 (Nat.succ_pos _)
        rw [readOperands_cons_of_le hword hfirst, hread]
        rfl
      · cases k with
        | zero => rfl
        | succ k =>
          rw [List.getElem?_cons_succ, hoperands, hshift]
          rfl

end

/-! ## Addresses of 64 bits -/

section

variable {first? : Option Word} {wordIn? other? : Nat → Option Word}

/-- The loop reads the slots it goes over and no others. -/
theorem readOperands_congr {kinds : List SlotKind} {slot : Nat}
    (h : ∀ k, slot ≤ k → k < slot + kinds.length → other? k = wordIn? k) :
    readOperands other? slot kinds = readOperands wordIn? slot kinds := by
  induction kinds generalizing slot with
  | nil => rfl
  | cons kind kinds ih =>
    rw [List.length_cons] at h
    have htail : readOperands other? (slot + 1) kinds = readOperands wordIn? (slot + 1) kinds :=
      ih fun k hle hlt => h k (by omega) (by omega)
    rw [readOperands, readOperands, h slot (Nat.le_refl _) (by omega), htail]

/-- Decoding reads the slots of an operation only if the bytes of all of them are there. -/
theorem decodeWords_congr {address : Address} {available : Nat}
    (h : ∀ operation : Operation, operation.length ≤ available →
      ∀ slot < operation.arity, other? slot = wordIn? slot) :
    decodeWords address available first? other? = decodeWords address available first? wordIn? := by
  unfold decodeWords
  split
  · rfl
  · cases first? with
    | none => rfl
    | some word =>
      cases hoperation : Operation.ofOpcode? word with
      | none => simp only [hoperation]
      | some operation =>
        simp only [hoperation]
        split
        · rfl
        · next hfits =>
          rw [readOperands_congr fun slot _ hslot =>
            h operation (Nat.le_of_not_lt hfits) slot (by rwa [Nat.zero_add] at hslot)]

end

/-- The word at an address of 64 bits, unless its end has no such address. -/
def fixedWordAt? (image : Image) (place : UInt64) : Option Word :=
  if place.toNat + Word.size < UInt64.size then image.wordAt? ⟨place.toNat⟩ else none

/-- Reading in place with addresses of 64 bits. The address of a slot is found by addition that
wraps around. -/
def decodeFixed (image : Image) (place : UInt64) : Except DecodeError Instruction :=
  decodeWords ⟨place.toNat⟩ (image.remaining ⟨place.toNat⟩) (image.fixedWordAt? place)
    fun slot => image.fixedWordAt? (place + UInt64.ofNat (Word.size * (slot + 1)))

section

variable {image : Image}

theorem fixedWordAt?_eq (hlength : image.length < UInt64.size) (place : UInt64) :
    image.fixedWordAt? place = image.wordAt? ⟨place.toNat⟩ := by
  unfold fixedWordAt?
  split
  · rfl
  · next hlarge =>
    exact (wordAt?_eq_none_iff.2 (Nat.lt_of_lt_of_le hlength (Nat.le_of_not_lt hlarge))).symm

/-- **No address runs over**, if the bytes of the image can be counted with 64 bits. -/
theorem decodeFixed_eq_decodeInPlace (hlength : image.length < UInt64.size) (place : UInt64) :
    image.decodeFixed place = image.decodeInPlace ⟨place.toNat⟩ := by
  rw [decodeFixed, decodeInPlace, fixedWordAt?_eq hlength]
  refine decodeWords_congr fun operation hfits slot hslot => ?_
  have hinside : place.toNat + Word.size * (slot + 1) < UInt64.size := by
    rw [operation.length_eq, remaining] at hfits
    change 2 + 2 * operation.arity ≤ image.length - place.toNat at hfits
    rw [Word.size]
    omega
  have hplace : (place + UInt64.ofNat (Word.size * (slot + 1))).toNat
      = place.toNat + Word.size * (slot + 1) := by
    rw [UInt64.toNat_add, UInt64.toNat_ofNat', Nat.add_mod_mod]
    exact Nat.mod_eq_of_lt hinside
  rw [fixedWordAt?_eq hlength, hplace]
  rfl

end

/-! ## The order of the answers -/

/-- What decoding has to answer at an address, and when. -/
inductive Shows (image : Image) (address : Address) : Except DecodeError Instruction → Prop
  /-- The address is odd. -/
  | misaligned :
      ¬ address.isAligned →
      Shows image address (.error (.misaligned address))
  /-- The image ends before a whole word. -/
  | noOpcode :
      address.isAligned → image.length < address.offset + 2 →
      Shows image address (.error (.noOpcode address))
  /-- The word is greater than any opcode. -/
  | unknownOpcode {word : Word} :
      address.isAligned → image.wordAt? address = some word → 21 < word →
      Shows image address (.error (.unknownOpcode address word))
  /-- The word is an opcode, but there are too few bytes for the slots. Whether an operand word that
  is there means something does not matter. -/
  | truncated {operation : Operation} :
      address.isAligned → image.wordAt? address = some operation.opcode →
      image.length - address.offset < 2 + 2 * operation.arity →
      Shows image address (.error
        (.truncated address (2 + 2 * operation.arity) (image.length - address.offset)))
  /-- All words are there, and this is the first in a slot that means nothing. -/
  | invalidOperand {operation : Operation} {slot : Nat} {word : Word} :
      address.isAligned → image.wordAt? address = some operation.opcode →
      2 + 2 * operation.arity ≤ image.length - address.offset →
      slot < operation.arity → image.operandWordAt? address slot = some word →
      Word.registerMax < word →
      (∀ earlier < slot, ∀ word, image.operandWordAt? address earlier = some word →
        word ≤ Word.registerMax) →
      Shows image address (.error (.invalidOperand address slot word))
  /-- All words are there, and all mean something. -/
  | instruction {operation : Operation} {words : List Word} :
      address.isAligned → image.wordAt? address = some operation.opcode →
      2 + 2 * operation.arity ≤ image.length - address.offset →
      words.length = operation.arity →
      (∀ slot < operation.arity, image.operandWordAt? address slot = words[slot]?) →
      (∀ word ∈ words, word ≤ Word.registerMax) →
      Shows image address (.ok ⟨address, operation, Operand.fill operation.slots words⟩)

variable {image : Image} {address : Address}

/-- Reading in place answers as it has to. -/
theorem Shows.decodeInPlace_eq {result : Except DecodeError Instruction}
    (h : image.Shows address result) : image.decodeInPlace address = result := by
  unfold decodeInPlace decodeWords
  cases h with
  | misaligned hodd => simp [hodd]
  | noOpcode haligned hshort => simp [haligned, wordAt?_eq_none_iff.2 hshort]
  | unknownOpcode haligned hword hlarge =>
    simp [haligned, hword, Operation.ofOpcode?_eq_none_iff.2 hlarge]
  | truncated haligned hopcode hshort =>
    simp [haligned, hopcode, remaining, Operation.length_eq, hshort]
  | @invalidOperand operation slot word haligned hopcode hfits hslot hword hinvalid hbefore =>
    have hread : readOperands (image.operandWordAt? address) 0 operation.slots
        = .error (.invalid slot word) := by
      refine readOperands_of_invalid (Nat.zero_le _) (by rwa [Nat.zero_add]) ?_ hword hinvalid
      intro earlier _ hearlier
      obtain ⟨first, hfirst⟩ := exists_operandWordAt? hfits (Nat.lt_trans hearlier hslot)
      exact ⟨first, hfirst, hbefore earlier hearlier first hfirst⟩
    simp [haligned, hopcode, remaining, Operation.length_eq, Nat.not_lt.2 hfits, hread]
  | @instruction operation words haligned hopcode hfits hlength hwords hvalid =>
    have hplaces : ∀ slot < operation.arity,
        image.operandWordAt? address (0 + slot) = words[slot]? := by
      intro slot hslot
      rw [Nat.zero_add]
      exact hwords slot hslot
    obtain ⟨operands, hread, hoperands⟩ := readOperands_of_valid hlength hplaces hvalid
    have hfill : operands = Operand.fill operation.slots words := by
      refine List.ext_getElem? fun slot => ?_
      rw [hoperands, Nat.zero_add, Operand.getElem?_fill]
    simp [haligned, hopcode, remaining, Operation.length_eq, Nat.not_lt.2 hfits, hread, hfill]

/-- The words of the window are the words of the image from the address on. -/
theorem getElem?_words_window (image : Image) (address : Address) {index : Nat}
    (hindex : index < 1 + Operation.maxArity) :
    (Instruction.window (image.suffix address)).words[index]?
      = image.wordAt? (address + Word.size * index) := by
  rw [Instruction.window, Operation.maxLength, words_take, List.getElem?_take, if_pos hindex,
    getElem?_words, wordAt?_suffix]

/-- Operand words that were read from their places are answered as they have to be. -/
theorem shows_ofOperandWords {operation : Operation} {words : List Word}
    (haligned : address.isAligned) (hopcode : image.wordAt? address = some operation.opcode)
    (hfits : 2 + 2 * operation.arity ≤ image.length - address.offset)
    (hwords : ∀ slot < operation.arity, image.operandWordAt? address slot = words[slot]?) :
    image.Shows address (Instruction.ofOperandWords address operation words) := by
  simp only [Instruction.ofOperandWords]
  split
  · next operand hfind =>
    obtain ⟨hinvalid, slot, hlt, hoperand, hbefore⟩ := List.find?_eq_some_iff_getElem.1 hfind
    have hslot := Operand.eq_of_getElem?_fill (List.getElem?_eq_some_iff.2 ⟨hlt, hoperand⟩)
    obtain ⟨hindex, harity, hword⟩ := hslot
    rw [hindex]
    refine .invalidOperand haligned hopcode hfits harity ((hwords slot harity).trans hword)
      (by simpa [Operand.isValid] using hinvalid) fun earlier hearlier word hread => ?_
    have hlt' := Nat.lt_trans hearlier hlt
    obtain ⟨-, -, hword'⟩ := Operand.eq_of_getElem?_fill (List.getElem?_eq_getElem hlt')
    rw [hwords earlier (Nat.lt_trans hearlier harity), hword', Option.some.injEq] at hread
    rw [← hread]
    simpa [Operand.isValid] using hbefore earlier hearlier
  · next hfind =>
    have hlength : operation.arity ≤ words.length := by
      refine Nat.le_of_not_lt fun hlt => ?_
      obtain ⟨word, hword⟩ := exists_operandWordAt? hfits hlt
      rw [hwords words.length hlt, List.getElem?_eq_none (Nat.le_refl _)] at hword
      exact absurd hword (by simp)
    have hvalid : ∀ word ∈ words.take operation.arity, word ≤ Word.registerMax := by
      intro word hmem
      rw [Operation.arity, ← Operand.map_word_fill] at hmem
      obtain ⟨operand, hoperand, rfl⟩ := List.mem_map.1 hmem
      exact (Operand.isValid_iff operand).1 (by simpa using List.find?_eq_none.1 hfind _ hoperand)
    have hfill := Operand.fill_take operation.slots words
    rw [← hfill]
    refine .instruction haligned hopcode hfits (List.length_take_of_le hlength)
      (fun slot hslot => ?_) hvalid
    rw [hwords slot hslot]
    exact (List.getElem?_take_of_lt hslot).symm

/-- A window is as long as any instruction can be, or cut off by the end of the image. -/
theorem length_window (image : Image) (address : Address) :
    (Instruction.window (image.suffix address)).length = min 8 (image.length - address.offset) := by
  rw [Instruction.window, List.length_take, suffix, List.length_drop]
  rfl

/-- The first word of the window is the word at the address, and the others are those in the
slots. -/
theorem wordAt?_of_words_window {word : Word} {operandWords : List Word}
    (hwords : (Instruction.window (image.suffix address)).words = word :: operandWords) :
    image.wordAt? address = some word
      ∧ ∀ slot < Operation.maxArity, image.operandWordAt? address slot = operandWords[slot]? := by
  constructor
  · have hfirst := getElem?_words_window image address (Nat.succ_pos Operation.maxArity)
    rw [hwords] at hfirst
    exact hfirst.symm
  · intro slot hslot
    have hindex : slot + 1 < 1 + Operation.maxArity := by omega
    have hread := getElem?_words_window image address hindex
    rw [hwords, List.getElem?_cons_succ] at hread
    exact hread.symm

/-- So does reading in a window. -/
theorem shows_decode (image : Image) (address : Address) :
    image.Shows address (image.decode address) := by
  have hwindow := length_window image address
  unfold decode Instruction.ofBytes
  split
  case isFalse hodd => exact .misaligned hodd
  case isTrue haligned =>
    unfold Instruction.ofWindow
    split
    · next hnil =>
      have hshort := words_eq_nil_iff.1 hnil
      rw [hwindow, Word.size] at hshort
      exact .noOpcode haligned (by omega)
    · next word operandWords hwords =>
      obtain ⟨hword, hslots⟩ := wordAt?_of_words_window hwords
      split
      · next hnone => exact .unknownOpcode haligned hword (Operation.ofOpcode?_eq_none_iff.1 hnone)
      · next operation hoperation =>
        have harity := operation.arity_le_maxArity
        have hlarge : operation.arity ≤ 3 := harity
        rw [Operation.eq_opcode_of_ofOpcode? hoperation] at hword
        rw [hwindow, operation.length_eq]
        split
        · next hshort =>
          -- a window that is too short for an instruction was cut off by the end of the image
          have hall : min 8 (image.length - address.offset) = image.length - address.offset := by
            omega
          rw [hall] at hshort ⊢
          exact .truncated haligned hword hshort
        · next hfits =>
          exact shows_ofOperandWords haligned hword (by omega) fun slot hslot =>
            hslots slot (Nat.lt_of_lt_of_le hslot harity)

/-- The two ways to decode agree. -/
theorem decodeInPlace_eq_decode (image : Image) (address : Address) :
    image.decodeInPlace address = image.decode address :=
  (shows_decode image address).decodeInPlace_eq

theorem decodeFixed_eq_decode (hlength : image.length < UInt64.size) (place : UInt64) :
    image.decodeFixed place = image.decode ⟨place.toNat⟩ :=
  (decodeFixed_eq_decodeInPlace hlength place).trans (decodeInPlace_eq_decode _ _)

/-- An address shows what decoding answers there and nothing else. -/
theorem shows_iff {result : Except DecodeError Instruction} :
    image.Shows address result ↔ image.decode address = result := by
  constructor
  · intro h
    rw [← decodeInPlace_eq_decode, h.decodeInPlace_eq]
  · rintro rfl
    exact shows_decode image address

theorem Shows.address_eq {error : DecodeError} (h : image.Shows address (.error error)) :
    error.address = address := by
  cases h <;> rfl

/--
**Every address falls under exactly one case.**

The conditions of `Shows` exclude each other and leave nothing out, and decoding gives the
answer of the one that applies. Every error names the address that was asked about. Reading
the words in place gives the same answers, also with addresses of 64 bits, and once the
bytes of an instruction are known to be there, its loop over the slots never finds one
missing.
-/
theorem decode_classified (image : Image) (address : Address) :
    (∃! result, image.Shows address result)
    ∧ image.Shows address (image.decode address)
    ∧ (∀ error, image.decode address = .error error → error.address = address)
    ∧ image.decodeInPlace address = image.decode address
    ∧ (image.length < UInt64.size → ∀ place : UInt64, address = ⟨place.toNat⟩ →
        image.decodeFixed place = image.decode address)
    ∧ ∀ operation : Operation, image.wordAt? address = some operation.opcode →
        operation.length ≤ image.remaining address →
          readOperands (image.operandWordAt? address) 0 operation.slots ≠ .error .missing := by
  refine ⟨?_, shows_decode image address, ?_, decodeInPlace_eq_decode image address, ?_, ?_⟩
  · exact ⟨_, shows_decode image address, fun result h => (shows_iff.1 h).symm⟩
  · intro error herror
    exact (shows_iff.2 herror).address_eq
  · rintro hlength place rfl
    exact decodeFixed_eq_decode hlength place
  · intro operation _ hfits
    rw [operation.length_eq] at hfits
    refine readOperands_ne_missing fun slot _ hslot => ?_
    rw [Nat.zero_add] at hslot
    exact exists_operandWordAt? hfits hslot

/-- An operand word that means nothing is reported only if all words are there. Here it is, and one
word is missing. -/
theorem decode_classified_add :
    Image.Shows [9, 0, 0, 128, 255, 255] ⟨0⟩ (.error (.truncated ⟨0⟩ 8 6))
      ∧ DecodeError.address (.truncated ⟨0⟩ 8 6) = ⟨0⟩
      ∧ Image.decodeInPlace [9, 0, 0, 128, 255, 255, 1, 0] ⟨0⟩
        = .error (.invalidOperand ⟨0⟩ 1 65535)
      ∧ Image.decodeFixed [9, 0, 0, 128, 255, 255, 1, 0] 0 = .error (.invalidOperand ⟨0⟩ 1 65535)
      ∧ readOperands (operandWordAt? [9, 0, 0, 128, 255, 255, 1, 0] ⟨0⟩) 0 Operation.add.slots
        ≠ .error .missing := by
  obtain ⟨-, hshows, haddress, -⟩ := decode_classified [9, 0, 0, 128, 255, 255] ⟨0⟩
  obtain ⟨-, -, -, hinPlace, hfixed, hloop⟩ :=
    decode_classified [9, 0, 0, 128, 255, 255, 1, 0] ⟨0⟩
  exact ⟨hshows, haddress _ rfl, hinPlace, hfixed (by decide) 0 rfl, hloop .add rfl (by decide)⟩

end Image

end WordMachine
