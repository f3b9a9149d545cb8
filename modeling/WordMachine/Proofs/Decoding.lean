import WordMachine.Decoding

/-!
# Decoding undoes encoding, wherever an instruction lies

`Instruction.ofBytes_eq_ok_iff` says all there is to say about a successful decoding:
the address is aligned, the instruction is well formed, and its encoding is what the
bytes begin with. Neither the bytes before the address nor those behind the
instruction appear in it, so both directions of the inverse hold in any context.

Whether a register slot holds a register is no part of being well formed. The decoder
asks only that every operand word means something.
-/

namespace WordMachine

/-! ## The words in a string of bytes -/

namespace Image

theorem length_words : ∀ bytes : Image, bytes.words.length = bytes.length / Word.size
  | [] => rfl
  | [_] => by simp [words, Word.size]
  | low :: high :: rest => by
    rw [words, List.length_cons, length_words rest, List.length_cons, List.length_cons]
    simp only [Word.size]
    omega

/-- As far as whole words reach, writing back the words that were read gives the bytes. -/
theorem ofWords_take_words (bytes : Image) (count : Nat) (h : Word.size * count ≤ bytes.length) :
    ofWords (bytes.words.take count) = bytes.take (Word.size * count) := by
  induction count generalizing bytes with
  | zero => simp
  | succ count ih =>
    match bytes with
    | [] => exact absurd h (by simp [Word.size])
    | [_] => exact absurd h (by simp only [Word.size, List.length_singleton]; omega)
    | low :: high :: rest =>
      have hrest : Word.size * count ≤ rest.length := by
        simp only [Word.size, List.length_cons] at h ⊢
        omega
      rw [words, List.take_succ_cons, ofWords_cons, Word.bytes_ofBytes, ih rest hrest, Nat.mul_succ]
      rfl

end Image

/-! ## Opcodes -/

namespace Operation

/-- Opcodes number the operations as `all` lists them. -/
theorem toNat_opcode_of_ofNumber? {number : Nat} {operation : Operation}
    (h : ofNumber? number = some operation) : operation.opcode.toNat = number := by
  have htable : ∀ number < all.length, (all[number]?).map (·.opcode.toNat) = some number := by
    decide
  obtain ⟨hlt, _⟩ := List.getElem?_eq_some_iff.1 h
  have hnumber := htable number hlt
  rw [show all[number]? = some operation from h] at hnumber
  exact Option.some.inj hnumber

/-- A word is the opcode of at most one operation. -/
theorem eq_opcode_of_ofOpcode? {word : Word} {operation : Operation}
    (h : ofOpcode? word = some operation) : word = operation.opcode :=
  UInt16.toNat_inj.1 (toNat_opcode_of_ofNumber? h).symm

end Operation

/-! ## Operands that fill the slots -/

namespace Operand

/-- Words beyond the last slot fill nothing. -/
theorem fill_take (kinds : List SlotKind) (words : List Word) :
    fill kinds (words.take kinds.length) = fill kinds words := by
  refine List.ext_getElem? fun slot => ?_
  rw [getElem?_fill, getElem?_fill, List.getElem?_take]
  by_cases hslot : slot < kinds.length
  · rw [if_pos hslot]
  · rw [List.getElem?_eq_none (Nat.le_of_not_lt hslot)]
    rfl

theorem map_word_fill (kinds : List SlotKind) (words : List Word) :
    (fill kinds words).map word = words.take kinds.length := by
  refine List.ext_getElem? fun slot => ?_
  rw [List.getElem?_map, getElem?_fill, List.getElem?_take]
  by_cases hslot : slot < kinds.length
  · rw [if_pos hslot, List.getElem?_eq_getElem hslot]
    cases words[slot]? <;> rfl
  · rw [if_neg hslot, List.getElem?_eq_none (Nat.le_of_not_lt hslot)]
    rfl

theorem isValid_iff (operand : Operand) : operand.isValid ↔ operand.word ≤ Word.registerMax := by
  simp [isValid]

end Operand

/-- An instruction takes whole words, so what comes next is aligned if it is. -/
theorem Address.isAligned_add_length {address : Address} (h : address.isAligned)
    (instruction : Instruction) : (address + instruction.length).isAligned := by
  simp only [isAligned, Address.offset_add, Instruction.length, Operation.length, Word.size,
    beq_iff_eq] at h ⊢
  omega

namespace Instruction

/-- The instruction has one operand for each slot of its operation, as decoding makes them. -/
structure WellFormed (instruction : Instruction) : Prop where
  /-- There are as many operands as slots. -/
  length_operands : instruction.operands.length = instruction.operation.arity
  /-- Each operand knows its slot and the slot's kind, and its word means something. -/
  operand : ∀ (slot : Nat) (operand : Operand), instruction.operands[slot]? = some operand →
    operand.index = slot ∧ instruction.operation.slots[slot]? = some operand.kind
      ∧ operand.word ≤ Word.registerMax

/-- The operation and the operand words determine a well formed instruction. -/
theorem WellFormed.operands_eq_fill {instruction : Instruction} (h : instruction.WellFormed) :
    instruction.operands
      = Operand.fill instruction.operation.slots (instruction.operands.map Operand.word) := by
  refine List.ext_getElem? fun slot => ?_
  rw [Operand.getElem?_fill, List.getElem?_map]
  cases hslot : instruction.operands[slot]? with
  | none => cases instruction.operation.slots[slot]? <;> rfl
  | some operand =>
    obtain ⟨hindex, hkind, _⟩ := h.operand slot operand hslot
    rw [hkind, ← hindex]
    rfl

theorem wellFormed_fill {address : Address} {operation : Operation} {words : List Word}
    (hlength : operation.arity ≤ words.length)
    (hvalid : ∀ operand ∈ Operand.fill operation.slots words, operand.isValid) :
    WellFormed ⟨address, operation, Operand.fill operation.slots words⟩ := by
  constructor
  · rw [Operand.length_fill]
    exact Nat.min_eq_left hlength
  · intro slot operand hoperand
    have hword := (Operand.isValid_iff operand).1 (hvalid operand (List.mem_of_getElem? hoperand))
    simp only [Operand.getElem?_fill, Option.bind_eq_bind, Option.bind_eq_some_iff,
      Option.pure_def, Option.some.injEq] at hoperand
    obtain ⟨kind, hkind, word, _, rfl⟩ := hoperand
    exact ⟨rfl, hkind, hword⟩

@[simp] theorem length_encode (instruction : Instruction) :
    instruction.encode.length = Word.size * (1 + instruction.operands.length) := by
  rw [encode, words, Image.length_ofWords, List.length_cons, List.length_map, Nat.add_comm]

theorem WellFormed.length_encode {instruction : Instruction} (h : instruction.WellFormed) :
    instruction.encode.length = instruction.length := by
  rw [Instruction.length_encode, h.length_operands]
  rfl

/-! ## When decoding succeeds -/

/-- The window is wide enough for any instruction. -/
theorem take_window (operation : Operation) (bytes : Image) :
    (window bytes).take operation.length = bytes.take operation.length := by
  rw [window, List.take_take, Nat.min_eq_left operation.length_le_maxLength]

theorem ofOperandWords_eq_ok {address : Address} {operation : Operation} {words : List Word}
    {instruction : Instruction} (h : ofOperandWords address operation words = .ok instruction) :
    instruction = ⟨address, operation, Operand.fill operation.slots words⟩
      ∧ ∀ operand ∈ Operand.fill operation.slots words, operand.isValid := by
  simp only [ofOperandWords] at h
  split at h
  · exact absurd h (by simp)
  · next hfind =>
    refine ⟨(Except.ok.inj h).symm, fun operand hmem => ?_⟩
    simpa using List.find?_eq_none.1 hfind operand hmem

theorem ofOperandWords_of_valid {address : Address} {operation : Operation} {words : List Word}
    (h : ∀ operand ∈ Operand.fill operation.slots words, operand.isValid) :
    ofOperandWords address operation words
      = .ok ⟨address, operation, Operand.fill operation.slots words⟩ := by
  have hfind : (Operand.fill operation.slots words).find? (!·.isValid) = none :=
    List.find?_eq_none.2 fun operand hmem => by simp [h operand hmem]
  rw [ofOperandWords, hfind]

/-- What decoding has read when it succeeds: an opcode and, after it, words enough for the slots. -/
theorem ofWindow_eq_ok {address : Address} {bytes : Image} {instruction : Instruction}
    (h : ofWindow address bytes = .ok instruction) :
    ∃ operandWords, bytes.words = instruction.operation.opcode :: operandWords
      ∧ instruction.operation.length ≤ bytes.length
      ∧ ofOperandWords address instruction.operation operandWords = .ok instruction := by
  unfold ofWindow at h
  split at h
  · exact absurd h (by simp)
  · next word operandWords hwords =>
    split at h
    · exact absurd h (by simp)
    · next operation hoperation =>
      split at h
      · exact absurd h (by simp)
      · next hlength =>
        obtain ⟨rfl, _⟩ := ofOperandWords_eq_ok h
        rw [Operation.eq_opcode_of_ofOpcode? hoperation] at hwords
        exact ⟨operandWords, hwords, Nat.le_of_not_lt hlength, h⟩

theorem ofWindow_of_words {address : Address} {bytes : Image} {operation : Operation}
    {operandWords : List Word} (hwords : bytes.words = operation.opcode :: operandWords)
    (hlength : operation.length ≤ bytes.length) :
    ofWindow address bytes = ofOperandWords address operation operandWords := by
  rw [ofWindow, hwords]
  simp only [Operation.ofOpcode?_opcode]
  rw [if_neg (Nat.not_lt.2 hlength)]

/-- What is decoded from a window is well formed, and its encoding starts the window. -/
theorem encode_of_ofWindow_eq_ok {address : Address} {bytes : Image} {instruction : Instruction}
    (h : ofWindow address bytes = .ok instruction) :
    instruction.address = address ∧ instruction.WellFormed
      ∧ instruction.encode = bytes.take instruction.length := by
  obtain ⟨operandWords, hwords, hlength, hok⟩ := ofWindow_eq_ok h
  obtain ⟨heq, hvalid⟩ := ofOperandWords_eq_ok hok
  have hcount := Image.length_words bytes
  rw [hwords, List.length_cons] at hcount
  have harity : instruction.operation.arity ≤ operandWords.length := by
    simp only [Operation.length, Word.size] at hlength hcount
    omega
  refine ⟨by rw [heq], heq ▸ wellFormed_fill harity hvalid, ?_⟩
  -- the opcode and the operand words are the first words of the window
  have hfirst : instruction.words = bytes.words.take (1 + instruction.operation.arity) := by
    rw [hwords, Nat.add_comm, List.take_succ_cons, words]
    congr 1
    calc instruction.operands.map Operand.word
        = (Operand.fill instruction.operation.slots operandWords).map Operand.word := by
          rw [congrArg operands heq]
      _ = operandWords.take instruction.operation.arity := Operand.map_word_fill _ _
  rw [encode, hfirst, Image.ofWords_take_words _ _ hlength]
  rfl

/-- The encoding of a well formed instruction is decoded, whatever comes after it. -/
theorem WellFormed.ofWindow_encode {instruction : Instruction} (h : instruction.WellFormed)
    (post : Image) :
    ofWindow instruction.address (instruction.encode ++ post) = .ok instruction := by
  have hwords : (instruction.encode ++ post).words
      = instruction.operation.opcode :: (instruction.operands.map Operand.word ++ post.words) := by
    rw [encode, Image.words_ofWords_append]
    rfl
  have hlength : instruction.operation.length ≤ (instruction.encode ++ post).length := by
    rw [List.length_append, h.length_encode]
    exact Nat.le_add_right _ _
  have hfill : Operand.fill instruction.operation.slots
      (instruction.operands.map Operand.word ++ post.words) = instruction.operands := by
    have harity : instruction.operation.slots.length
        = (instruction.operands.map Operand.word).length := by
      rw [List.length_map, h.length_operands]
      rfl
    rw [← Operand.fill_take, harity, List.take_left, ← h.operands_eq_fill]
  rw [ofWindow_of_words hwords hlength, ofOperandWords_of_valid, hfill]
  rw [hfill]
  intro operand hmem
  obtain ⟨slot, hslot⟩ := List.getElem?_of_mem hmem
  exact (Operand.isValid_iff operand).2 (h.operand slot operand hslot).2.2

/-- **When decoding succeeds.** The bytes begin with the encoding of the instruction, which is well
formed and lies at an aligned address. -/
theorem ofBytes_eq_ok_iff {address : Address} {bytes : Image} {instruction : Instruction} :
    ofBytes address bytes = .ok instruction
      ↔ address.isAligned ∧ instruction.address = address ∧ instruction.WellFormed
        ∧ instruction.encode <+: bytes := by
  constructor
  · intro h
    rw [ofBytes] at h
    split at h
    · next haligned =>
      obtain ⟨haddress, hformed, hencode⟩ := encode_of_ofWindow_eq_ok h
      rw [length, take_window] at hencode
      exact ⟨haligned, haddress, hformed, hencode ▸ List.take_prefix _ _⟩
    · exact absurd h (by simp)
  · rintro ⟨haligned, rfl, hformed, post, rfl⟩
    -- the encoding fits the window, which may cut off some of what comes after it
    have hwindow : window (instruction.encode ++ post)
        = instruction.encode ++ post.take (Operation.maxLength - instruction.length) := by
      have hle : instruction.encode.length ≤ Operation.maxLength := by
        rw [hformed.length_encode]
        exact instruction.operation.length_le_maxLength
      rw [window, List.take_append, List.take_of_length_le hle, hformed.length_encode]
    rw [ofBytes, if_pos haligned, hwindow, hformed.ofWindow_encode]

end Instruction

/-! ## When there is no instruction to begin with -/

theorem Image.words_eq_nil_iff {bytes : Image} : bytes.words = [] ↔ bytes.length < Word.size := by
  rw [← List.length_eq_zero_iff, Image.length_words, Nat.div_eq_zero_iff_lt (by decide)]

namespace Instruction

/-- Among the words of a window decoding finds an instruction or a reason that lies in a word. -/
theorem ofOperandWords_error {address : Address} {operation : Operation} {words : List Word}
    {error : DecodeError} (h : ofOperandWords address operation words = .error error) :
    ∃ index word, error = .invalidOperand address index word := by
  simp only [ofOperandWords] at h
  split at h
  · next operand _ => exact ⟨operand.index, operand.word, (Except.error.inj h).symm⟩
  · exact absurd h (by simp)

/-- A window has no opcode exactly if it has no word. -/
theorem ofWindow_eq_noOpcode_iff {address place : Address} {bytes : Image} :
    ofWindow address bytes = .error (.noOpcode place)
      ↔ place = address ∧ bytes.length < Word.size := by
  rw [← Image.words_eq_nil_iff]
  constructor
  · intro h
    unfold ofWindow at h
    split at h
    · next hwords =>
      injection h with h
      injection h with h
      exact ⟨h.symm, hwords⟩
    · split at h
      · exact absurd h (by simp)
      · split at h
        · exact absurd h (by simp)
        · obtain ⟨index, word, hinvalid⟩ := ofOperandWords_error h
          exact absurd hinvalid (by simp)
  · rintro ⟨rfl, hwords⟩
    rw [ofWindow, hwords]

theorem ofWindow_ne_misaligned {address place : Address} {bytes : Image} :
    ofWindow address bytes ≠ .error (.misaligned place) := by
  intro h
  unfold ofWindow at h
  split at h
  · exact absurd h (by simp)
  · split at h
    · exact absurd h (by simp)
    · split at h
      · exact absurd h (by simp)
      · obtain ⟨index, word, hinvalid⟩ := ofOperandWords_error h
        exact absurd hinvalid (by simp)

end Instruction

/-! ## In an image -/

namespace Image

/-- Decoding asks for an aligned address before it looks at any byte. -/
theorem decode_eq_misaligned_iff {image : Image} {address place : Address} :
    image.decode address = .error (.misaligned place) ↔ place = address ∧ ¬ address.isAligned := by
  unfold decode Instruction.ofBytes
  split
  · next haligned =>
    exact ⟨fun h => absurd h Instruction.ofWindow_ne_misaligned, fun h => absurd haligned h.2⟩
  · next haligned =>
    simp only [Except.error.injEq, DecodeError.misaligned.injEq]
    exact ⟨fun h => ⟨h.symm, haligned⟩, fun h => h.1.symm⟩

/-- There is no opcode at an aligned address exactly if no whole word is left there. -/
theorem decode_eq_noOpcode_iff {image : Image} {address place : Address} :
    image.decode address = .error (.noOpcode place)
      ↔ place = address ∧ address.isAligned ∧ image.length < address.offset + Word.size := by
  have hwindow : (Instruction.window (image.suffix address)).length < Word.size
      ↔ image.length < address.offset + Word.size := by
    simp only [Instruction.window, suffix, List.length_take, List.length_drop,
      show Operation.maxLength = 8 from rfl, Word.size]
    omega
  unfold decode Instruction.ofBytes
  split
  · next haligned =>
    rw [Instruction.ofWindow_eq_noOpcode_iff, hwindow]
    exact ⟨fun h => ⟨h.1, haligned, h.2⟩, fun h => ⟨h.1, h.2.2⟩⟩
  · next haligned =>
    exact ⟨fun h => absurd h (by simp), fun h => absurd h.2.1 haligned⟩

/-- An image holds an instruction where the instruction's encoding lies. -/
theorem decode_eq_ok_iff {image : Image} {address : Address} {instruction : Instruction} :
    image.decode address = .ok instruction
      ↔ address.isAligned ∧ instruction.address = address ∧ instruction.WellFormed
        ∧ instruction.encode <+: image.suffix address :=
  Instruction.ofBytes_eq_ok_iff

/-- A decoded instruction ends inside its image. -/
theorem le_length_of_decode_eq_ok {image : Image} {address : Address} {instruction : Instruction}
    (h : image.decode address = .ok instruction) :
    address.offset + instruction.length ≤ image.length := by
  obtain ⟨_, _, hformed, hprefix⟩ := decode_eq_ok_iff.1 h
  have hle := hprefix.length_le
  have hpos : 0 < instruction.length := Nat.mul_pos (by decide) (by omega)
  rw [hformed.length_encode, suffix, List.length_drop] at hle
  omega

/-- Its bytes are those of the image where it was decoded. -/
theorem encode_eq_slice {image : Image} {address : Address} {instruction : Instruction}
    (h : image.decode address = .ok instruction) :
    instruction.encode = image.slice address.offset instruction.length := by
  obtain ⟨_, _, hformed, hprefix⟩ := decode_eq_ok_iff.1 h
  rw [slice, ← hformed.length_encode]
  exact List.prefix_iff_eq_take.1 hprefix

/--
**Decoding and encoding are inverse in both directions, in any context.**

An instruction decoded from an image says where it was found, is well formed, lies
inside the image and encodes to the very bytes it was decoded from. Conversely the
opcode and the operand words of an instruction, written at an aligned address, decode
to that instruction, whatever lies before and behind them.
-/
theorem decode_encode_inverse :
    (∀ (image : Image) (address : Address) (instruction : Instruction),
      image.decode address = .ok instruction →
        instruction.address = address
          ∧ instruction.WellFormed
          ∧ address.offset + instruction.length ≤ image.length
          ∧ instruction.encode = image.slice address.offset instruction.length)
    ∧ ∀ (operation : Operation) (words : List Word) (address : Address) (pre post : Image),
        words.length = operation.arity → (∀ word ∈ words, word ≤ Word.registerMax) →
        address.isAligned → pre.length = address.offset →
          (pre ++ ofWords (operation.opcode :: words) ++ post).decode address
            = .ok ⟨address, operation, Operand.fill operation.slots words⟩ := by
  constructor
  · intro image address instruction h
    obtain ⟨_, haddress, hformed, hprefix⟩ := decode_eq_ok_iff.1 h
    refine ⟨haddress, hformed, ?_, ?_⟩
    · have hle := hprefix.length_le
      have hpos : 0 < instruction.length := Nat.mul_pos (by decide) (by omega)
      rw [hformed.length_encode, suffix, List.length_drop] at hle
      omega
    · have htake := List.prefix_iff_eq_take.1 hprefix
      rwa [hformed.length_encode] at htake
  · intro operation words address pre post hlength hwords haligned hpre
    have hformed : Instruction.WellFormed
        ⟨address, operation, Operand.fill operation.slots words⟩ := by
      refine Instruction.wellFormed_fill (Nat.le_of_eq hlength.symm) fun operand hmem => ?_
      have hword : operand.word ∈ (Operand.fill operation.slots words).map Operand.word :=
        List.mem_map_of_mem hmem
      rw [Operand.map_word_fill] at hword
      exact (Operand.isValid_iff operand).2 (hwords _ (List.mem_of_mem_take hword))
    refine decode_eq_ok_iff.2 ⟨haligned, rfl, hformed, ?_⟩
    have hencode : Instruction.encode ⟨address, operation, Operand.fill operation.slots words⟩
        = ofWords (operation.opcode :: words) := by
      have hall : words.take operation.slots.length = words :=
        List.take_of_length_le (Nat.le_of_eq hlength)
      rw [Instruction.encode, Instruction.words, Operand.map_word_fill, hall]
    rw [hencode, suffix, ← hpre, List.append_assoc, List.drop_left]
    exact List.prefix_append _ _

/-- A number in a register slot decodes like any other word, here at the very end of an image. -/
theorem decode_encode_inverse_set :
    decode [255, 255, 1, 0, 5, 0, 7, 128] ⟨2⟩
        = .ok ⟨⟨2⟩, .set, [⟨0, .register, 5⟩, ⟨1, .value, 32775⟩]⟩
      ∧ Instruction.encode ⟨⟨2⟩, .set, [⟨0, .register, 5⟩, ⟨1, .value, 32775⟩]⟩
        = [1, 0, 5, 0, 7, 128] := by
  have hwords : ∀ word ∈ [5, 32775], word ≤ Word.registerMax := by simp [Word.registerMax]
  have hdecode := decode_encode_inverse.2 .set [5, 32775] ⟨2⟩ [255, 255] [] rfl hwords rfl rfl
  exact ⟨hdecode, (decode_encode_inverse.1 _ _ _ hdecode).2.2.2⟩

end Image

end WordMachine
