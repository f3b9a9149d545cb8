import WordMachine.Proofs.Decoding
import WordMachine.Proofs.InstructionText
import WordMachine.Proofs.OperandWord

/-!
# What assembly produces, and what it makes of disassembly

An accepted line yields the encoding of an instruction that is well formed and whose
words its slots accept. Conversely the text of such an instruction is accepted and
yields its encoding. The two together make assembly the inverse of disassembly, up to
numbers in register slots: those decode and have a text, and that text is refused.

A listing is assembled line by line, so its outcome is put together from those of any
two parts of it.
-/

namespace WordMachine

/-! ## Instructions that assembly can produce -/

namespace Instruction

/-- The instruction is well formed and each slot accepts its word. -/
structure IsAssemblable (instruction : Instruction) : Prop where
  wellFormed : instruction.WellFormed
  accepts : ∀ operand ∈ instruction.operands, operand.kind.Accepts operand.word

/-- A number stands where only a register can. -/
def MisplacesNumber (instruction : Instruction) : Prop :=
  ∃ operand ∈ instruction.operands, operand.kind = .register ∧ operand.isLiteral

instance (instruction : Instruction) : Decidable instruction.MisplacesNumber :=
  inferInstanceAs (Decidable (∃ operand ∈ instruction.operands, _))

theorem WellFormed.map_kind {instruction : Instruction} (h : instruction.WellFormed) :
    instruction.operands.map Operand.kind = instruction.operation.slots := by
  refine List.ext_getElem? fun slot => ?_
  rw [List.getElem?_map]
  cases hslot : instruction.operands[slot]? with
  | none =>
    have hle := List.getElem?_eq_none_iff.1 hslot
    rw [h.length_operands] at hle
    exact (List.getElem?_eq_none hle).symm
  | some operand => exact (h.operand slot operand hslot).2.1.symm

theorem WellFormed.word_le {instruction : Instruction} (h : instruction.WellFormed)
    {operand : Operand} (hmem : operand ∈ instruction.operands) :
    operand.word ≤ Word.registerMax := by
  obtain ⟨slot, hslot⟩ := List.getElem?_of_mem hmem
  exact (h.operand slot operand hslot).2.2

/-- What assembly cannot write of all that can be decoded are the misplaced numbers. -/
theorem isAssemblable_iff {instruction : Instruction} :
    instruction.IsAssemblable ↔ instruction.WellFormed ∧ ¬ instruction.MisplacesNumber := by
  constructor
  · intro h
    refine ⟨h.wellFormed, ?_⟩
    rintro ⟨operand, hmem, hkind, hliteral⟩
    rcases h.accepts operand hmem with ⟨_, hfree⟩ | ⟨register, hword⟩
    · rw [hkind] at hfree
      exact absurd hfree (by decide)
    · refine register.not_toWord_le_literalMax ?_
      rw [← hword]
      exact Operand.isLiteral_iff.1 hliteral
  · rintro ⟨hformed, hplaced⟩
    refine ⟨hformed, fun operand hmem => ?_⟩
    rcases Word.meaning_cases operand.word with ⟨hliteral, _⟩ | ⟨register, hword, _⟩ | ⟨hmax, _⟩
    · refine Or.inl ⟨hliteral, Bool.eq_false_iff.2 fun hkind => ?_⟩
      refine hplaced ⟨operand, hmem, ?_, Operand.isLiteral_iff.2 hliteral⟩
      exact eq_of_beq hkind
    · exact Or.inr ⟨register, hword⟩
    · exact absurd (hformed.word_le hmem) (UInt16.not_le.2 hmax)

/-- Where only a register can stand, assembly puts one. -/
theorem IsAssemblable.isRegister {instruction : Instruction} (h : instruction.IsAssemblable)
    {operand : Operand} (hmem : operand ∈ instruction.operands) (hkind : operand.kind = .register) :
    operand.isRegister := by
  rcases h.accepts operand hmem with ⟨_, hfree⟩ | ⟨register, hword⟩
  · rw [hkind] at hfree
    exact absurd hfree (by decide)
  · have hbounds := register.toWord_bounds
    simp [Operand.isRegister, hword, hbounds]

end Instruction

/-- Registers are written through the first slot, and only `rmem` allows an address there too. -/
theorem Operation.eq_zero_of_isRegister {operation : Operation} {slot : Nat} {kind : SlotKind}
    (h : operation.slots[slot]? = some kind) (hkind : kind.isRegister) :
    slot = 0 ∧ (kind = .register ∨ operation = .rmem) := by
  have hhead : ∀ kind ∈ operation.slots.head?, kind.isRegister →
      kind = .register ∨ operation = .rmem := by
    cases operation <;> decide
  have htail : ∀ kind ∈ operation.slots.tail, ¬ kind.isRegister := by
    cases operation <;> decide
  cases slot with
  | zero =>
    rw [← List.head?_eq_getElem?] at h
    exact ⟨rfl, hhead kind h hkind⟩
  | succ slot =>
    rw [← List.getElem?_tail] at h
    exact absurd hkind (htail kind (List.mem_of_getElem? h))

namespace Assembly

/-! ## Single lines -/

theorem operationNamed?_mnemonic (operation : Operation) :
    operationNamed? operation.mnemonic.toList = some operation := by
  rw [operationNamed?, String.ofList_toList, Operation.ofMnemonic?_mnemonic]
  rfl

/-- A line is what its text without the blanks at the end is read as. -/
theorem assembleLine_append_blanks {cs blanks : List Char} {line : Line} (h : Text.IsTrimmed cs)
    (hblanks : ∀ c ∈ blanks, Text.isBlank c) (hparse : Line.parse cs = .ok line) :
    assembleLine (cs ++ blanks) = line.words.map Image.ofWords := by
  rw [assembleLine, h.trim_append_blanks hblanks]
  split
  · obtain ⟨c, hc, _⟩ := h.head
    exact absurd hc (by simp)
  · rw [hparse]

/-- Once the operation is known the number of operands must be right, and then the slots decide. -/
theorem Line.words_of_named {line : Line} {operation : Operation}
    (hname : operationNamed? line.mnemonic = some operation) :
    line.words
      = if line.operands.length = operation.arity then
          (operandWords 0 operation.slots line.operands).map (operation.opcode :: ·)
        else .error (.operandCount operation.mnemonic operation.arity line.operands.length) := by
  simp only [Line.words, hname]
  split
  · cases operandWords 0 operation.slots line.operands <;> rfl
  · rfl

/-- What it takes for a line to be accepted. -/
theorem Line.words_eq_ok_iff {line : Line} {words : List Word} :
    line.words = .ok words
      ↔ ∃ operation operands, operationNamed? line.mnemonic = some operation
          ∧ line.operands.length = operation.arity
          ∧ operandWords 0 operation.slots line.operands = .ok operands
          ∧ words = operation.opcode :: operands := by
  constructor
  · intro h
    unfold Line.words at h
    split at h
    · exact absurd h (by simp)
    · next operation hname =>
      split at h
      · next hlength =>
        obtain ⟨operands, hoperands, h⟩ := bind_eq_ok_iff.1 h
        exact ⟨operation, operands, hname, hlength, hoperands, (Except.ok.inj h).symm⟩
      · exact absurd h (by simp)
  · rintro ⟨operation, operands, hname, hlength, hoperands, rfl⟩
    rw [Line.words_of_named hname, if_pos hlength, hoperands]
    rfl

/-- An accepted line describes an instruction that can be written in assembly. -/
theorem Line.words_eq_ok {line : Line} {words : List Word} (h : line.words = .ok words) :
    ∃ instruction : Instruction, instruction.IsAssemblable ∧ words = instruction.words := by
  obtain ⟨operation, operandWords, -, hlength, hwords, rfl⟩ := Line.words_eq_ok_iff.1 h
  obtain ⟨hcount, haccepts⟩ := accepts_of_operandWords_eq_ok hwords hlength
  have hfill : ∀ operand ∈ Operand.fill operation.slots operandWords,
      operand.kind.Accepts operand.word := by
    intro operand hmem
    obtain ⟨slot, hslot⟩ := List.getElem?_of_mem hmem
    simp only [Operand.getElem?_fill, Option.bind_eq_bind, Option.bind_eq_some_iff,
      Option.pure_def, Option.some.injEq] at hslot
    obtain ⟨kind, hkind, word, hword, rfl⟩ := hslot
    exact haccepts slot kind word hkind hword
  refine ⟨⟨⟨0⟩, operation, Operand.fill operation.slots operandWords⟩, ⟨?_, hfill⟩, ?_⟩
  · exact Instruction.wellFormed_fill (Nat.le_of_eq hcount.symm) fun operand hmem =>
      (Operand.isValid_iff operand).2 (hfill operand hmem).le_registerMax
  · rw [Instruction.words, Operand.map_word_fill, List.take_of_length_le (Nat.le_of_eq hcount)]

theorem assembleLine_eq_ok {cs : List Char} {image : Image} (h : assembleLine cs = .ok image) :
    ∃ instruction : Instruction, instruction.IsAssemblable ∧ image = instruction.encode := by
  unfold assembleLine at h
  split at h
  · exact absurd h (by simp)
  · split at h
    · exact absurd h (by simp)
    · next line _ =>
      cases hwords : line.words with
      | error cause => exact absurd h (by simp [hwords, Except.map])
      | ok words =>
        obtain ⟨instruction, hinstruction, rfl⟩ := Line.words_eq_ok hwords
        rw [hwords] at h
        exact ⟨instruction, hinstruction, (Except.ok.inj h).symm⟩

theorem operandWords_spellings {operands : List Operand}
    (h : ∀ operand ∈ operands, ∀ index,
      operand.spelling.word index operand.kind = .ok operand.word) (index : Nat) :
    operandWords index (operands.map Operand.kind) (operands.map Operand.spelling)
      = .ok (operands.map Operand.word) := by
  induction operands generalizing index with
  | nil =>
    rw [List.map_nil, operandWords]
    · rfl
    · simp
  | cons operand operands ih =>
    have htail := ih (fun next hnext => h next (List.mem_cons_of_mem _ hnext)) (index + 1)
    simp only [List.map_cons, operandWords, h operand List.mem_cons_self, htail]
    rfl

end Assembly

namespace Instruction

/-- The line of assembly that disassembly writes. -/
def asLine (instruction : Instruction) : Assembly.Line :=
  ⟨instruction.operation.mnemonic.toList, instruction.operands.map Operand.spelling⟩

/-- The text of an instruction is assembled as the line that disassembly means. -/
theorem assembleLine_text_eq_words (instruction : Instruction) :
    Assembly.assembleLine instruction.text.toList
      = instruction.asLine.words.map Image.ofWords := by
  have h := Assembly.assembleLine_append_blanks instruction.isTrimmed_text (List.forall_mem_nil _)
    instruction.parse_text
  rwa [List.append_nil] at h

/-- The mnemonic of an instruction is always known. -/
theorem words_asLine (instruction : Instruction) :
    instruction.asLine.words
      = if instruction.operands.length = instruction.operation.arity then
          (Assembly.operandWords 0 instruction.operation.slots
            (instruction.operands.map Operand.spelling)).map (instruction.operation.opcode :: ·)
        else .error (.operandCount instruction.operation.mnemonic instruction.operation.arity
          instruction.operands.length) := by
  have h : instruction.asLine.words = _ := Assembly.Line.words_of_named
    (Assembly.operationNamed?_mnemonic instruction.operation)
  rwa [asLine, List.length_map] at h

/-- With one operand for each slot, what the text assembles to hangs on the operands only. -/
theorem assembleLine_text_of_length_eq {instruction : Instruction}
    (h : instruction.operands.length = instruction.operation.arity) :
    Assembly.assembleLine instruction.text.toList
      = (Assembly.operandWords 0 instruction.operation.slots
          (instruction.operands.map Operand.spelling)).map
            fun words => Image.ofWords (instruction.operation.opcode :: words) := by
  rw [assembleLine_text_eq_words, words_asLine, if_pos h]
  cases Assembly.operandWords 0 instruction.operation.slots
    (instruction.operands.map Operand.spelling) <;> rfl

theorem WellFormed.assembleLine_text {instruction : Instruction} (h : instruction.WellFormed) :
    Assembly.assembleLine instruction.text.toList
      = (Assembly.operandWords 0 (instruction.operands.map Operand.kind)
          (instruction.operands.map Operand.spelling)).map
            fun words => Image.ofWords (instruction.operation.opcode :: words) := by
  rw [assembleLine_text_of_length_eq h.length_operands, h.map_kind]

/-- **Disassembly is undone by assembly** where every slot accepts its word. -/
theorem IsAssemblable.assembleLine_text {instruction : Instruction}
    (h : instruction.IsAssemblable) :
    Assembly.assembleLine instruction.text.toList = .ok instruction.encode := by
  have hspelled : ∀ operand ∈ instruction.operands, ∀ index,
      operand.spelling.word index operand.kind = .ok operand.word := by
    intro operand hmem index
    rcases h.accepts operand hmem with ⟨hliteral, hkind⟩ | ⟨register, hword⟩
    · exact Operand.word_spelling_of_isLiteral (Operand.isLiteral_iff.2 hliteral) hkind index
    · exact Operand.word_spelling_of_toWord hword index
  rw [h.wellFormed.assembleLine_text, Assembly.operandWords_spellings hspelled]
  rfl

/-- **A misplaced number is refused**, and it always stands in the first slot. -/
theorem WellFormed.assembleLine_text_of_misplacesNumber {instruction : Instruction}
    (h : instruction.WellFormed) (hmisplaced : instruction.MisplacesNumber) :
    ∃ operand, instruction.operand? 0 = some operand ∧ operand.kind = .register
      ∧ operand.isLiteral
      ∧ Assembly.assembleLine instruction.text.toList
        = .error (.expectedRegister 0 operand.word.text) := by
  obtain ⟨operand, hmem, hkind, hliteral⟩ := hmisplaced
  obtain ⟨slot, hslot⟩ := List.getElem?_of_mem hmem
  -- only the first slot of an operation can require a register
  have hslots := (h.operand slot operand hslot).2.1
  rw [hkind] at hslots
  obtain ⟨rfl, _⟩ := Operation.eq_zero_of_isRegister hslots rfl
  refine ⟨operand, hslot, hkind, hliteral, ?_⟩
  have hword := Operand.word_spelling_of_misplaced hliteral hkind 0
  rw [h.assembleLine_text]
  cases hoperands : instruction.operands with
  | nil => exact absurd hslot (by simp [hoperands])
  | cons first operands =>
    rw [hoperands] at hslot
    obtain rfl := Option.some.inj hslot
    simp only [List.map_cons, Assembly.operandWords, hword]
    rfl

end Instruction

/-! ## Listings -/

namespace Assembly

/-- A listing is assembled part by part; the first part that fails decides. -/
theorem assembleLines_append (number : Nat) (first second : List (List Char)) :
    assembleLines number (first ++ second)
      = (assembleLines number first).bind fun image =>
          (assembleLines (number + first.length) second).map (image ++ ·) := by
  induction first generalizing number with
  | nil =>
    show assembleLines number second = (assembleLines number second).map ([] ++ ·)
    cases assembleLines number second <;> rfl
  | cons line first ih =>
    have hnumber : number + (line :: first).length = number + 1 + first.length := by
      rw [List.length_cons, Nat.add_comm first.length, Nat.add_assoc]
    rw [List.cons_append, assembleLines, assembleLines, hnumber]
    split
    · -- a line that is passed over only counts
      exact ih (number + 1)
    · cases assembleLine line with
      | error cause => rfl
      | ok bytes =>
        simp only [ih (number + 1)]
        cases assembleLines (number + 1) first with
        | error error => rfl
        | ok image =>
          simp only [Except.bind, Except.map]
          cases assembleLines (number + 1 + first.length) second with
          | error error => rfl
          | ok rest => simp only [List.append_assoc]

/-- An accepted listing is the encodings of instructions, one for each line not passed over. -/
theorem assembleLines_eq_ok {number : Nat} {lines : List (List Char)} {image : Image}
    (h : assembleLines number lines = .ok image) :
    ∃ instructions : List Instruction,
      (∀ instruction ∈ instructions, instruction.IsAssemblable)
        ∧ (lines.filter (!isPassedOver ·)).map assembleLine
          = instructions.map (.ok ·.encode)
        ∧ image = instructions.flatMap Instruction.encode := by
  induction lines generalizing number image with
  | nil =>
    obtain rfl := Except.ok.inj h
    exact ⟨[], by simp, rfl, rfl⟩
  | cons line lines ih =>
    rw [assembleLines] at h
    split at h
    · next hpassed =>
      obtain ⟨instructions, hassemblable, hmap, rfl⟩ := ih h
      exact ⟨instructions, hassemblable, by simpa [hpassed] using hmap, rfl⟩
    · next hpassed =>
      cases hline : assembleLine line with
      | error cause => exact absurd h (by simp [hline])
      | ok bytes =>
        cases hlines : assembleLines (number + 1) lines with
        | error error => exact absurd h (by simp [hline, hlines, Except.map])
        | ok rest =>
          obtain ⟨instruction, hinstruction, rfl⟩ := assembleLine_eq_ok hline
          obtain ⟨instructions, hassemblable, hmap, rfl⟩ := ih hlines
          simp only [hline, hlines, Except.map, Except.ok.injEq] at h
          refine ⟨instruction :: instructions, ?_, by simp [hpassed, hline, hmap], h.symm⟩
          exact List.forall_mem_cons.2 ⟨hinstruction, hassemblable⟩

end Assembly

namespace Instruction

theorem isPassedOver_text (instruction : Instruction) :
    Assembly.isPassedOver instruction.text.toList = false := by
  obtain ⟨c, hc, halphanum⟩ := instruction.head?_text
  rw [Assembly.isPassedOver, instruction.isTrimmed_text.trim_eq_self]
  obtain ⟨cs, hcs⟩ := List.head?_eq_some_iff.1 (Option.mem_def.1 hc)
  rw [hcs, Assembly.Line.isEnd]
  refine Bool.eq_false_iff.2 fun hsemicolon => ?_
  rw [eq_of_beq hsemicolon] at halphanum
  exact absurd halphanum (by decide)

/-- Texts joined with line ends are assembled as the lines of a listing. -/
theorem assembleProgram_texts (instructions : List Instruction) :
    Assembly.assembleProgram ("\n".intercalate (instructions.map text))
      = Assembly.assembleLines 1 (instructions.map fun instruction => instruction.text.toList) := by
  have hlines : ∀ cs ∈ (instructions.map text).map String.toList, '\n' ∉ cs := by
    intro cs hcs
    rw [List.map_map] at hcs
    obtain ⟨instruction, _, rfl⟩ := List.mem_map.1 hcs
    exact instruction.newline_notMem_text
  rw [Assembly.assembleProgram, Text.lines, String.toList_intercalate]
  cases instructions with
  | nil => rfl
  | cons instruction instructions =>
    rw [show "\n".toList = ['\n'] from rfl, List.splitOn_intercalate _ hlines (by simp),
      List.map_map]
    rfl

/-- The texts of instructions whose words fit their slots make a listing of those instructions. -/
theorem assembleLines_texts {instructions : List Instruction}
    (h : ∀ instruction ∈ instructions, instruction.IsAssemblable) (number : Nat) :
    Assembly.assembleLines number (instructions.map fun instruction => instruction.text.toList)
      = .ok (instructions.flatMap encode) := by
  induction instructions generalizing number with
  | nil => rfl
  | cons instruction instructions ih =>
    obtain ⟨hhead, htail⟩ := List.forall_mem_cons.1 h
    rw [List.map_cons, Assembly.assembleLines, isPassedOver_text, hhead.assembleLine_text]
    simp only [ih htail (number + 1), Except.map, Bool.false_eq_true, if_false, List.flatMap_cons]

/-- The first misplaced number stops the assembly, on its own line. -/
theorem assembleLines_texts_of_misplacesNumber {before after : List Instruction}
    {instruction : Instruction} {number : Nat} {cause : Assembly.LineError}
    (hbefore : ∀ earlier ∈ before, earlier.IsAssemblable)
    (hcause : Assembly.assembleLine instruction.text.toList = .error cause) :
    Assembly.assembleLines number
        ((before ++ instruction :: after).map fun instruction => instruction.text.toList)
      = .error ⟨number + before.length, cause⟩ := by
  rw [List.map_append, Assembly.assembleLines_append, assembleLines_texts hbefore,
    List.length_map, List.map_cons, Assembly.assembleLines, isPassedOver_text, hcause]
  rfl

end Instruction

end WordMachine
