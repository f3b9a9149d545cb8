import WordMachine.Proofs.TokenText

/-!
# Which words are read back as themselves

Disassembly shows a word that means nothing as a plain number. Almost every slot refuses it
when the text is assembled, since a number as great as that is no literal. An address slot
does not: there a number is a byte address and is halved, so an even word comes back as half
of it, which is a literal.

With this exception a text is refused or assembled to the instruction it was made from.
-/

namespace WordMachine

/-! ## Operands -/

/-- The word that its slot makes of the operand's text, if it takes it. -/
def Operand.reread? (operand : Operand) : Option Word :=
  match operand.meaning with
  | .literal value => if operand.kind.requiresRegister then none else some value
  | .register register => some register.toWord
  | .invalid word => if operand.kind.isAddress ∧ word % 2 = 0 then some (word / 2) else none

namespace Assembly

/-- A word that means nothing is too great for a literal, but half of it is not. -/
theorem toOption_literalWord_of_meaningless (index : Nat) (kind : SlotKind) {word : Word}
    (h : Word.registerMax < word) :
    (literalWord index kind word.toNat).toOption
      = if kind.isAddress ∧ word % 2 = 0 then some (word / 2) else none := by
  have hgreat : 32775 < word.toNat := UInt16.lt_iff_toNat_lt.1 h
  have hbound := word.toNat_lt
  have hparity : word % 2 = 0 ↔ word.toNat % 2 = 0 := by
    rw [← UInt16.toNat_inj, UInt16.toNat_mod]
    rfl
  have hmax : Word.literalMax.toNat = 32767 := rfl
  have hsize : Word.size = 2 := rfl
  simp only [literalWord, hparity, hmax, hsize]
  cases kind.isAddress with
  | false =>
    have hlarge : ¬ word.toNat ≤ 32767 := by omega
    simp [hlarge, Except.toOption]
  | true =>
    by_cases heven : word.toNat % 2 = 0
    · have hhalf : word.toNat / 2 ≤ 32767 := by omega
      have hword : UInt16.ofNat (word.toNat / 2) = word / 2 := by
        apply UInt16.toNat_inj.1
        simp only [UInt16.toNat_div, UInt16.toNat_ofNat', UInt16.reduceToNat]
        omega
      simp [heven, hhalf, hword, Except.toOption]
    · have hodd : word.toNat % 2 = 1 := by omega
      simp [hodd, Except.toOption]

end Assembly

namespace Operand

variable {operand : Operand}

/-- **What the slot makes of an operand's text.** -/
theorem toOption_word_spelling (index : Nat) (operand : Operand) :
    (operand.spelling.word index operand.kind).toOption = operand.reread? := by
  rw [reread?, meaning]
  rcases Word.meaning_cases operand.word with
    ⟨hliteral, hmeaning⟩ | ⟨register, hword, hmeaning⟩ | ⟨hgreat, hmeaning⟩
  · have hliteral : operand.isLiteral := isLiteral_iff.2 hliteral
    simp only [hmeaning]
    by_cases hkind : operand.kind.requiresRegister
    · rw [if_pos hkind, word_spelling_of_misplaced hliteral (eq_of_beq hkind) index]
      rfl
    · rw [if_neg hkind, word_spelling_of_isLiteral hliteral (by simpa using hkind) index]
      rfl
  · simp only [hmeaning]
    rw [word_spelling_of_toWord hword index, hword]
    rfl
  · have hquoted : ¬ operand.isShownQuoted := by
      have hliteral : ¬ operand.word ≤ Word.literalMax := fun hle =>
        absurd (UInt16.lt_of_lt_of_le hgreat hle) (by decide)
      simp [isShownQuoted, isLiteral, hliteral]
    have htoken : operand.token = ⟨.integer, operand.word.text⟩ := by
      simp only [token, meaning, hmeaning]
    have hlimit : operand.word.toNat < Assembly.numeralLimit :=
      Nat.lt_trans operand.word.toNat_lt (by decide)
    simp only [hmeaning]
    have hnumeral := operand.word.denotes_text
    rw [spelling, if_neg hquoted, htoken, Assembly.Spelling.word]
    by_cases hkind : operand.kind.requiresRegister
    · have haddress : ¬ operand.kind.isAddress := by
        rw [eq_of_beq hkind]
        decide
      rw [if_neg fun h => haddress h.1,
        Assembly.bareWord_of_requiresRegister hnumeral.registerDigits?_eq_none hkind]
      rfl
    · rw [← Assembly.toOption_literalWord_of_meaningless index operand.kind hgreat,
        hnumeral.bareWord_of_lt hlimit (by simpa using hkind)]

/-- A word that is read back is read back as itself if it means something. Half of a word is never
the word itself. -/
theorem eq_word_iff_isValid {word : Word} (h : operand.reread? = some word) :
    word = operand.word ↔ operand.isValid := by
  rw [isValid_iff]
  rw [reread?, meaning] at h
  rcases Word.meaning_cases operand.word with
    ⟨hliteral, hmeaning⟩ | ⟨register, hword, hmeaning⟩ | ⟨hgreat, hmeaning⟩
  · simp only [hmeaning] at h
    split at h
    · exact absurd h (by simp)
    · exact ⟨fun _ => UInt16.le_trans hliteral (by decide), fun _ => (Option.some.inj h).symm⟩
  · simp only [hmeaning] at h
    rw [hword]
    exact ⟨fun _ => register.toWord_bounds.2, fun _ => (Option.some.inj h).symm⟩
  · simp only [hmeaning] at h
    split at h
    · obtain rfl := Option.some.inj h
      refine ⟨fun hhalf => ?_, fun hle => absurd hle (UInt16.not_le.2 hgreat)⟩
      have hgreat : 32775 < operand.word.toNat := UInt16.lt_iff_toNat_lt.1 hgreat
      have hhalf : operand.word.toNat / 2 = operand.word.toNat := by
        have hnat := congrArg UInt16.toNat hhalf
        rwa [UInt16.toNat_div] at hnat
      omega
    · exact absurd h (by simp)

theorem mapM_reread?_eq_words_iff {operands : List Operand} {words : List Word}
    (h : operands.mapM reread? = some words) :
    words = operands.map word ↔ ∀ operand ∈ operands, operand.isValid := by
  induction operands generalizing words with
  | nil =>
    obtain rfl := Option.some.inj h
    simp
  | cons operand operands ih =>
    simp only [List.mapM_cons, Option.bind_eq_bind, Option.bind_eq_some_iff, Option.pure_def,
      Option.some.injEq] at h
    obtain ⟨head, hhead, tail, htail, rfl⟩ := h
    rw [List.map_cons, List.cons.injEq, List.forall_mem_cons, eq_word_iff_isValid hhead, ih htail]

theorem toOption_operandWords (index : Nat) (operands : List Operand) :
    (Assembly.operandWords index (operands.map kind) (operands.map spelling)).toOption
      = operands.mapM reread? := by
  induction operands generalizing index with
  | nil =>
    rw [List.map_nil, List.map_nil, Assembly.operandWords]
    · rfl
    · simp
  | cons operand operands ih =>
    rw [List.map_cons, List.map_cons, Assembly.operandWords, List.mapM_cons,
      ← toOption_word_spelling index operand, ← ih (index + 1)]
    cases operand.spelling.word index operand.kind with
    | error cause => rfl
    | ok word =>
      cases Assembly.operandWords (index + 1) (operands.map kind) (operands.map spelling) <;> rfl

end Operand

/-! ## Instructions -/

namespace Instruction

variable {instruction : Instruction}

/-- What the text of an instruction is assembled to, operand by operand. -/
theorem toOption_assemble_text
    (h : instruction.operands.map Operand.kind = instruction.operation.slots) :
    (Assembly.assemble instruction.text).toOption
      = (instruction.operands.mapM Operand.reread?).map
          fun words => Image.ofWords (instruction.operation.opcode :: words) := by
  have hlength : instruction.operands.length = instruction.operation.arity := by
    rw [Operation.arity, ← h, List.length_map]
  rw [Assembly.assemble, assembleLine_text_of_length_eq hlength, ← h,
    ← Operand.toOption_operandWords 0]
  cases Assembly.operandWords 0 (instruction.operands.map Operand.kind)
    (instruction.operands.map Operand.spelling) <;> rfl

theorem ofWords_eq_encode_iff {words : List Word} :
    Image.ofWords (instruction.operation.opcode :: words) = instruction.encode
      ↔ words = instruction.operands.map Operand.word := by
  constructor
  · intro h
    have hwords := congrArg Image.words h
    rw [encode, Image.words_ofWords, Image.words_ofWords] at hwords
    exact (List.cons.inj hwords).2
  · rintro rfl
    rfl

/--
**An instruction is read back as itself exactly if all its words mean something.**

Take an instruction with one operand for each slot, of the slot's kind and with any word. Its
text is taken if every operand's text is, and it is assembled to the words that these are read
back as: a number or a register as itself, and an even word that means nothing, in an address
slot, as half of it. So a text that is taken encodes the instruction just if none of its words is
beyond the registers.
-/
theorem reassembles_iff_isValid
    (h : instruction.operands.map Operand.kind = instruction.operation.slots) :
    (Assembly.assemble instruction.text).toOption
        = (instruction.operands.mapM Operand.reread?).map
            (fun words => Image.ofWords (instruction.operation.opcode :: words))
      ∧ ∀ bytes, Assembly.assemble instruction.text = .ok bytes →
          (bytes = instruction.encode ↔ ∀ operand ∈ instruction.operands, operand.isValid) := by
  refine ⟨toOption_assemble_text h, fun bytes hbytes => ?_⟩
  have hread := toOption_assemble_text h
  rw [hbytes] at hread
  obtain ⟨words, hwords, rfl⟩ := Option.map_eq_some_iff.1 hread.symm
  rw [ofWords_eq_encode_iff, Operand.mapM_reread?_eq_words_iff hwords]

/-- The word in an address slot is taken for twice another one. -/
theorem reassembles_iff_isValid_jmp :
    (⟨⟨0⟩, .jmp, [⟨0, .address, 32776⟩]⟩ : Instruction).operands.map Operand.kind = [.address]
      ∧ Assembly.assemble (⟨⟨0⟩, .jmp, [⟨0, .address, 32776⟩]⟩ : Instruction).text
        = .ok [6, 0, 4, 64]
      ∧ Image.ofWords [6, 16388] ≠ (⟨⟨0⟩, .jmp, [⟨0, .address, 32776⟩]⟩ : Instruction).encode := by
  have hkinds : (⟨⟨0⟩, .jmp, [⟨0, .address, 32776⟩]⟩ : Instruction).operands.map Operand.kind
      = [.address] := rfl
  have htext : Assembly.assemble (⟨⟨0⟩, .jmp, [⟨0, .address, 32776⟩]⟩ : Instruction).text
      = .ok [6, 0, 4, 64] := by
    with_unfolding_all rfl
  refine ⟨hkinds, htext, fun hsame => ?_⟩
  have hvalid := ((reassembles_iff_isValid hkinds).2 _ htext).1 hsame
  exact absurd (hvalid ⟨0, .address, 32776⟩ (List.mem_singleton_self _)) (by decide)

/-- Text that is taken need not encode the instruction that it shows. -/
theorem not_refused_or_reassembled :
    ¬ ∀ instruction : Instruction,
        instruction.operands.map Operand.kind = instruction.operation.slots →
        (∃ error, Assembly.assemble instruction.text = .error error)
          ∨ Assembly.assemble instruction.text = .ok instruction.encode := by
  intro h
  have htext : Assembly.assemble (⟨⟨0⟩, .jmp, [⟨0, .address, 32776⟩]⟩ : Instruction).text
      = .ok [6, 0, 4, 64] := by
    with_unfolding_all rfl
  rcases h ⟨⟨0⟩, .jmp, [⟨0, .address, 32776⟩]⟩ rfl with ⟨error, herror⟩ | hencode
  · exact absurd (htext.symm.trans herror) (by simp)
  · exact absurd (Except.ok.inj (htext.symm.trans hencode)) (by decide +kernel)

end Instruction

end WordMachine
