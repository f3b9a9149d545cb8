import Mathlib.Data.List.Basic
import WordMachine.Proofs.Assembling

/-!
# Tokens are a line of assembly too

Disassembly shows an instruction as a line of text and as tokens. In the tokens the mnemonic
is padded to its column, and without the address in front they are a line of assembly as
well. It has the same mnemonic and the same operands as the text, whatever operands the
instruction was given, so assembly makes the same of both.

What that is hangs on the operands only. Their number must be that of the slots, and then
each slot takes its operand or refuses it.
-/

namespace WordMachine

/-! ## What a slot refuses -/

namespace Assembly

/-- The slot has no word for the operand that it is given, though the operand is well written. -/
inductive LineError.IsRefusal (index : Nat) : LineError → Prop
  | expectedRegister (text : String) : IsRefusal index (.expectedRegister index text)
  | unparsableOperand (text : String) : IsRefusal index (.unparsableOperand index text)
  | literalOutOfRange (value : Nat) : IsRefusal index (.literalOutOfRange index value)
  | misalignedAddress (value : Nat) : IsRefusal index (.misalignedAddress index value)

theorem isRefusal_of_literalWord {index number : Nat} {kind : SlotKind} {error : LineError}
    (h : literalWord index kind number = .error error) : error.IsRefusal index := by
  simp only [literalWord] at h
  split at h
  · obtain rfl := Except.error.inj h
    exact .misalignedAddress number
  · by_cases hle : (if kind.isAddress then number / Word.size else number) ≤ Word.literalMax.toNat
    · rw [if_pos hle] at h
      exact absurd h (by simp)
    · rw [if_neg hle] at h
      obtain rfl := Except.error.inj h
      exact .literalOutOfRange number

theorem isRefusal_of_quotedWord {index : Nat} {kind : SlotKind} {c : Char} {error : LineError}
    (h : quotedWord index kind c = .error error) : error.IsRefusal index := by
  unfold quotedWord at h
  split at h
  · obtain rfl := Except.error.inj h
    exact .expectedRegister _
  · split at h
    · exact isRefusal_of_literalWord h
    · obtain rfl := Except.error.inj h
      exact .unparsableOperand _

end Assembly

namespace Operand

variable {operand : Operand}

/-- Disassembly writes an operand as a quoted character, as a register or as a numeral. -/
theorem spelling_cases (operand : Operand) :
    operand.spelling = .quoted (Char.ofNat operand.word.toNat)
      ∨ (∃ register : Register, operand.spelling = .bare register.text.toList)
      ∨ ∃ text n, Assembly.Denotes text n ∧ n < Assembly.numeralLimit
          ∧ operand.spelling = .bare text := by
  have hword : operand.word.toNat < Assembly.numeralLimit :=
    Nat.lt_trans operand.word.toNat_lt (by decide)
  by_cases hquoted : operand.isShownQuoted
  · exact Or.inl (if_pos hquoted)
  right
  rw [spelling, if_neg hquoted]
  rcases Word.meaning_cases operand.word with
    ⟨hliteral, hmeaning⟩ | ⟨register, _, hmeaning⟩ | ⟨_, hmeaning⟩
  · right
    have hchar : operand.kind.isChar = false := by
      simpa [isShownQuoted, isLiteral, hliteral] using hquoted
    by_cases haddress : operand.kind.isAddress
    · have htoken : operand.token
          = ⟨.possibleAddress, (Address.ofWordIndex operand.word).text⟩ := by
        simp [token, meaning, hmeaning, hchar, haddress]
      have hlimit : (Address.ofWordIndex operand.word).offset < Assembly.numeralLimit := by
        have hlt := operand.word.toNat_lt
        simp only [Address.ofWordIndex, Word.size, Assembly.numeralLimit, UInt32.size]
        omega
      rw [htoken]
      exact ⟨_, _, (Address.ofWordIndex operand.word).denotes_text, hlimit, rfl⟩
    · have htoken : operand.token = ⟨.integer, operand.word.text⟩ := by
        simp [token, meaning, hmeaning, hchar, haddress]
      rw [htoken]
      exact ⟨_, _, operand.word.denotes_text, hword, rfl⟩
  · left
    have htoken : operand.token = ⟨.register, register.text⟩ := by
      simp only [token, meaning, hmeaning]
    rw [htoken]
    exact ⟨register, rfl⟩
  · right
    have htoken : operand.token = ⟨.integer, operand.word.text⟩ := by
      simp only [token, meaning, hmeaning]
    rw [htoken]
    exact ⟨_, _, operand.word.denotes_text, hword, rfl⟩

/-- **A slot refuses an operand as such or takes it**: what disassembly writes can be read. -/
theorem isRefusal_of_word_spelling {index : Nat} {kind : SlotKind} {error : Assembly.LineError}
    (h : operand.spelling.word index kind = .error error) : error.IsRefusal index := by
  rcases operand.spelling_cases with
    hspelling | ⟨register, hspelling⟩ | ⟨text, n, hnumeral, hlimit, hspelling⟩
  · rw [hspelling] at h
    exact Assembly.isRefusal_of_quotedWord h
  · rw [hspelling, Assembly.Spelling.word, Assembly.bareWord_register] at h
    exact absurd h (by simp)
  · rw [hspelling, Assembly.Spelling.word] at h
    by_cases hkind : kind.requiresRegister
    · rw [Assembly.bareWord_of_requiresRegister hnumeral.registerDigits?_eq_none hkind] at h
      obtain rfl := Except.error.inj h
      exact .expectedRegister _
    · rw [hnumeral.bareWord_of_lt hlimit (by simpa using hkind)] at h
      exact Assembly.isRefusal_of_literalWord h

/-- The operand that is refused first decides. -/
theorem isRefusal_of_operandWords {operands : List Operand} {kinds : List SlotKind} {index : Nat}
    {error : Assembly.LineError}
    (h : Assembly.operandWords index kinds (operands.map spelling) = .error error) :
    ∃ slot, error.IsRefusal slot := by
  induction operands generalizing kinds index with
  | nil =>
    rw [List.map_nil, Assembly.operandWords] at h
    · exact absurd h (by simp [pure, Except.pure])
    · simp
  | cons operand operands ih =>
    cases kinds with
    | nil =>
      rw [Assembly.operandWords] at h
      · exact absurd h (by simp [pure, Except.pure])
      · simp
    | cons kind kinds =>
      rw [List.map_cons, Assembly.operandWords] at h
      cases hword : operand.spelling.word index kind with
      | error cause =>
        rw [hword] at h
        obtain rfl := Except.error.inj h
        exact ⟨index, isRefusal_of_word_spelling hword⟩
      | ok word =>
        cases hwords : Assembly.operandWords (index + 1) kinds (operands.map spelling) with
        | error cause =>
          rw [hword, hwords] at h
          obtain rfl := Except.error.inj h
          exact ih hwords
        | ok words =>
          rw [hword, hwords] at h
          exact absurd h (by simp [bind, Except.bind, pure, Except.pure])

end Operand

namespace Instruction

variable {instruction : Instruction}

/-- The tokens behind the address label and the gap. -/
def unlabelled (instruction : Instruction) : List Token := instruction.tokens.drop 2

/-- The characters of the operands with commas between them. -/
def operandText : List Operand → List Char
  | [] => []
  | operand :: operands => operand.token.text.toList ++ Operand.furtherText operands

theorem toList_render_operandTokens (instruction : Instruction) :
    (Token.render instruction.operandTokens).toList = operandText instruction.operands := by
  rw [operandTokens]
  cases instruction.operands with
  | nil => rfl
  | cons operand operands => exact Operand.toList_render_tokens operand operands

/-- The mnemonic is set off from what follows by at least two spaces. -/
theorem toList_render_unlabelled (instruction : Instruction) :
    ∃ count, (Token.render instruction.unlabelled).toList
      = instruction.operation.mnemonic.toList
        ++ (List.replicate (count + 2) ' ' ++ operandText instruction.operands) := by
  have hwidth : instruction.operation.mnemonic.length + 2 ≤ mnemonicWidth := by
    cases instruction.operation <;> decide +kernel
  refine ⟨mnemonicWidth - instruction.operation.mnemonic.length - 2, ?_⟩
  have hcount : mnemonicWidth - instruction.operation.mnemonic.length - 2 + 2
      = mnemonicWidth - instruction.operation.mnemonic.length := by omega
  rw [hcount, ← toList_render_operandTokens]
  simp only [unlabelled, tokens, List.cons_append, List.nil_append, List.drop_succ_cons,
    List.drop_zero, Token.render, Text.padRight, String.toList_append, String.toList_ofList,
    List.append_assoc]

/-- A text without operands is the mnemonic. -/
theorem toList_text_of_nil (h : instruction.operands = []) :
    instruction.text.toList = instruction.operation.mnemonic.toList := by
  rw [text, h]

/-- In front of operands any gap is as good as the one space of the text. -/
theorem isTrimmed_spaced {operand : Operand} {operands : List Operand} (gap : List Char)
    (h : instruction.operands = operand :: operands) :
    Text.IsTrimmed (instruction.operation.mnemonic.toList
      ++ (gap ++ operandText instruction.operands)) := by
  obtain ⟨hne, halphanum⟩ := instruction.operation.isAlphanumericRun_mnemonic
  obtain ⟨c, cs, hmnemonic⟩ := List.exists_cons_of_ne_nil hne
  obtain ⟨last, hlast, hblank⟩ := instruction.getLast?_text
  have hoperands : operandText instruction.operands ≠ [] := by
    obtain ⟨d, hd, _⟩ := operand.not_isBlank_getLast_token
    rw [h, operandText]
    intro hnil
    rw [(List.append_eq_nil_iff.1 hnil).1] at hd
    exact absurd hd (by simp)
  -- both texts end in the last of the operands
  have hends : ∀ front : List Char, (instruction.operation.mnemonic.toList
      ++ (front ++ operandText instruction.operands)).getLast?
        = (operandText instruction.operands).getLast? := by
    intro front
    rw [← List.append_assoc, List.getLast?_append_of_ne_nil _ hoperands]
  have htext : instruction.text.toList = instruction.operation.mnemonic.toList
      ++ ([' '] ++ operandText instruction.operands) := by
    rw [toList_text_of_operands h, h]
    rfl
  rw [htext, hends] at hlast
  refine ⟨⟨c, by simp [hmnemonic], ?_⟩, ⟨last, ?_, hblank⟩⟩
  · exact Text.not_isBlank_of_isAlphanum (halphanum c (by simp [hmnemonic]))
  · rw [hends]
    exact hlast

/-- The mnemonic and the operands are the same line with any spaces between them. -/
theorem assembleLine_spaced {gap : List Char} (hgap : ∀ c ∈ gap, c = ' ') (hne : gap ≠ []) :
    Assembly.assembleLine (instruction.operation.mnemonic.toList
        ++ (gap ++ operandText instruction.operands))
      = instruction.asLine.words.map Image.ofWords := by
  cases hoperands : instruction.operands with
  | nil =>
    -- the gap is left standing at the end of the line, where it is trimmed off
    have hblanks : ∀ c ∈ gap, Text.isBlank c := by
      intro c hc
      rw [hgap c hc]
      decide
    rw [operandText, List.append_nil, ← toList_text_of_nil hoperands]
    exact Assembly.assembleLine_append_blanks instruction.isTrimmed_text hblanks
      instruction.parse_text
  | cons operand operands =>
    have hname := instruction.operation.isAlphanumericRun_mnemonic
    have hseparator : Assembly.Grammar.Separator gap := .gap hne fun c hc => Or.inl (hgap c hc)
    have hparse : Assembly.Line.parse (instruction.operation.mnemonic.toList
        ++ (gap ++ operandText (operand :: operands))) = .ok instruction.asLine := by
      rw [asLine, hoperands]
      exact Assembly.Line.parse_complete (.line Assembly.Grammar.gap_nil hname
        (.more hseparator (operand.spelling_token _) (Operand.operands_furtherText operands))
        (.gap Assembly.Grammar.gap_nil))
    have htrimmed := isTrimmed_spaced gap hoperands
    rw [hoperands] at htrimmed
    have h := Assembly.assembleLine_append_blanks htrimmed (List.forall_mem_nil _) hparse
    rwa [List.append_nil] at h

/-- **The tokens behind the address are assembled as the text is.** -/
theorem assemble_render_unlabelled (instruction : Instruction) :
    Assembly.assemble (Token.render instruction.unlabelled)
      = Assembly.assemble instruction.text := by
  obtain ⟨count, htokens⟩ := instruction.toList_render_unlabelled
  rw [Assembly.assemble, Assembly.assemble, htokens, assembleLine_text_eq_words]
  refine assembleLine_spaced (fun c hc => List.eq_of_mem_replicate hc) ?_
  exact List.ne_nil_of_length_pos (by simp)

/-! ## What the line is assembled to -/

theorem assemble_text_of_length_ne
    (h : instruction.operands.length ≠ instruction.operation.arity) :
    Assembly.assemble instruction.text = .error (.operandCount instruction.operation.mnemonic
      instruction.operation.arity instruction.operands.length) := by
  rw [Assembly.assemble, assembleLine_text_eq_words, words_asLine, if_neg h]
  rfl

/-- With one operand for each slot, only a slot that refuses its operand is left to fail. -/
theorem isRefusal_of_assemble_text {error : Assembly.LineError}
    (hlength : instruction.operands.length = instruction.operation.arity)
    (h : Assembly.assemble instruction.text = .error error) : ∃ slot, error.IsRefusal slot := by
  rw [Assembly.assemble, assembleLine_text_of_length_eq hlength] at h
  cases hwords : Assembly.operandWords 0 instruction.operation.slots
      (instruction.operands.map Operand.spelling) with
  | error cause =>
    rw [hwords] at h
    obtain rfl := Except.error.inj h
    exact Operand.isRefusal_of_operandWords hwords
  | ok words =>
    rw [hwords] at h
    exact absurd h (by simp [Except.map])

/-- What can go wrong with a line that disassembly has written. -/
theorem error_of_assemble_text {error : Assembly.LineError}
    (h : Assembly.assemble instruction.text = .error error) :
    (instruction.operands.length ≠ instruction.operation.arity
        ∧ error = .operandCount instruction.operation.mnemonic instruction.operation.arity
          instruction.operands.length)
      ∨ (instruction.operands.length = instruction.operation.arity
        ∧ ∃ slot, error.IsRefusal slot) := by
  by_cases hlength : instruction.operands.length = instruction.operation.arity
  · exact Or.inr ⟨hlength, isRefusal_of_assemble_text hlength h⟩
  · rw [assemble_text_of_length_ne hlength] at h
    exact Or.inl ⟨hlength, (Except.error.inj h).symm⟩

/--
**Tokens and text mean the same to assembly.**

The tokens of an instruction are an address label, a gap and a line of assembly. That line is
assembled to the same bytes or refused with the same error as the text of the instruction,
whatever operands it has. There always is something to assemble, it is a line, its mnemonic is
known and no register in it is unknown. The number of operands is found wrong exactly if it is not
the number of slots.
-/
theorem assemble_tokens_eq_text (instruction : Instruction) :
    instruction.tokens = ⟨.addressLabel, instruction.address.text⟩ :: ⟨.gap, "  "⟩
        :: instruction.unlabelled
      ∧ Assembly.assemble (Token.render instruction.unlabelled)
        = Assembly.assemble instruction.text
      ∧ Assembly.assemble instruction.text ≠ .error .empty
      ∧ (∀ left, Assembly.assemble instruction.text ≠ .error (.unexpected left))
      ∧ (∀ name, Assembly.assemble instruction.text ≠ .error (.unknownMnemonic name))
      ∧ (∀ index name, Assembly.assemble instruction.text ≠ .error (.invalidRegister index name))
      ∧ ∀ name expected found,
          Assembly.assemble instruction.text = .error (.operandCount name expected found)
            ↔ instruction.operands.length ≠ instruction.operation.arity
              ∧ name = instruction.operation.mnemonic ∧ expected = instruction.operation.arity
              ∧ found = instruction.operands.length := by
  -- an error that is neither of the two kinds does not come up
  have hnever : ∀ error : Assembly.LineError, (∀ slot, ¬ error.IsRefusal slot) →
      (∀ name expected found, error ≠ .operandCount name expected found) →
        Assembly.assemble instruction.text ≠ .error error := by
    intro error hrefusal hcount h
    rcases error_of_assemble_text h with ⟨_, herror⟩ | ⟨_, slot, hslot⟩
    · exact hcount _ _ _ herror
    · exact hrefusal slot hslot
  refine ⟨rfl, assemble_render_unlabelled instruction, ?_, ?_, ?_, ?_, ?_⟩
  · exact hnever .empty (by rintro slot ⟨⟩) (by simp)
  · intro left
    exact hnever (.unexpected left) (by rintro slot ⟨⟩) (by simp)
  · intro name
    exact hnever (.unknownMnemonic name) (by rintro slot ⟨⟩) (by simp)
  · intro index name
    exact hnever (.invalidRegister index name) (by rintro slot ⟨⟩) (by simp)
  · intro name expected found
    constructor
    · intro h
      rcases error_of_assemble_text h with ⟨hlength, herror⟩ | ⟨_, slot, hrefusal⟩
      · obtain ⟨rfl, rfl, rfl⟩ := Assembly.LineError.operandCount.inj herror
        exact ⟨hlength, rfl, rfl, rfl⟩
      · cases hrefusal
    · rintro ⟨hlength, rfl, rfl, rfl⟩
      exact assemble_text_of_length_ne hlength

/-- A quoted semicolon, comma and space are three operands, two more than `out` takes. -/
example : Assembly.assemble (Token.render (unlabelled
    ⟨⟨0⟩, .output, [⟨0, .char, 59⟩, ⟨1, .char, 44⟩, ⟨2, .char, 32⟩]⟩))
      = .error (.operandCount "out" 1 3) := by
  with_unfolding_all rfl

end Instruction

end WordMachine
