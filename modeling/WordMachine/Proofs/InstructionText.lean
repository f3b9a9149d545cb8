import WordMachine.Assembly.Program
import WordMachine.Proofs.Spelling

/-!
# The text of an instruction is a line of assembly

Whatever operands an instruction has, its text is one line, has no blanks to trim, and
is read as its mnemonic followed by the spellings of its operands. For the last nothing
has to be read: the text is derived by the grammar, and what is derived is read.
-/

namespace WordMachine

/-! ## Characters of a text -/

theorem toNat_bounds_of_isAlphanum {c : Char} (h : c.isAlphanum) :
    48 ≤ c.toNat ∧ c.toNat ≤ 122 := by
  have hranges := Numeral.isAlphanum_iff.1 h
  omega

namespace Text

theorem isPrintableAscii_iff {c : Char} :
    isPrintableAscii c ↔ 32 ≤ c.toNat ∧ c.toNat ≤ 126 := by
  simp only [isPrintableAscii, Bool.and_eq_true, decide_eq_true_eq, Char.le_def,
    UInt32.le_iff_toNat_le]
  rfl

theorem isPrintableAscii_of_isAlphanum {c : Char} (h : c.isAlphanum) : isPrintableAscii c := by
  have hbounds := toNat_bounds_of_isAlphanum h
  exact isPrintableAscii_iff.2 ⟨by omega, by omega⟩

/-- What escaping writes is printable ASCII. -/
theorem isPrintableAscii_of_mem_escape {c d : Char} (h : d ∈ (escape c).toList) :
    isPrintableAscii d := by
  unfold escape at h
  split at h
  case h_7 =>
    split at h
    · next hc =>
      rw [String.toList_singleton, List.mem_singleton] at h
      rwa [h]
    · simp only [unicodeEscape, String.toList_append, List.mem_append] at h
      rcases h with (h | h) | h
      · exact List.all_eq_true.1 (by decide) d h
      · exact isPrintableAscii_of_isAlphanum (Numeral.isAlphanum_of_mem_lowerHex h)
      · exact List.all_eq_true.1 (by decide) d h
  all_goals exact List.all_eq_true.1 (by decide) d h

theorem not_isBlank_of_isAlphanum {c : Char} (h : c.isAlphanum) : ¬ isBlank c := by
  have hbounds := toNat_bounds_of_isAlphanum h
  simp only [isBlank, withinRanges, blankRanges, List.any_cons, List.any_nil,
    Bool.or_false, Bool.or_eq_true, Bool.and_eq_true, decide_eq_true_eq]
  omega

/-- The text starts and ends in a character that is not blank. -/
structure IsTrimmed (cs : List Char) : Prop where
  head : ∃ c ∈ cs.head?, ¬ isBlank c
  last : ∃ c ∈ cs.getLast?, ¬ isBlank c

/-- Of such a text and blanks behind it the blanks are all that is trimmed off. -/
theorem IsTrimmed.trim_append_blanks {cs blanks : List Char} (h : IsTrimmed cs)
    (hblanks : ∀ c ∈ blanks, isBlank c) : trim (cs ++ blanks) = cs := by
  obtain ⟨first, hfirst, hfirstBlank⟩ := h.head
  obtain ⟨last, hlast, hlastBlank⟩ := h.last
  have hfront : (cs ++ blanks).dropWhile isBlank = cs ++ blanks := by
    obtain ⟨rest, rfl⟩ := List.head?_eq_some_iff.1 hfirst
    exact List.dropWhile_cons_of_neg hfirstBlank
  have hback : (blanks.reverse ++ cs.reverse).dropWhile isBlank = cs.reverse := by
    refine dropWhile_run (fun c hc => hblanks c (List.mem_reverse.1 hc)) fun c hc => ?_
    rw [List.head?_reverse] at hc
    rwa [Option.mem_unique hc hlast]
  rw [trim, trimWhile, hfront, List.reverse_append, hback, List.reverse_reverse]

theorem IsTrimmed.trim_eq_self {cs : List Char} (h : IsTrimmed cs) : trim cs = cs := by
  have htrim := h.trim_append_blanks (List.forall_mem_nil _)
  rwa [List.append_nil] at htrim

end Text

/-- Letters and digits have no blanks at their ends. -/
theorem IsAlphanumericRun.isTrimmed {cs : List Char} (h : IsAlphanumericRun cs) :
    Text.IsTrimmed cs := by
  obtain ⟨hne, hrun⟩ := h
  refine ⟨⟨_, List.head?_eq_some_head hne, ?_⟩, _, List.getLast?_eq_some_getLast hne, ?_⟩
  · exact Text.not_isBlank_of_isAlphanum (hrun _ (List.head_mem hne))
  · exact Text.not_isBlank_of_isAlphanum (hrun _ (List.getLast_mem hne))

/-! ## Operands one after another -/

namespace Operand

/-- What is shown of an operand ends in a character that is not trimmed off. -/
theorem not_isBlank_getLast_token (operand : Operand) :
    ∃ c ∈ operand.token.text.toList.getLast?, ¬ Text.isBlank c := by
  by_cases h : operand.isShownQuoted
  · refine ⟨'\'', ?_, by decide⟩
    rw [toList_token_of_isShownQuoted h, ← List.cons_append, List.getLast?_concat]
    rfl
  · exact (isAlphanumericRun_token h).isTrimmed.last

theorem isPrintableAscii_of_mem_token {operand : Operand} {c : Char}
    (h : c ∈ operand.token.text.toList) : Text.isPrintableAscii c := by
  by_cases hquoted : operand.isShownQuoted
  · rw [toList_token_of_isShownQuoted hquoted, List.mem_cons, List.mem_append,
      List.mem_singleton] at h
    rcases h with rfl | h | rfl
    · decide
    · exact Text.isPrintableAscii_of_mem_escape h
    · decide
  · exact Text.isPrintableAscii_of_isAlphanum ((isAlphanumericRun_token hquoted).2 c h)

/-- The texts of operands that come behind another one. -/
def furtherText (operands : List Operand) : List Char :=
  operands.flatMap fun operand => [',', ' '] ++ operand.token.text.toList

theorem toList_render_tokens (operand : Operand) (operands : List Operand) :
    (Token.render (((operand :: operands).map token).intersperse Token.comma)).toList
      = operand.token.text.toList ++ furtherText operands := by
  induction operands generalizing operand with
  | nil => simp [Token.render, furtherText]
  | cons next operands ih =>
    have ih := ih next
    simp only [List.map_cons, List.intersperse_cons_cons, Token.render,
      String.toList_append] at ih ⊢
    rw [ih]
    rfl

/-- A comma and a space set an operand off from the one before it. -/
theorem operands_furtherText (operands : List Operand) :
    Assembly.Grammar.Operands (operands.map spelling) (furtherText operands) [] := by
  induction operands with
  | nil => exact .none
  | cons operand operands ih =>
    have hseparator : Assembly.Grammar.Separator ([] ++ [',', ' ']) :=
      .comma Assembly.Grammar.gap_nil Assembly.Grammar.gap_space
    have hsplit : furtherText (operand :: operands)
        = [',', ' '] ++ (operand.token.text.toList ++ furtherText operands) := by
      simp [furtherText]
    rw [hsplit]
    exact .more hseparator (operand.spelling_token _) ih

end Operand

/-! ## Instructions -/

namespace Instruction

theorem toList_text_of_operands {instruction : Instruction} {operand : Operand}
    {operands : List Operand} (h : instruction.operands = operand :: operands) :
    instruction.text.toList = instruction.operation.mnemonic.toList
      ++ ([' '] ++ (operand.token.text.toList ++ Operand.furtherText operands)) := by
  simp only [text, h, operandTokens, String.toList_append, Operand.toList_render_tokens]
  rw [List.append_assoc]
  rfl

/-- What is written behind the mnemonic are the operands, the first behind a space. -/
theorem exists_operands_text (instruction : Instruction) :
    ∃ tail, instruction.text.toList = instruction.operation.mnemonic.toList ++ tail
      ∧ Assembly.Grammar.Operands (instruction.operands.map Operand.spelling) tail [] := by
  cases hoperands : instruction.operands with
  | nil => exact ⟨[], by simp [text, hoperands], .none⟩
  | cons operand operands =>
    exact ⟨_, toList_text_of_operands hoperands,
      .more Assembly.Grammar.separator_space (operand.spelling_token _)
        (Operand.operands_furtherText operands)⟩

/-- **The text of an instruction is a line of assembly** with its mnemonic and its operands. -/
theorem parse_text (instruction : Instruction) :
    Assembly.Line.parse instruction.text.toList
      = .ok ⟨instruction.operation.mnemonic.toList, instruction.operands.map Operand.spelling⟩ := by
  have hname := instruction.operation.isAlphanumericRun_mnemonic
  obtain ⟨tail, htext, hoperands⟩ := instruction.exists_operands_text
  rw [htext]
  exact Assembly.Line.parse_complete (.line Assembly.Grammar.gap_nil hname hoperands
    (.gap Assembly.Grammar.gap_nil))

theorem isPrintableAscii_of_mem_text {instruction : Instruction} {c : Char}
    (h : c ∈ instruction.text.toList) : Text.isPrintableAscii c := by
  have hname : ∀ d ∈ instruction.operation.mnemonic.toList, Text.isPrintableAscii d :=
    fun d hd => Text.isPrintableAscii_of_isAlphanum
      (instruction.operation.isAlphanumericRun_mnemonic.2 d hd)
  cases hoperands : instruction.operands with
  | nil => exact hname c (by simpa [text, hoperands] using h)
  | cons operand operands =>
    simp only [toList_text_of_operands hoperands, Operand.furtherText, List.mem_append,
      List.mem_flatMap] at h
    rcases h with h | h | h | ⟨next, _, h | h⟩
    · exact hname c h
    · rw [List.mem_singleton.1 h]
      decide
    · exact Operand.isPrintableAscii_of_mem_token h
    · exact List.all_eq_true.1 (by decide) c h
    · exact Operand.isPrintableAscii_of_mem_token h

/-- The text of an instruction has no line end, so it is one line of a listing. -/
theorem newline_notMem_text (instruction : Instruction) : '\n' ∉ instruction.text.toList :=
  fun h => absurd (isPrintableAscii_of_mem_text h) (by decide)

/-- What the text of an instruction starts with. -/
theorem head?_text (instruction : Instruction) :
    ∃ c ∈ instruction.text.toList.head?, c.isAlphanum := by
  obtain ⟨hne, halphanum⟩ := instruction.operation.isAlphanumericRun_mnemonic
  obtain ⟨c, cs, hmnemonic⟩ := List.exists_cons_of_ne_nil hne
  refine ⟨c, ?_, halphanum c (by simp [hmnemonic])⟩
  cases hoperands : instruction.operands with
  | nil => simp [text, hoperands, hmnemonic]
  | cons operand operands => simp [toList_text_of_operands hoperands, hmnemonic]

theorem head?_text_ne (instruction : Instruction) {c : Char} (hc : ¬ c.isAlphanum) :
    instruction.text.toList.head? ≠ some c := by
  obtain ⟨first, hfirst, halphanum⟩ := instruction.head?_text
  intro hhead
  obtain rfl := Option.mem_unique hfirst hhead
  exact hc halphanum

/-- The text ends in what is shown of the last operand. -/
theorem exists_text_eq_append {instruction : Instruction} {front : List Operand} {last : Operand}
    (h : instruction.operands = front ++ [last]) :
    ∃ before, instruction.text.toList = before ++ last.token.text.toList := by
  cases front with
  | nil =>
    refine ⟨instruction.operation.mnemonic.toList ++ [' '], ?_⟩
    simp [toList_text_of_operands h, Operand.furtherText]
  | cons operand operands =>
    refine ⟨instruction.operation.mnemonic.toList ++ [' '] ++ operand.token.text.toList
      ++ Operand.furtherText operands ++ [',', ' '], ?_⟩
    simp [toList_text_of_operands h, Operand.furtherText]

theorem getLast?_text (instruction : Instruction) :
    ∃ c ∈ instruction.text.toList.getLast?, ¬ Text.isBlank c := by
  rcases List.eq_nil_or_concat instruction.operands with hoperands | ⟨front, last, hoperands⟩
  · simp only [text, hoperands]
    exact instruction.operation.isAlphanumericRun_mnemonic.isTrimmed.last
  · obtain ⟨c, hc, hblank⟩ := last.not_isBlank_getLast_token
    obtain ⟨before, htext⟩ := exists_text_eq_append (List.concat_eq_append ▸ hoperands)
    refine ⟨c, ?_, hblank⟩
    rw [htext, List.getLast?_append, Option.mem_def.1 hc]
    rfl

theorem isTrimmed_text (instruction : Instruction) : Text.IsTrimmed instruction.text.toList := by
  obtain ⟨c, hc, halphanum⟩ := instruction.head?_text
  exact ⟨⟨c, hc, Text.not_isBlank_of_isAlphanum halphanum⟩, instruction.getLast?_text⟩

end Instruction

end WordMachine
