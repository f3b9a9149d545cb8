import WordMachine.Disassembly
import WordMachine.Proofs.Denotation
import WordMachine.Proofs.Meaning

/-!
# What disassembly writes for an operand is one spelling

An operand is shown either as an escaped character between single quotes or as a run of
letters and digits. Each of these is a spelling that the grammar of lines knows, whatever
comes next: an escape is one of the ways to write its character, and letters and digits
open no quoted character.
-/

namespace WordMachine

/-! ## Runs of letters and digits -/

theorem Register.isAlphanumericRun_text (register : Register) :
    IsAlphanumericRun register.text.toList := by
  rw [text, String.toList_append]
  refine ⟨by simp, fun c hc => ?_⟩
  rcases List.mem_append.1 hc with h | h
  · rw [List.mem_singleton.1 h]
    decide
  · simp [Char.isAlphanum, Numeral.isDigit_of_mem_decimal h]

theorem Word.toList_text (word : Word) :
    word.text.toList = '0' :: 'x' :: (Numeral.upperHex word.toNat).toList := by
  rw [text, String.toList_append]
  rfl

theorem Address.toList_text (address : Address) :
    ∃ zeros, address.text.toList
      = '0' :: 'x' :: (List.replicate zeros '0' ++ (Numeral.upperHex address.offset).toList) := by
  refine ⟨4 - (Numeral.upperHex address.offset).length, ?_⟩
  simp only [text, Text.padLeft, String.toList_append, String.toList_ofList]
  rfl

/-- The text of a word is a numeral. -/
theorem Word.denotes_text (word : Word) : Assembly.Denotes word.text.toList word.toNat := by
  rw [toList_text]
  exact Assembly.denotes_zeros_upperHex 0 word.toNat

/-- So is the text of an address. -/
theorem Address.denotes_text (address : Address) :
    Assembly.Denotes address.text.toList address.offset := by
  obtain ⟨zeros, htext⟩ := address.toList_text
  rw [htext]
  exact Assembly.denotes_zeros_upperHex zeros address.offset

theorem Register.toList_text (register : Register) :
    register.text.toList = 'R' :: (Numeral.decimal register.index.val).toList := by
  rw [text, String.toList_append]
  rfl

theorem Operation.isAlphanumericRun_mnemonic (operation : Operation) :
    IsAlphanumericRun operation.mnemonic.toList := by
  have hne : operation.mnemonic.toList ≠ [] := by cases operation <;> decide +kernel
  have hall : operation.mnemonic.toList.all Char.isAlphanum := by
    cases operation <;> decide +kernel
  exact ⟨hne, List.all_eq_true.1 hall⟩

/-! ## Different texts -/

theorem Word.text_inj {first second : Word} (h : first.text = second.text) : first = second := by
  have hlist := congrArg String.toList h
  rw [toList_text, toList_text] at hlist
  have hdigits := (List.cons.inj (List.cons.inj hlist).2).2
  exact UInt16.toNat_inj.1 (Numeral.eq_of_zeros_upperHex 0 0 hdigits)

/-- Padding leaves addresses different. -/
theorem Address.text_inj {first second : Address} (h : first.text = second.text) :
    first = second := by
  obtain ⟨zeros, hfirst⟩ := first.toList_text
  obtain ⟨other, hsecond⟩ := second.toList_text
  have hlist := congrArg String.toList h
  rw [hfirst, hsecond] at hlist
  have hdigits := (List.cons.inj (List.cons.inj hlist).2).2
  exact congrArg Address.mk (Numeral.eq_of_zeros_upperHex zeros other hdigits)

theorem Register.text_inj {first second : Register} (h : first.text = second.text) :
    first = second := by
  have hlist := congrArg String.toList h
  rw [toList_text, toList_text] at hlist
  have hdigits := String.toList_inj.1 (List.cons.inj hlist).2
  exact congrArg Register.mk (Fin.ext (Numeral.decimal_inj hdigits))

namespace Assembly.Grammar

/-! ## Escaped characters -/

/-- An escaped character is written in one of the ways there are. -/
theorem character_escape (c : Char) : Character c (Text.escape c).toList := by
  unfold Text.escape
  split
  case h_7 hbackslash =>
    -- no escape of its own: printed as it is, or by its code point
    split
    · rw [String.toList_singleton]
      exact Character.raw hbackslash
    · rw [Text.unicodeEscape, String.toList_append, String.toList_append, List.append_assoc]
      exact Character.codePoint (Numeral.lowerHex_ne_nil _)
        (fun d hd => Numeral.exists_hexValue?_of_mem_lowerHex hd) (Numeral.denoted_lowerHex _)
  all_goals exact Character.letter (by decide)

/-! ## Bare operands -/

/-- A letter or a digit is no quote, so a quoted character is not even started. -/
theorem not_opensQuoted_of_isAlphanumericRun {run rest : List Char} (hrun : IsAlphanumericRun run) :
    ¬ OpensQuoted (run ++ rest) := by
  rintro ⟨c, piece, left, hquoted, hsplit⟩
  obtain ⟨hne, halphanum⟩ := hrun
  obtain ⟨d, ds, rfl⟩ := List.exists_cons_of_ne_nil hne
  have hd : d.isAlphanum := halphanum d (by simp)
  cases hquoted with
  | quotes hmark _ =>
    rw [(List.cons.inj hsplit).1] at hd
    rcases hmark with rfl | rfl <;> exact absurd hd (by decide)

/-- A run of letters and digits is a bare operand. -/
theorem operand_alphanumericRun {run : List Char} (hrun : IsAlphanumericRun run)
    (rest : List Char) : Operand (.bare run) run rest :=
  .bare hrun.1 (forall_isBare_iff.1 fun c hc => isBare_of_isAlphanum (hrun.2 c hc))
    (not_opensQuoted_of_isAlphanumericRun hrun)

end Assembly.Grammar

/-! ## Operands -/

namespace Operand

/-- Whether disassembly shows the operand as a quoted character. -/
def isShownQuoted (operand : Operand) : Bool := operand.isLiteral && operand.kind.isChar

/-- How disassembly spells the operand. -/
def spelling (operand : Operand) : Assembly.Spelling :=
  if operand.isShownQuoted then .quoted (Char.ofNat operand.word.toNat)
  else .bare operand.token.text.toList

theorem toList_token_of_isShownQuoted {operand : Operand} (h : operand.isShownQuoted) :
    operand.token.text.toList
      = '\'' :: ((Text.escape (Char.ofNat operand.word.toNat)).toList ++ ['\'']) := by
  simp only [isShownQuoted, Bool.and_eq_true] at h
  simp only [token, meaning_of_isLiteral h.1, h.2, if_true, String.toList_append]
  rfl

/-- What is not shown as a quoted character is shown in letters and digits. -/
theorem isAlphanumericRun_token {operand : Operand} (h : ¬ operand.isShownQuoted) :
    IsAlphanumericRun operand.token.text.toList := by
  rcases Word.meaning_cases operand.word with
    ⟨hliteral, hmeaning⟩ | ⟨register, hregister, hmeaning⟩ | ⟨hmax, hmeaning⟩
  · have hchar : operand.kind.isChar = false := by
      simpa [isShownQuoted, isLiteral, hliteral] using h
    simp only [token, meaning, hmeaning, hchar]
    split
    · exact absurd ‹_› (by decide)
    · split
      · exact (Address.denotes_text _).isAlphanumericRun
      · exact operand.word.denotes_text.isAlphanumericRun
  · simp only [token, meaning, hmeaning]
    exact register.isAlphanumericRun_text
  · simp only [token, meaning, hmeaning]
    exact operand.word.denotes_text.isAlphanumericRun

/-- **The text of an operand is one spelling of it**, in front of whatever rest. -/
theorem spelling_token (operand : Operand) (rest : List Char) :
    Assembly.Grammar.Operand operand.spelling operand.token.text.toList rest := by
  by_cases h : operand.isShownQuoted
  · rw [spelling, if_pos h, toList_token_of_isShownQuoted h]
    exact .quoted (.quotes (Or.inl rfl) (Assembly.Grammar.character_escape _))
  · rw [spelling, if_neg h]
    exact Assembly.Grammar.operand_alphanumericRun (isAlphanumericRun_token h) rest

end Operand

end WordMachine
