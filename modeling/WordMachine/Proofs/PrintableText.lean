import WordMachine.CommandLine.Report
import WordMachine.Proofs.InstructionText

/-!
# What is shown is printable ASCII

A program can hold any word anywhere, and whatever reads its text can be misled by a line
end, an escape sequence or a mark that reverses the direction of writing. Nothing of the
kind gets into what is shown. Names, numbers and addresses are letters and digits; a
character operand is escaped unless it is printable ASCII itself; all the rest are fixed
words. So the characters from the space to the tilde are all that the text of an operand, an
instruction, an edge, a lifted statement or a decoding error ever has, and the cells and
lines made of these texts have no others.
-/

namespace WordMachine

theorem mem_of_mem_intersperse {α : Type} {x between : α} {xs : List α}
    (h : x ∈ xs.intersperse between) : x = between ∨ x ∈ xs := by
  induction xs with
  | nil => exact Or.inr h
  | cons y ys ih =>
    cases ys with
    | nil => exact Or.inr h
    | cons z zs =>
      rw [List.intersperse_cons_cons, List.mem_cons, List.mem_cons] at h
      rcases h with rfl | rfl | h
      · exact Or.inr List.mem_cons_self
      · exact Or.inl rfl
      · exact (ih h).imp_right (List.mem_cons_of_mem y)

namespace Text

/-- A character of joined texts is one of a text or of what stands between them. -/
theorem mem_intercalate {c : Char} {between : String} {texts : List String}
    (h : c ∈ (between.intercalate texts).toList) :
    c ∈ between.toList ∨ ∃ text ∈ texts, c ∈ text.toList := by
  rw [String.toList_intercalate, List.intercalate, List.mem_flatten] at h
  obtain ⟨piece, hpiece, hc⟩ := h
  rcases mem_of_mem_intersperse hpiece with rfl | hpiece
  · exact Or.inl hc
  · obtain ⟨text, htext, rfl⟩ := List.mem_map.1 hpiece
    exact Or.inr ⟨text, htext, hc⟩

/-! ## Printable texts -/

/-- The text has no characters but those from the space to the tilde. -/
def IsPrintable (text : String) : Prop := ∀ c ∈ text.toList, isPrintableAscii c

instance (text : String) : Decidable (IsPrintable text) :=
  decidable_of_iff (text.toList.all isPrintableAscii) List.all_eq_true

namespace IsPrintable

variable {text other : String}

/-- A text is printable if its parts are. -/
@[simp] theorem append_iff :
    IsPrintable (text ++ other) ↔ IsPrintable text ∧ IsPrintable other := by
  rw [IsPrintable, String.toList_append]
  exact List.forall_mem_append

theorem append (h : IsPrintable text) (hother : IsPrintable other) : IsPrintable (text ++ other) :=
  append_iff.2 ⟨h, hother⟩

theorem of_run (h : IsAlphanumericRun text.toList) : IsPrintable text :=
  fun c hc => isPrintableAscii_of_isAlphanum (h.2 c hc)

theorem replicate {fill : Char} (hfill : isPrintableAscii fill) (count : Nat) :
    IsPrintable (String.ofList (List.replicate count fill)) := by
  intro c hc
  rw [String.toList_ofList] at hc
  rwa [List.eq_of_mem_replicate hc]

theorem intercalate {texts : List String} (hbetween : IsPrintable other)
    (h : ∀ text ∈ texts, IsPrintable text) : IsPrintable (other.intercalate texts) := by
  intro c hc
  rcases mem_intercalate hc with hc | ⟨text, htext, hc⟩
  · exact hbetween c hc
  · exact h text htext c hc

@[simp] theorem decimal (n : Nat) : IsPrintable (Numeral.decimal n) := by
  intro c hc
  have hdigit := Numeral.isDigit_of_mem_decimal hc
  exact isPrintableAscii_of_isAlphanum (by simp [Char.isAlphanum, hdigit])

/-- What is not printable ASCII stands in no printable text: no line end, and no column rule. -/
theorem notMem (h : IsPrintable text) {c : Char} (hc : ¬ isPrintableAscii c) : c ∉ text.toList :=
  fun hmem => hc (h c hmem)

end IsPrintable

end Text

open Text (IsPrintable)

/-! ## Words, registers and addresses -/

@[simp] theorem Word.isPrintable_text (word : Word) : IsPrintable word.text :=
  .of_run word.denotes_text.isAlphanumericRun

@[simp] theorem Register.isPrintable_text (register : Register) : IsPrintable register.text :=
  .of_run register.isAlphanumericRun_text

@[simp] theorem Address.isPrintable_text (address : Address) : IsPrintable address.text :=
  .of_run address.denotes_text.isAlphanumericRun

/-! ## Instructions -/

namespace Instruction

@[simp] theorem isPrintable_text (instruction : Instruction) : IsPrintable instruction.text :=
  fun _ hc => isPrintableAscii_of_mem_text hc

theorem isPrintable_of_mem_tokens {instruction : Instruction} {token : Token}
    (h : token ∈ instruction.tokens) : IsPrintable token.text := by
  simp only [tokens, List.mem_append, List.mem_cons, List.not_mem_nil, or_false] at h
  rcases h with (rfl | rfl | rfl) | h
  · exact instruction.address.isPrintable_text
  · decide
  · have hname := instruction.operation.isAlphanumericRun_mnemonic
    exact .append (.of_run hname) (.replicate (by decide) _)
  · rcases mem_of_mem_intersperse h with rfl | h
    · decide
    · obtain ⟨operand, -, rfl⟩ := List.mem_map.1 h
      exact fun c hc => Operand.isPrintableAscii_of_mem_token hc

end Instruction

theorem EdgeKind.isPrintable_text (kind : EdgeKind) : IsPrintable kind.text := by
  cases kind <;> decide

theorem Edge.isPrintable_text (edge : Edge) : IsPrintable edge.text := by
  rw [text]
  cases edge.target with
  | none => exact edge.kind.isPrintable_text
  | some target => simp +decide [edge.kind.isPrintable_text]

/-! ## Lifted statements -/

namespace Lifted

@[simp] theorem Operator.isPrintable_text (operator : Operator) : IsPrintable operator.text := by
  cases operator <;> decide

/-- By induction on the value: each form puts fixed words around the texts of its parts. -/
@[simp] theorem Expr.isPrintable_text (expr : Expr) : IsPrintable expr.text := by
  induction expr with
  | const value => exact value.isPrintable_text
  | reg register => exact register.isPrintable_text
  | pop | input => decide
  | load address ih => simp +decide [text, ih]
  | complement operand ih => simp +decide [text, ih]
  | binary operator left right ihleft ihright => simp +decide [text, ihleft, ihright]

@[simp] theorem Target.isPrintable_text (target : Target) : IsPrintable target.text := by
  cases target with
  | label address => exact address.isPrintable_text
  | indirect address => exact address.isPrintable_text

theorem Statement.isPrintable_text (statement : Statement) : IsPrintable statement.text := by
  cases statement <;> simp +decide [text]

end Lifted

theorem DecodeError.isPrintable_message (error : DecodeError) : IsPrintable error.message := by
  have haddress := Address.isPrintable_text
  have hnumber := IsPrintable.decimal
  cases error with
  | misaligned address => exact .append (.append (by decide) (haddress _)) (by decide)
  | noOpcode address => exact .append (by decide) (haddress _)
  | unknownOpcode address word =>
    exact .append (.append (.append (hnumber _) (by decide)) (haddress _)) (by decide)
  | truncated address needed available =>
    have hstart : IsPrintable ("instruction at " ++ address.text ++ " needs ") :=
      .append (.append (by decide) (haddress _)) (by decide)
    exact .append (.append (.append (.append hstart (hnumber _)) (by decide)) (hnumber _))
      (by decide)
  | invalidOperand address index word =>
    have hstart : IsPrintable ("operand " ++ Numeral.decimal index ++ " of instruction at ") :=
      .append (.append (by decide) (hnumber _)) (by decide)
    exact .append (.append (.append hstart (haddress _)) (by decide)) (hnumber _)

/-! ## Reports -/

namespace CommandLine

/-- The four digits of a word. -/
theorem isAlphanumericRun_fourDigits (word : Word) :
    IsAlphanumericRun (Text.padLeft '0' 4 (Numeral.lowerHex word.toNat)).toList := by
  rw [Text.padLeft, String.toList_append, String.toList_ofList]
  refine ⟨List.append_ne_nil_of_right_ne_nil _ (Numeral.lowerHex_ne_nil _), fun c hc => ?_⟩
  rcases List.mem_append.1 hc with hc | hc
  · rw [List.eq_of_mem_replicate hc]
    decide
  · exact Numeral.isAlphanum_of_mem_lowerHex hc

theorem isPrintable_wordsCell (instruction : Instruction) :
    IsPrintable (wordsCell instruction) := by
  refine .intercalate (by decide) fun text htext => ?_
  obtain ⟨word, -, rfl⟩ := List.mem_map.1 htext
  exact .of_run (isAlphanumericRun_fourDigits word)

theorem isPrintable_edgesCell (instruction : Instruction) :
    IsPrintable (edgesCell instruction) := by
  refine .intercalate (by decide) fun text htext => ?_
  obtain ⟨edge, -, rfl⟩ := List.mem_map.1 htext
  exact edge.isPrintable_text

/-- Every cell of the table of instructions is printable. -/
theorem isPrintable_of_mem_row {item : Item} {cell : String} (h : cell ∈ row item) :
    IsPrintable cell := by
  unfold row at h
  split at h
  · next instruction _ =>
    simp only [List.mem_cons, List.not_mem_nil, or_false] at h
    rcases h with rfl | rfl | rfl | rfl
    · exact item.address.isPrintable_text
    · exact isPrintable_wordsCell instruction
    · exact instruction.isPrintable_text
    · exact isPrintable_edgesCell instruction
  · next error _ =>
    simp only [List.mem_cons, List.not_mem_nil, or_false] at h
    rcases h with rfl | rfl | rfl | rfl
    · exact item.address.isPrintable_text
    · decide
    · decide
    · exact error.isPrintable_message

/-- So is every line of the list of lifted instructions. -/
theorem isPrintable_of_mem_liftedLines {item : Item} {line : String} (h : line ∈ liftedLines item) :
    IsPrintable line := by
  unfold liftedLines at h
  split at h
  · next instruction _ =>
    rcases List.mem_cons.1 h with rfl | h
    · simp +decide
    · obtain ⟨statement, -, rfl⟩ := List.mem_map.1 h
      simp +decide [statement.isPrintable_text]
  · next error _ =>
    rw [List.mem_singleton.1 h]
    simp +decide [error.isPrintable_message]

end CommandLine

end WordMachine
