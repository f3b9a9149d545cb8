import WordMachine.Proofs.OperandPlace

/-!
# Constants for a character

A character to be written can be given between quotes, as it stands or escaped, or as a number.
The quoted form stands even where the character would end an operand, or the line, and the
character between the quotes can be the quote itself. The forms come to the same word, or to
the same error where the code point does not fit into one.
-/

namespace WordMachine.Assembly

/-- The text is a constant for the character. -/
inductive Constant (c : Char) : List Char → Prop
  | escaped {mark : Char} : Grammar.IsMark mark →
      Constant c (mark :: ((Text.escape c).toList ++ [mark]))
  | raw {mark : Char} : Grammar.IsMark mark → c ≠ '\\' → Constant c [mark, c, mark]
  | numeral {text : List Char} : Denotes text c.toNat → Constant c text

variable {c : Char} {constant : List Char}

theorem Grammar.IsMark.not_isBlank {mark : Char} (h : Grammar.IsMark mark) :
    ¬ Text.isBlank mark := by
  rcases h with rfl | rfl <;> decide

/-- A constant has no blanks at its ends, even if the character is one. -/
theorem Constant.isTrimmed (h : Constant c constant) : Text.IsTrimmed constant := by
  cases h with
  | @escaped mark hmark =>
    have hlast : (mark :: ((Text.escape c).toList ++ [mark])).getLast? = some mark := by
      rw [← List.cons_append, List.getLast?_concat]
    exact ⟨⟨mark, rfl, hmark.not_isBlank⟩, mark, hlast, hmark.not_isBlank⟩
  | @raw mark hmark _ => exact ⟨⟨mark, rfl, hmark.not_isBlank⟩, mark, rfl, hmark.not_isBlank⟩
  | numeral hnumeral => exact hnumeral.isAlphanumericRun.isTrimmed

/-- **Every constant for a character is an operand that comes to its code point.** -/
theorem Constant.exists_spelling (h : Constant c constant) :
    ∃ spelling : Spelling, (∀ rest, Grammar.Operand spelling constant rest)
      ∧ ∀ index, spelling.word index .char = literalWord index .char c.toNat := by
  cases h with
  | escaped hmark =>
    exact ⟨.quoted c, fun rest => .quoted (.quotes hmark (Grammar.character_escape c)),
      fun index => rfl⟩
  | raw hmark hbackslash =>
    exact ⟨.quoted c, fun rest => .quoted (.quotes hmark (.raw hbackslash)), fun index => rfl⟩
  | numeral hnumeral =>
    have hlt : c.toNat < numeralLimit := Nat.lt_trans (codePoint_lt c) (by decide)
    exact ⟨.bare constant, Grammar.operand_alphanumericRun hnumeral.isAlphanumericRun,
      fun index => hnumeral.bareWord_of_lt hlt (by decide)⟩

/-- What a line comes to that writes the character. -/
def writing (c : Char) : Except LineError Image :=
  if c.toNat ≤ 32767 then .ok (Image.ofWords [19, UInt16.ofNat c.toNat])
  else .error (.literalOutOfRange 0 c.toNat)

theorem assembleLine_out_constant {cs : List Char} (h : Constant c constant)
    (hplaced : Grammar.Places "out".toList [] [] constant (Text.trim cs)) :
    assembleLine cs = writing c := by
  obtain ⟨spelling, hoperand, hword⟩ := h.exists_spelling
  have hvalid : Line.words ⟨"out".toList, [] ++ .bare ['0'] :: []⟩
      = .ok (Operation.output.opcode :: ([] ++ 0 :: [])) := by decide +kernel
  have hchar : ¬ SlotKind.char.isAddress := by decide
  rw [assembleLine_of_places hplaced hoperand hvalid rfl rfl, hword, writing]
  split
  · next hle =>
    rw [literalWord_of_le hchar hle]
    rfl
  · next hgt =>
    rw [literalWord_of_gt hchar (Nat.not_le.1 hgt)]
    rfl

/-- The constant behind the mnemonic and a space is in the operand's place. -/
theorem Constant.places (h : Constant c constant) :
    Grammar.Places "out".toList [] [] constant (Text.trim ("out ".toList ++ constant)) := by
  obtain ⟨last, hlast, hblank⟩ := h.isTrimmed.last
  have htrimmed : Text.IsTrimmed ("out ".toList ++ constant) := by
    refine ⟨⟨'o', rfl, by decide⟩, last, ?_, hblank⟩
    rw [List.getLast?_append, Option.mem_def.1 hlast]
    rfl
  have hplaced : Grammar.Places "out".toList [] [] constant
      ([] ++ ("out".toList ++ ([' '] ++ (constant ++ [])))) :=
    .line Grammar.gap_nil Operation.output.isAlphanumericRun_mnemonic .none
      Grammar.separator_space .none (.gap Grammar.gap_nil)
  rw [List.append_nil] at hplaced
  rw [htrimmed.trim_eq_self]
  exact hplaced

/-- **Character constants and numbers agree.** Whatever constant is given for a character, and
however the line is laid out around it, the line that writes it comes to one and the same. -/
theorem assemble_out_constant (h : Constant c constant) :
    assemble ("out " ++ String.ofList constant) = writing c
      ∧ ∀ text : String, Grammar.Places "out".toList [] [] constant (Text.trim text.toList) →
          assemble text = writing c := by
  have htext : ("out " ++ String.ofList constant).toList = "out ".toList ++ constant := by
    rw [String.toList_append, @String.toList_ofList constant]
  refine ⟨?_, fun text hplaced => assembleLine_out_constant h hplaced⟩
  rw [assemble, htext]
  exact assembleLine_out_constant h h.places

/-- A quote between quotes of its kind, and a sign beyond the literals as a number. -/
theorem assemble_out_quote_rocket :
    assemble "out '''" = .ok [19, 0, 39, 0]
      ∧ assemble "out 0x0001F680" = .error (.literalOutOfRange 0 0x1F680) := by
  have hquote : Constant '\'' ['\'', '\'', '\''] := .raw (Or.inl rfl) (by decide)
  have hrocket : Constant '🚀' "0x0001F680".toList :=
    .numeral (.hexadecimal (Or.inl rfl) (by decide) (List.all_eq_true.1 rfl))
  exact ⟨(assemble_out_constant hquote).1, (assemble_out_constant hrocket).1⟩

end WordMachine.Assembly
