import WordMachine.Proofs.Assembling
import WordMachine.Proofs.SweepLayout

/-!
# Different instructions have different texts

The text of a decoded instruction tells everything about it but where it lies. Reading the
text as a line of assembly finds the mnemonic and one spelling for each operand, so two
instructions with the same text agree in these, and what is left to show concerns a single
slot: two words that mean something are not spelled alike there.

For most slots assembly shows it, by reading the word back. A number in a slot for a
register is not read back. It is refused, but the refusal repeats the text of the number,
and no two numbers share that.
-/

namespace WordMachine

namespace Operation

theorem mnemonic_inj {first second : Operation} (h : first.mnemonic = second.mnemonic) :
    first = second := by
  have hfound := ofMnemonic?_mnemonic first
  rw [h, ofMnemonic?_mnemonic] at hfound
  exact (Option.some.inj hfound).symm

end Operation

namespace Operand

/-- What a slot makes of the spelling of a word that means something: the word itself, or a refusal
that tells the number which cannot stand there. -/
theorem word_spelling_cases {operand : Operand} (h : operand.word ≤ Word.registerMax) :
    operand.spelling.word 0 operand.kind = .ok operand.word
      ∨ operand.spelling.word 0 operand.kind = .error (.expectedRegister 0 operand.word.text) := by
  rcases Word.meaning_cases operand.word with ⟨hle, -⟩ | ⟨register, hregister, -⟩ | ⟨hlt, -⟩
  · have hliteral : operand.isLiteral := isLiteral_iff.2 hle
    by_cases hkind : operand.kind = .register
    · exact Or.inr (word_spelling_of_misplaced hliteral hkind 0)
    · have hfree : operand.kind.requiresRegister = false := by
        simpa [SlotKind.requiresRegister] using hkind
      exact Or.inl (word_spelling_of_isLiteral hliteral hfree 0)
  · exact Or.inl (word_spelling_of_toWord hregister 0)
  · exact absurd h (UInt16.not_le.2 hlt)

/-- **In slots of one kind different words are spelled differently**, if they mean something. -/
theorem word_eq_of_spelling_eq {first second : Operand} (hkind : first.kind = second.kind)
    (hfirst : first.word ≤ Word.registerMax) (hsecond : second.word ≤ Word.registerMax)
    (h : first.spelling = second.spelling) : first.word = second.word := by
  have hsame : first.spelling.word 0 first.kind = second.spelling.word 0 second.kind := by
    rw [h, hkind]
  rcases word_spelling_cases hfirst with hread | hread
  · rcases word_spelling_cases hsecond with hread' | hread'
    · rw [hread, hread'] at hsame
      exact Except.ok.inj hsame
    · rw [hread, hread'] at hsame
      exact absurd hsame (by simp)
  · rcases word_spelling_cases hsecond with hread' | hread'
    · rw [hread, hread'] at hsame
      exact absurd hsame (by simp)
    · rw [hread, hread'] at hsame
      injection hsame with hrefusal
      injection hrefusal with _ htext
      exact Word.text_inj htext

end Operand

namespace Instruction

variable {first second : Instruction}

/-- Instructions with the same text are written with the same mnemonic and the same spellings. -/
theorem asLine_eq_of_text_eq (h : first.text = second.text) : first.asLine = second.asLine := by
  have hread := first.parse_text
  rw [h, second.parse_text] at hread
  exact (Except.ok.inj hread).symm

/-- A well formed instruction is told by its operation and the spellings of its operands. -/
theorem WellFormed.operands_eq_of_spelling_eq (hfirst : first.WellFormed)
    (hsecond : second.WellFormed) (hoperation : first.operation = second.operation)
    (h : first.operands.map Operand.spelling = second.operands.map Operand.spelling) :
    first.operands = second.operands := by
  refine List.ext_getElem? fun slot => ?_
  have hslot := congrArg (·[slot]?) h
  simp only [List.getElem?_map] at hslot
  -- either both have an operand in the slot or neither has one
  cases hoperand : first.operands[slot]? with
  | none =>
    rw [hoperand, Option.map_none] at hslot
    exact (Option.map_eq_none_iff.1 hslot.symm).symm
  | some operand =>
    rw [hoperand, Option.map_some] at hslot
    obtain ⟨other, hother, hspelling⟩ := Option.map_eq_some_iff.1 hslot.symm
    obtain ⟨hindex, hkind, hword⟩ := hfirst.operand slot operand hoperand
    obtain ⟨hindex', hkind', hword'⟩ := hsecond.operand slot other hother
    have hkinds : operand.kind = other.kind := by
      rw [hoperation, hkind'] at hkind
      exact (Option.some.inj hkind).symm
    have hwords := Operand.word_eq_of_spelling_eq hkinds hword hword' hspelling.symm
    obtain ⟨index, kind, word⟩ := operand
    obtain ⟨index', kind', word'⟩ := other
    rw [hother]
    simp only [Option.some.injEq, Operand.mk.injEq]
    exact ⟨hindex.trans hindex'.symm, hkinds, hwords⟩

/-- **The text of a well formed instruction tells everything but its place.** -/
theorem WellFormed.eq_moveTo_of_text_eq (hfirst : first.WellFormed) (hsecond : second.WellFormed)
    (h : first.text = second.text) : second = first.moveTo second.address := by
  have hline := asLine_eq_of_text_eq h
  simp only [asLine, Assembly.Line.mk.injEq] at hline
  have hoperation := Operation.mnemonic_inj (String.toList_inj.1 hline.1)
  have hoperands := hfirst.operands_eq_of_spelling_eq hsecond hoperation hline.2
  obtain ⟨place, operation, operands⟩ := second
  rw [Instruction.moveTo, hoperation, hoperands]

end Instruction

namespace Image

/--
**The text of a decoded instruction is unambiguous.**

Instructions with the same text, decoded from whatever images at whatever addresses, differ
in nothing but the address. They have the same operation and the same operand words, so
they are encoded as the same bytes. This is so for every word that decoding lets pass,
also for a number where only a register can stand, whose text assembly refuses.
-/
theorem decode_eq_of_text_eq {image other : Image} {address place : Address}
    {first second : Instruction} (hfirst : image.decode address = .ok first)
    (hsecond : other.decode place = .ok second) (h : first.text = second.text) :
    first.operation = second.operation
      ∧ first.operands.map Operand.word = second.operands.map Operand.word
      ∧ first.encode = second.encode
      ∧ second = first.moveTo place := by
  obtain ⟨-, -, hformed, -⟩ := decode_eq_ok_iff.1 hfirst
  obtain ⟨-, rfl, hformed', -⟩ := decode_eq_ok_iff.1 hsecond
  have hmoved := hformed.eq_moveTo_of_text_eq hformed' h
  have hoperation : first.operation = second.operation := by rw [hmoved]; rfl
  have hoperands : first.operands = second.operands := by rw [hmoved]; rfl
  refine ⟨hoperation, by rw [hoperands], ?_, hmoved⟩
  rw [Instruction.encode, Instruction.encode, Instruction.words, Instruction.words, hoperation,
    hoperands]

/-- A number in a slot for a register, at the start of one image and inside another. -/
theorem decode_eq_of_text_eq_set :
    Instruction.text ⟨⟨0⟩, .set, [⟨0, .register, 5⟩, ⟨1, .value, 32775⟩]⟩ = "set 0x5, R7"
      ∧ Instruction.text ⟨⟨2⟩, .set, [⟨0, .register, 5⟩, ⟨1, .value, 32775⟩]⟩ = "set 0x5, R7"
      ∧ Instruction.encode ⟨⟨0⟩, .set, [⟨0, .register, 5⟩, ⟨1, .value, 32775⟩]⟩
        = Instruction.encode ⟨⟨2⟩, .set, [⟨0, .register, 5⟩, ⟨1, .value, 32775⟩]⟩ := by
  have hfirst : decode [1, 0, 5, 0, 7, 128, 0, 0] ⟨0⟩
      = .ok ⟨⟨0⟩, .set, [⟨0, .register, 5⟩, ⟨1, .value, 32775⟩]⟩ := by rfl
  have hsecond : decode [255, 255, 1, 0, 5, 0, 7, 128] ⟨2⟩
      = .ok ⟨⟨2⟩, .set, [⟨0, .register, 5⟩, ⟨1, .value, 32775⟩]⟩ := by rfl
  have htext : Instruction.text ⟨⟨0⟩, .set, [⟨0, .register, 5⟩, ⟨1, .value, 32775⟩]⟩
      = "set 0x5, R7" := by
    with_unfolding_all rfl
  have htext' : Instruction.text ⟨⟨2⟩, .set, [⟨0, .register, 5⟩, ⟨1, .value, 32775⟩]⟩
      = "set 0x5, R7" := by
    with_unfolding_all rfl
  have hsame := decode_eq_of_text_eq hfirst hsecond (htext.trans htext'.symm)
  exact ⟨htext, htext', hsame.2.2.1⟩

end Image

end WordMachine
