import WordMachine.Operand

/-!
# What a word can mean

Every word falls into exactly one of three classes, by its value. The words that name
registers are an interval, one word for each register.
-/

namespace WordMachine

theorem Register.ofWord?_eq_some_iff {word : Word} {register : Register} :
    Register.ofWord? word = some register ↔ word = register.toWord := by
  constructor
  · intro h
    unfold ofWord? at h
    split at h
    · next hmin =>
      unfold ofIndex? at h
      split at h
      · obtain rfl := Option.some.inj h
        have hle := UInt16.le_iff_toNat_le.1 hmin
        have hword : Word.registerMin.toNat + (word.toNat - Word.registerMin.toNat) = word.toNat :=
          Nat.add_sub_cancel' hle
        rw [toWord, hword, UInt16.ofNat_toNat]
      · exact absurd h (by simp)
    · exact absurd h (by simp)
  · rintro rfl
    exact ofWord?_toWord register

theorem Register.toWord_bounds (register : Register) :
    Word.registerMin ≤ register.toWord ∧ register.toWord ≤ Word.registerMax := by
  obtain ⟨index⟩ := register
  revert index
  decide +kernel

theorem Register.not_toWord_le_literalMax (register : Register) :
    ¬ register.toWord ≤ Word.literalMax :=
  fun h => absurd (UInt16.le_trans register.toWord_bounds.1 h) (by decide)

theorem Word.meaning_toWord (register : Register) :
    Word.meaning register.toWord = .register register := by
  rw [meaning, if_neg register.not_toWord_le_literalMax, Register.ofWord?_toWord]

/-- The words of the register range are those that name a register. -/
theorem Register.exists_toWord {word : Word} (hmin : Word.registerMin ≤ word)
    (hmax : word ≤ Word.registerMax) : ∃ register : Register, word = register.toWord := by
  have hlow := UInt16.le_iff_toNat_le.1 hmin
  have hhigh := UInt16.le_iff_toNat_le.1 hmax
  have hindex : word.toNat - Word.registerMin.toNat < 8 := by
    simp only [Word.registerMin, Word.registerMax, UInt16.reduceToNat] at hlow hhigh ⊢
    omega
  refine ⟨⟨⟨_, hindex⟩⟩, ofWord?_eq_some_iff.1 ?_⟩
  rw [ofWord?, if_pos hmin, ofIndex?, dif_pos hindex]

/-- A word is a number, or names a register, or means nothing. -/
theorem Word.meaning_cases (word : Word) :
    (word ≤ literalMax ∧ word.meaning = .literal word)
      ∨ (∃ register : Register, word = register.toWord ∧ word.meaning = .register register)
      ∨ (registerMax < word ∧ word.meaning = .invalid word) := by
  by_cases hliteral : word ≤ literalMax
  · exact Or.inl ⟨hliteral, if_pos hliteral⟩
  · refine Or.inr ?_
    by_cases hmax : word ≤ registerMax
    · have hmin : registerMin ≤ word := by
        have hlt := UInt16.lt_iff_toNat_lt.1 (UInt16.not_le.1 hliteral)
        simp only [UInt16.le_iff_toNat_le, registerMin, literalMax, UInt16.reduceToNat] at hlt ⊢
        omega
      obtain ⟨register, rfl⟩ := Register.exists_toWord hmin hmax
      exact Or.inl ⟨register, rfl, meaning_toWord register⟩
    · have hnone : Register.ofWord? word = none := by
        refine Option.eq_none_iff_forall_ne_some.2 fun register hregister => hmax ?_
        rw [Register.ofWord?_eq_some_iff.1 hregister]
        exact register.toWord_bounds.2
      refine Or.inr ⟨UInt16.not_le.1 hmax, ?_⟩
      rw [meaning, if_neg hliteral, hnone]

namespace Operand

theorem isLiteral_iff {operand : Operand} :
    operand.isLiteral ↔ operand.word ≤ Word.literalMax := by
  simp [isLiteral]

theorem meaning_of_isLiteral {operand : Operand} (h : operand.isLiteral) :
    operand.meaning = .literal operand.word :=
  if_pos (isLiteral_iff.1 h)

end Operand

end WordMachine
