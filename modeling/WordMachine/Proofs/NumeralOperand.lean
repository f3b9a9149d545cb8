import Mathlib.Algebra.Group.Nat.Defs
import WordMachine.Proofs.OperandPlace

/-!
# Numerals as operands

A numeral counts by its value. The number of its digits, the zeros in front and the case of its
letters do not matter; only an error that repeats the operand shows how it was written.

The bounds are not checked in the order of their size. What has more than 32 bits is no number
to begin with. An address must then be even, and only the word index that it stands for is held
against the greatest literal. So an odd address is misaligned even if it is too great as well.
-/

namespace WordMachine.Assembly

/-- What slot number `index`, of this kind, makes of a numeral for the number. -/
inductive SlotReads (index : Nat) (kind : SlotKind) (numeral : List Char) :
    Nat → Except LineError Word → Prop
  | registerOnly {n : Nat} : kind = .register →
      SlotReads index kind numeral n (.error (.expectedRegister index (String.ofList numeral)))
  | literal {n : Nat} : kind ≠ .register → ¬ kind.isAddress → n ≤ 32767 →
      SlotReads index kind numeral n (.ok (UInt16.ofNat n))
  | literalOutOfRange {n : Nat} : kind ≠ .register → ¬ kind.isAddress → 32768 ≤ n → n < 2 ^ 32 →
      SlotReads index kind numeral n (.error (.literalOutOfRange index n))
  | misaligned {n : Nat} : kind.isAddress → n % 2 = 1 → n < 2 ^ 32 →
      SlotReads index kind numeral n (.error (.misalignedAddress index n))
  | address {n : Nat} : kind.isAddress → n % 2 = 0 → n ≤ 65534 →
      SlotReads index kind numeral n (.ok (UInt16.ofNat (n / 2)))
  /-- The number is given as it was written, in bytes. -/
  | addressOutOfRange {n : Nat} : kind.isAddress → n % 2 = 0 → 65534 < n → n < 2 ^ 32 →
      SlotReads index kind numeral n (.error (.literalOutOfRange index n))
  | tooLong {n : Nat} : kind ≠ .register → 2 ^ 32 ≤ n →
      SlotReads index kind numeral n (.error (.unparsableOperand index (String.ofList numeral)))

variable {index n : Nat} {kind : SlotKind} {numeral : List Char} {result : Except LineError Word}

theorem requiresRegister_eq_false (h : kind ≠ .register) : kind.requiresRegister = false :=
  beq_eq_false_iff_ne.2 h

theorem requiresRegister_of_isAddress (h : kind.isAddress) : kind.requiresRegister = false := by
  refine requiresRegister_eq_false ?_
  rintro rfl
  exact absurd h (by decide)

/-! ## A numeral in a slot -/

/-- The readings of the numeral are what the slot makes of it. -/
theorem SlotReads.word_eq (h : SlotReads index kind numeral n result)
    (hnumeral : Denotes numeral n) : (Spelling.bare numeral).word index kind = result := by
  change bareWord index kind numeral = result
  cases h with
  | registerOnly hkind =>
    refine bareWord_of_requiresRegister hnumeral.registerDigits?_eq_none ?_
    rw [hkind]
    decide
  | literal hkind haddress hle =>
    have hlt : n < numeralLimit := Nat.lt_of_le_of_lt hle (by decide)
    rw [hnumeral.bareWord_of_lt hlt (requiresRegister_eq_false hkind)]
    exact literalWord_of_le haddress hle
  | literalOutOfRange hkind haddress hgt hlt =>
    rw [hnumeral.bareWord_of_lt hlt (requiresRegister_eq_false hkind)]
    exact literalWord_of_gt haddress hgt
  | misaligned haddress hodd hlt =>
    rw [hnumeral.bareWord_of_lt hlt (requiresRegister_of_isAddress haddress)]
    exact literalWord_of_odd haddress hodd
  | address haddress heven hle =>
    have hlt : n < numeralLimit := Nat.lt_of_le_of_lt hle (by decide)
    rw [hnumeral.bareWord_of_lt hlt (requiresRegister_of_isAddress haddress)]
    exact literalWord_of_even_le haddress heven hle
  | addressOutOfRange haddress heven hgt hlt =>
    rw [hnumeral.bareWord_of_lt hlt (requiresRegister_of_isAddress haddress)]
    exact literalWord_of_even_gt haddress heven hgt
  | tooLong hkind hle => exact hnumeral.bareWord_of_le hle (requiresRegister_eq_false hkind)

/-- Each number is covered, in slots of each kind. -/
theorem exists_slotReads (index : Nat) (kind : SlotKind) (numeral : List Char) (n : Nat) :
    ∃ result, SlotReads index kind numeral n result := by
  by_cases hkind : kind = .register
  · exact ⟨_, .registerOnly hkind⟩
  rcases Nat.lt_or_ge n (2 ^ 32) with hlt | hle
  · by_cases haddress : kind.isAddress
    · rcases Nat.mod_two_eq_zero_or_one n with heven | hodd
      · rcases Nat.lt_or_ge 65534 n with hgt | hmax
        · exact ⟨_, .addressOutOfRange haddress heven hgt hlt⟩
        · exact ⟨_, .address haddress heven hmax⟩
      · exact ⟨_, .misaligned haddress hodd hlt⟩
    · rcases Nat.lt_or_ge 32767 n with hgt | hmax
      · exact ⟨_, .literalOutOfRange hkind haddress hgt hlt⟩
      · exact ⟨_, .literal hkind haddress hmax⟩
  · exact ⟨_, .tooLong hkind hle⟩

theorem existsUnique_slotReads (hnumeral : Denotes numeral n) :
    ∃! result, SlotReads index kind numeral n result := by
  obtain ⟨result, hresult⟩ := exists_slotReads index kind numeral n
  refine ⟨result, hresult, fun other hother => ?_⟩
  rw [← hresult.word_eq hnumeral, hother.word_eq hnumeral]

/-! ## Words that are no register's -/

/-- A numeral does not start with a letter. -/
theorem Denotes.not_isRegisterName (h : Denotes numeral n) :
    ¬ (Spelling.bare numeral).IsRegisterName := by
  rintro ⟨digits, -, -, hname⟩
  obtain ⟨c, rest, rfl, hc⟩ := h.exists_isDigit
  rw [(List.cons.inj (Spelling.bare.inj hname)).1] at hc
  exact absurd hc (by decide)

/-- Of the words behind the opcode, those of operands that are not written like registers are
literals. -/
def Line.PutsLiterals (line : Line) (words : List Word) : Prop :=
  words.length = line.operands.length
    ∧ ∀ (slot : Nat) (spelling : Spelling) (word : Word), line.operands[slot]? = some spelling →
        words[slot]? = some word → ¬ spelling.IsRegisterName → word ≤ Word.literalMax

theorem Line.exists_putsLiterals {line : Line} {words : List Word} (h : line.words = .ok words) :
    ∃ (operation : Operation) (operands : List Word),
      words = operation.opcode :: operands ∧ line.PutsLiterals operands := by
  obtain ⟨operation, operands, -, hlength, hoperands, rfl⟩ := Line.words_eq_ok_iff.1 h
  obtain ⟨hcount, hslots⟩ := operandWords_eq_ok hoperands hlength
  refine ⟨operation, operands, rfl, hcount.trans hlength.symm, ?_⟩
  intro slot spelling word hslot hword hregister
  obtain ⟨kind, given, -, hgiven, hread⟩ := hslots slot spelling hslot
  obtain rfl := Option.some.inj (hgiven.symm.trans hword)
  exact spelling.le_literalMax_of_word_eq_ok hread hregister

variable {text : String} {name : List Char} {before after : List Spelling} {other : Spelling}
  {operation : Operation} {front back : List Word} {word : Word}

/-- **Numerals of any length are read by value.** A line that is accepted with some operand in a
slot, and has a numeral there, comes to the word or the error that the number, the kind of the slot
and its bounds say. Nothing else decides, and there is one answer for each number. The words that
lines put for operands are literals wherever no register is named. -/
theorem assemble_numeral (hnumeral : Denotes numeral n)
    (hplaced : Grammar.Places name before after numeral (Text.trim text.toList))
    (hvalid : Line.words ⟨name, before ++ other :: after⟩
      = .ok (operation.opcode :: (front ++ word :: back)))
    (hfront : front.length = before.length)
    (hkind : operation.slots[before.length]? = some kind) :
    (∃! result, SlotReads before.length kind numeral n result)
      ∧ (∀ result, SlotReads before.length kind numeral n result →
          assemble text = result.map (fun read =>
              Image.ofWords (operation.opcode :: (front ++ read :: back)))
            ∧ ∀ read, result = .ok read → read ≤ Word.literalMax)
      ∧ ∀ accepted image, assemble accepted = .ok image →
          ∃ (line : Line) (operation : Operation) (words : List Word),
            Grammar.Derives line (Text.trim accepted.toList)
              ∧ image = Image.ofWords (operation.opcode :: words) ∧ line.PutsLiterals words := by
  refine ⟨existsUnique_slotReads hnumeral, fun result hresult => ⟨?_, fun read hread => ?_⟩,
    fun accepted image h => ?_⟩
  · rw [← hresult.word_eq hnumeral]
    exact assembleLine_of_places hplaced
      (Grammar.operand_alphanumericRun hnumeral.isAlphanumericRun) hvalid hfront hkind
  · have hword := (hresult.word_eq hnumeral).trans hread
    exact Spelling.le_literalMax_of_word_eq_ok hword hnumeral.not_isRegisterName
  · obtain ⟨line, words, hderives, hwords, rfl⟩ := assembleLine_eq_ok_iff.1 h
    obtain ⟨operation, operands, rfl, hliterals⟩ := Line.exists_putsLiterals hwords
    exact ⟨line, operation, operands, hderives, rfl, hliterals⟩

/-- The greatest address that can be written, in hexadecimal with zeros in front. -/
theorem assemble_jt_greatest_address :
    assemble "jt R0, 0X00fFfE" = .ok [7, 0, 0, 128, 255, 127] := by
  have hnumeral : Denotes "0X00fFfE".toList 65534 :=
    .hexadecimal (Or.inr rfl) (by decide) (List.all_eq_true.1 rfl)
  have hname : IsAlphanumericRun "jt".toList := Operation.jt.isAlphanumericRun_mnemonic
  have hregister : IsAlphanumericRun "R0".toList := Register.isAlphanumericRun_text ⟨0⟩
  have hplaced : Grammar.Places "jt".toList [.bare "R0".toList] [] "0X00fFfE".toList
      (Text.trim "jt R0, 0X00fFfE".toList) :=
    .line Grammar.gap_nil hname
      (.more Grammar.separator_space (Grammar.operand_alphanumericRun hregister _) .none)
      (.comma Grammar.gap_nil Grammar.gap_space) .none (.gap Grammar.gap_nil)
  have hvalid : Line.words ⟨"jt".toList, [.bare "R0".toList, .bare "0".toList]⟩
      = .ok (Operation.jt.opcode :: ([32768] ++ 0 :: [])) := by decide +kernel
  obtain ⟨-, hreads, -⟩ := assemble_numeral hnumeral hplaced hvalid rfl rfl
  exact (hreads _ (.address rfl rfl (Nat.le_refl _))).1

end WordMachine.Assembly
