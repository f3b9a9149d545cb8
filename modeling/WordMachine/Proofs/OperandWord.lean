import WordMachine.Proofs.Spelling

/-!
# The word of an operand

Two facts carry everything about operand words. What the assembler makes of a spelling
is a word that the slot accepts, whatever the spelling. And the spelling that
disassembly chooses for an operand stands for the operand's own word, unless a number
stands where only a register can.
-/

namespace WordMachine

/-- The words that assembly puts into a slot of this kind: the words that name a register and, where
a register is not required, numbers. -/
def SlotKind.Accepts (kind : SlotKind) (word : Word) : Prop :=
  (word ≤ Word.literalMax ∧ kind.requiresRegister = false)
    ∨ ∃ register : Register, word = register.toWord

theorem SlotKind.Accepts.le_registerMax {kind : SlotKind} {word : Word} (h : kind.Accepts word) :
    word ≤ Word.registerMax := by
  rcases h with ⟨hliteral, _⟩ | ⟨register, rfl⟩
  · exact UInt16.le_trans hliteral (by decide)
  · exact register.toWord_bounds.2

namespace Assembly

/-! ## Every word fits its slot -/

theorem bind_eq_ok_iff {ε α β : Type} {x : Except ε α} {f : α → Except ε β} {b : β} :
    (x >>= f) = .ok b ↔ ∃ a, x = .ok a ∧ f a = .ok b := by
  cases x with
  | error e => exact ⟨fun h => absurd h (by simp [bind, Except.bind]), by rintro ⟨_, h, _⟩; cases h⟩
  | ok a => exact ⟨fun h => ⟨a, rfl, h⟩, by rintro ⟨_, h, hb⟩; cases h; exact hb⟩

theorem literalWord_eq_ok {index : Nat} {kind : SlotKind} {number : Nat} {word : Word}
    (h : literalWord index kind number = .ok word) : word ≤ Word.literalMax := by
  simp only [literalWord] at h
  split at h
  · exact absurd h (by simp)
  · by_cases hle : (if kind.isAddress then number / Word.size else number) ≤ Word.literalMax.toNat
    · rw [if_pos hle] at h
      rw [← Except.ok.inj h, UInt16.le_iff_toNat_le, UInt16.toNat_ofNat']
      exact Nat.le_trans (Nat.mod_le _ _) hle
    · rw [if_neg hle] at h
      exact absurd h (by simp)

/-- Only what is written like a register is one, and only where no register is required can anything
else stand. -/
theorem bareWord_eq_ok {index : Nat} {kind : SlotKind} {text : List Char} {word : Word}
    (h : bareWord index kind text = .ok word) :
    (word ≤ Word.literalMax ∧ kind.requiresRegister = false)
      ∨ ∃ (digits : List Char) (register : Register),
          registerDigits? text = some digits ∧ word = register.toWord := by
  unfold bareWord at h
  split at h
  · next digits hshape =>
    split at h
    · next register _ => exact Or.inr ⟨digits, register, hshape, (Except.ok.inj h).symm⟩
    · exact absurd h (by simp)
  · split at h
    · exact absurd h (by simp)
    · next hkind =>
      have hkind : kind.requiresRegister = false := by simpa using hkind
      split at h
      · exact Or.inl ⟨literalWord_eq_ok h, hkind⟩
      · split at h
        · exact Or.inl ⟨literalWord_eq_ok h, hkind⟩
        · exact absurd h (by simp)

theorem quotedWord_eq_ok {index : Nat} {kind : SlotKind} {c : Char} {word : Word}
    (h : quotedWord index kind c = .ok word) :
    word ≤ Word.literalMax ∧ kind.requiresRegister = false := by
  unfold quotedWord at h
  split at h
  · exact absurd h (by simp)
  · next hkind =>
    split at h
    · exact ⟨literalWord_eq_ok h, by simpa using hkind⟩
    · exact absurd h (by simp)

theorem Spelling.accepts_of_word_eq_ok {spelling : Spelling} {index : Nat} {kind : SlotKind}
    {word : Word} (h : spelling.word index kind = .ok word) : kind.Accepts word := by
  cases spelling with
  | quoted c => exact Or.inl (quotedWord_eq_ok h)
  | bare text => exact (bareWord_eq_ok h).imp_right fun ⟨_, register, _, hword⟩ => ⟨register, hword⟩

/-- The operand is written like a register: `R` and decimal digits. -/
def Spelling.IsRegisterName (spelling : Spelling) : Prop :=
  ∃ digits, digits ≠ [] ∧ (∀ c ∈ digits, c.isDigit) ∧ spelling = .bare ('R' :: digits)

theorem isRegisterName_of_registerDigits? {text digits : List Char}
    (h : registerDigits? text = some digits) : (Spelling.bare text).IsRegisterName := by
  unfold registerDigits? at h
  split at h
  · next rest =>
    split at h
    · next hshape =>
      simp only [Bool.and_eq_true, Bool.not_eq_true', List.isEmpty_eq_false_iff] at hshape
      exact ⟨rest, hshape.1, List.all_eq_true.1 hshape.2, rfl⟩
    · exact absurd h (by simp)
  · exact absurd h (by simp)

/-- What is not written like a register stands for a literal. -/
theorem Spelling.le_literalMax_of_word_eq_ok {spelling : Spelling} {index : Nat} {kind : SlotKind}
    {word : Word} (h : spelling.word index kind = .ok word) (hname : ¬ spelling.IsRegisterName) :
    word ≤ Word.literalMax := by
  cases spelling with
  | quoted c => exact (quotedWord_eq_ok h).1
  | bare text =>
    rcases bareWord_eq_ok h with ⟨hliteral, -⟩ | ⟨digits, register, hshape, -⟩
    · exact hliteral
    · exact absurd (isRegisterName_of_registerDigits? hshape) hname

/-- Where all slots get a word, each slot has its operand's. -/
theorem operandWords_eq_ok {index : Nat} {kinds : List SlotKind} {spellings : List Spelling}
    {words : List Word} (h : operandWords index kinds spellings = .ok words)
    (hlength : spellings.length = kinds.length) :
    words.length = kinds.length
      ∧ ∀ (slot : Nat) (spelling : Spelling), spellings[slot]? = some spelling →
          ∃ kind word, kinds[slot]? = some kind ∧ words[slot]? = some word
            ∧ spelling.word (index + slot) kind = .ok word := by
  induction kinds generalizing index spellings words with
  | nil =>
    obtain rfl := List.length_eq_zero_iff.1 hlength
    rw [operandWords] at h
    · obtain rfl := Except.ok.inj h
      exact ⟨rfl, fun slot spelling hslot => absurd hslot (by simp)⟩
    · simp
  | cons kind kinds ih =>
    cases spellings with
    | nil => exact absurd hlength (by simp)
    | cons spelling spellings =>
      simp only [operandWords] at h
      obtain ⟨word, hword, h⟩ := bind_eq_ok_iff.1 h
      obtain ⟨words', hwords, h⟩ := bind_eq_ok_iff.1 h
      obtain rfl := Except.ok.inj h
      obtain ⟨hcount, hslots⟩ := ih hwords (by simpa using hlength)
      refine ⟨by simp [hcount], fun slot given hslot => ?_⟩
      cases slot with
      | zero =>
        obtain rfl := Option.some.inj hslot
        exact ⟨kind, word, rfl, rfl, hword⟩
      | succ slot =>
        obtain ⟨kind', word', hkind, hword', hgiven⟩ := hslots slot given hslot
        have hindex : index + (slot + 1) = index + 1 + slot := by omega
        rw [hindex]
        exact ⟨kind', word', hkind, hword', hgiven⟩

/-- Each slot gets a word that it accepts. -/
theorem accepts_of_operandWords_eq_ok {index : Nat} {kinds : List SlotKind}
    {spellings : List Spelling} {words : List Word}
    (h : operandWords index kinds spellings = .ok words)
    (hlength : spellings.length = kinds.length) :
    words.length = kinds.length
      ∧ ∀ (slot : Nat) (kind : SlotKind) (word : Word),
          kinds[slot]? = some kind → words[slot]? = some word → kind.Accepts word := by
  obtain ⟨hcount, hslots⟩ := operandWords_eq_ok h hlength
  refine ⟨hcount, fun slot kind word hkind hword => ?_⟩
  have hslot : slot < spellings.length := hlength ▸ (List.getElem?_eq_some_iff.1 hkind).1
  obtain ⟨kind', word', hkind', hword', hgiven⟩ :=
    hslots slot _ (List.getElem?_eq_getElem hslot)
  obtain rfl := Option.some.inj (hkind.symm.trans hkind')
  obtain rfl := Option.some.inj (hword.symm.trans hword')
  exact Spelling.accepts_of_word_eq_ok hgiven

/-! ## A number as a word -/

section Number

variable {index number : Nat} {kind : SlotKind}

theorem literalWord_of_le (hkind : ¬ kind.isAddress) (hle : number ≤ 32767) :
    literalWord index kind number = .ok (UInt16.ofNat number) := by
  have hmax : number ≤ Word.literalMax.toNat := hle
  simp [literalWord, hkind, hmax]

theorem literalWord_of_gt (hkind : ¬ kind.isAddress) (hgt : 32767 < number) :
    literalWord index kind number = .error (.literalOutOfRange index number) := by
  have hmax : ¬ number ≤ Word.literalMax.toNat := Nat.not_le.2 hgt
  simp [literalWord, hkind, hmax]

theorem literalWord_of_odd (hkind : kind.isAddress) (hodd : number % 2 = 1) :
    literalWord index kind number = .error (.misalignedAddress index number) := by
  simp [literalWord, hkind, Word.size, hodd]

/-- A byte address is halved, so twice as much fits. -/
theorem literalWord_of_even_le (hkind : kind.isAddress) (heven : number % 2 = 0)
    (hle : number ≤ 65534) :
    literalWord index kind number = .ok (UInt16.ofNat (number / 2)) := by
  have hmax : number / 2 ≤ Word.literalMax.toNat := by
    change number / 2 ≤ 32767
    omega
  simp [literalWord, hkind, Word.size, heven, hmax]

theorem literalWord_of_even_gt (hkind : kind.isAddress) (heven : number % 2 = 0)
    (hgt : 65534 < number) :
    literalWord index kind number = .error (.literalOutOfRange index number) := by
  have hmax : ¬ number / 2 ≤ Word.literalMax.toNat := by
    change ¬ number / 2 ≤ 32767
    omega
  simp [literalWord, hkind, Word.size, heven, hmax]

end Number

/-- A literal stands for itself. -/
theorem literalWord_toNat {index : Nat} {kind : SlotKind} {word : Word}
    (h : word ≤ Word.literalMax) (hkind : ¬ kind.isAddress) :
    literalWord index kind word.toNat = .ok word := by
  rw [literalWord_of_le hkind (UInt16.le_iff_toNat_le.1 h), UInt16.ofNat_toNat]

/-- A word index doubled is halved again. -/
theorem literalWord_of_wordIndex {index : Nat} {kind : SlotKind} {word : Word}
    (h : word ≤ Word.literalMax) (hkind : kind.isAddress) :
    literalWord index kind (Address.ofWordIndex word).offset = .ok word := by
  have hle : word.toNat ≤ 32767 := UInt16.le_iff_toNat_le.1 h
  have hoffset : (Address.ofWordIndex word).offset = 2 * word.toNat := by
    simp only [Address.ofWordIndex, Word.size]
    omega
  have hhalf : 2 * word.toNat / 2 = word.toNat := by omega
  rw [hoffset, literalWord_of_even_le hkind (by omega) (by omega), hhalf, UInt16.ofNat_toNat]

/-! ## What disassembly writes stands for its word -/

theorem bareWord_register (index : Nat) (kind : SlotKind) (register : Register) :
    bareWord index kind register.text.toList = .ok register.toWord := by
  have hne := Numeral.decimal_ne_nil register.index.val
  have hdigits : (Numeral.decimal register.index.val).toList.all Char.isDigit = true :=
    List.all_eq_true.2 fun c hc => Numeral.isDigit_of_mem_decimal hc
  have hshape : registerDigits? register.text.toList
      = some (Numeral.decimal register.index.val).toList := by
    simp only [Register.toList_text, registerDigits?, hdigits, Bool.and_true]
    rw [if_pos (by simpa using hne)]
  have hnumber : registerNumbered? (Numeral.decimal register.index.val).toList = some register := by
    have hsign : (Numeral.decimal register.index.val).toList.head? ≠ some '+' := fun h =>
      absurd (Numeral.isDigit_of_mem_decimal (List.mem_of_head? h)) (by decide)
    have hread : Numeral.readDigits 10 Register.count 0
        (Numeral.decimal register.index.val).toList = .ok register.index.val :=
      Numeral.readDigits_decimal register.index.isLt
    rw [registerNumbered?, Numeral.read_eq_readDigits hne hsign, hread]
    exact dif_pos register.index.isLt
  simp only [bareWord, hshape, hnumber]

/-- Where only a register can stand nothing else is taken. -/
theorem bareWord_of_requiresRegister {index : Nat} {kind : SlotKind} {text : List Char}
    (hshape : registerDigits? text = none) (hkind : kind.requiresRegister) :
    bareWord index kind text = .error (.expectedRegister index (String.ofList text)) := by
  simp only [bareWord, hshape, hkind, if_true]

end Assembly

namespace Operand

/-- A register is written as itself in every slot. -/
theorem word_spelling_of_toWord {operand : Operand} {register : Register}
    (h : operand.word = register.toWord) (index : Nat) :
    operand.spelling.word index operand.kind = .ok operand.word := by
  have hquoted : ¬ operand.isShownQuoted := by
    simp [isShownQuoted, isLiteral, h, register.not_toWord_le_literalMax]
  have htoken : operand.token = ⟨.register, register.text⟩ := by
    simp only [token, meaning, h, Word.meaning_toWord]
  rw [spelling, if_neg hquoted, htoken, h]
  exact Assembly.bareWord_register index operand.kind register

/-- A number is written so that it is read back, except where only a register can stand. -/
theorem word_spelling_of_isLiteral {operand : Operand} (h : operand.isLiteral)
    (hkind : operand.kind.requiresRegister = false) (index : Nat) :
    operand.spelling.word index operand.kind = .ok operand.word := by
  have hliteral : operand.word ≤ Word.literalMax := isLiteral_iff.1 h
  have hlt : operand.word.toNat < 32768 :=
    Nat.lt_succ_of_le (UInt16.le_iff_toNat_le.1 hliteral)
  have hmeaning : operand.meaning = .literal operand.word := meaning_of_isLiteral h
  by_cases hchar : operand.kind.isChar
  · -- a character slot that takes no address: the code point is the word
    have htoNat : (Char.ofNat operand.word.toNat).toNat = operand.word.toNat := by
      rw [Char.ofNat, dif_pos (Or.inl (Nat.lt_trans hlt (by decide)))]
      rfl
    rw [spelling, if_pos (by simp [isShownQuoted, h, hchar])]
    simp only [Assembly.Spelling.word, Assembly.quotedWord, hkind, hchar, Assembly.characterWord,
      htoNat]
    exact Assembly.literalWord_toNat hliteral (show ¬ SlotKind.char.isAddress by decide)
  · rw [spelling, if_neg (by simp [isShownQuoted, hchar])]
    by_cases haddress : operand.kind.isAddress
    · have htoken : operand.token
          = ⟨.possibleAddress, (Address.ofWordIndex operand.word).text⟩ := by
        simp [token, hmeaning, hchar, haddress]
      have hlimit : (Address.ofWordIndex operand.word).offset < Assembly.numeralLimit := by
        simp only [Address.ofWordIndex, Word.size, Assembly.numeralLimit, UInt32.size]
        omega
      have hnumeral := (Address.ofWordIndex operand.word).denotes_text
      rw [htoken, Assembly.Spelling.word, hnumeral.bareWord_of_lt hlimit hkind]
      exact Assembly.literalWord_of_wordIndex hliteral haddress
    · have htoken : operand.token = ⟨.integer, operand.word.text⟩ := by
        simp [token, hmeaning, hchar, haddress]
      have hlimit : operand.word.toNat < Assembly.numeralLimit := Nat.lt_trans hlt (by decide)
      rw [htoken, Assembly.Spelling.word, operand.word.denotes_text.bareWord_of_lt hlimit hkind]
      exact Assembly.literalWord_toNat hliteral haddress

/-- A number where only a register can stand is shown as an integer. -/
theorem token_of_misplaced {operand : Operand} (h : operand.isLiteral)
    (hkind : operand.kind = .register) : operand.token = ⟨.integer, operand.word.text⟩ := by
  simp [token, meaning_of_isLiteral h, hkind, SlotKind.register]

/-- There it is refused, in the text it was shown with. -/
theorem word_spelling_of_misplaced {operand : Operand} (h : operand.isLiteral)
    (hkind : operand.kind = .register) (index : Nat) :
    operand.spelling.word index operand.kind
      = .error (.expectedRegister index operand.word.text) := by
  have hshape := operand.word.denotes_text.registerDigits?_eq_none
  have hregister : operand.kind.requiresRegister := by simp [SlotKind.requiresRegister, hkind]
  rw [spelling, if_neg (by simp [isShownQuoted, hkind, SlotKind.register]),
    token_of_misplaced h hkind, Assembly.Spelling.word,
    Assembly.bareWord_of_requiresRegister hshape hregister, String.ofList_toList]

end Operand

end WordMachine
