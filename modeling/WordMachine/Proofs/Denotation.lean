import WordMachine.Assembly.OperandWord
import WordMachine.Proofs.Grammar

/-!
# What a numeral denotes

A numeral is written in decimal digits, or in hexadecimal digits behind `0x`. It can have as
many as it likes, so what it denotes is a natural number of any size. Reading keeps to numbers
of 32 bits: it gives what the numeral denotes if that is one of them, and nothing otherwise.

Of the texts made of letters and digits, the numerals are the only ones that are read as
numbers. One more kind of text is read and is no numeral: it has a plus sign behind `0x`.
-/

namespace WordMachine

theorem Text.trimWhile_eq_self {p : Char → Bool} {cs : List Char} (h : ∀ c ∈ cs, ¬ p c) :
    trimWhile p cs = cs := by
  have hdrop : ∀ ds : List Char, (∀ d ∈ ds, ¬ p d) → ds.dropWhile p = ds := by
    intro ds hds
    cases ds with
    | nil => rfl
    | cons d ds => exact List.dropWhile_cons_of_neg (hds d List.mem_cons_self)
  rw [trimWhile, hdrop cs h, hdrop _ fun d hd => h d (List.mem_reverse.1 hd), List.reverse_reverse]

namespace Assembly

/-- The text is a numeral for the number. There may be zeros in front, and hexadecimal digits may
be written in letters of either case. -/
inductive Denotes : List Char → Nat → Prop
  | decimal {digits : List Char} : digits ≠ [] → (∀ c ∈ digits, c.isDigit) →
      Denotes digits (Numeral.denoted 10 digits)
  | hexadecimal {mark : Char} {digits : List Char} : mark = 'x' ∨ mark = 'X' → digits ≠ [] →
      (∀ c ∈ digits, isHexDigit c) → Denotes ('0' :: mark :: digits) (Numeral.denoted 16 digits)

variable {text : List Char} {n : Nat}

/-! ## Written numbers are numerals -/

/-- Disassembly writes numbers in capital letters, and addresses with zeros in front. -/
theorem denotes_zeros_upperHex (zeros n : Nat) :
    Denotes ('0' :: 'x' :: (List.replicate zeros '0' ++ (Numeral.upperHex n).toList)) n := by
  have hsign := Numeral.head?_zeros_upperHex_ne_plus zeros n
  obtain ⟨hne, hdigits, hdenoted, -⟩ := (Numeral.read_eq_ok_iff (by decide) (Nat.succ_pos n)
    hsign).1 (Numeral.read_zeros_upperHex zeros (Nat.lt_succ_self n))
  have h := Denotes.hexadecimal (Or.inl rfl) hne fun c hc => by
    have hdigit := hdigits c hc
    rwa [Numeral.digitValue?_sixteen] at hdigit
  rwa [hdenoted] at h

namespace Denotes

/-! ## How a numeral looks -/

theorem isAlphanumericRun (h : Denotes text n) : IsAlphanumericRun text := by
  cases h with
  | decimal hne hdigits => exact ⟨hne, fun c hc => by simp [Char.isAlphanum, hdigits c hc]⟩
  | hexadecimal hmark _ hdigits =>
    refine ⟨by simp, List.forall_mem_cons.2 ⟨by decide, List.forall_mem_cons.2 ⟨?_, ?_⟩⟩⟩
    · rcases hmark with rfl | rfl <;> decide
    · exact fun c hc => Numeral.isAlphanum_of_hexValue? (hdigits c hc)

/-- A numeral starts with a decimal digit. -/
theorem exists_isDigit (h : Denotes text n) : ∃ c rest, text = c :: rest ∧ c.isDigit := by
  cases h with
  | decimal hne hdigits =>
    obtain ⟨c, rest, rfl⟩ := List.exists_cons_of_ne_nil hne
    exact ⟨c, rest, rfl, hdigits c List.mem_cons_self⟩
  | hexadecimal _ _ _ => exact ⟨_, _, rfl, by decide⟩

/-- So it is not written like a register. -/
theorem registerDigits?_eq_none (h : Denotes text n) : registerDigits? text = none := by
  obtain ⟨c, rest, rfl, hc⟩ := h.exists_isDigit
  unfold registerDigits?
  split
  · next heq =>
    rw [(List.cons.inj heq).1] at hc
    exact absurd hc (by decide)
  · rfl

/-- A single character denotes no great number. -/
theorem lt_of_singleton {c : Char} (h : Denotes [c] n) : n < 16 := by
  cases h with
  | decimal _ _ =>
    change 10 * 0 + (Numeral.hexValue? c).getD 0 < 16
    cases hvalue : Numeral.hexValue? c with
    | none => decide
    | some digit =>
      have hlt := Numeral.hexValue?_lt hvalue
      rw [Option.getD_some]
      omega

end Denotes

/-! ## Reading a numeral -/

theorem numeral?_hexadecimal {mark : Char} (hmark : mark = 'x' ∨ mark = 'X') (digits : List Char) :
    numeral? ('0' :: mark :: digits) = (Numeral.read 16 numeralLimit digits).toOption := by
  rcases hmark with rfl | rfl <;> rfl

theorem numeral?_decimal {digits : List Char} (hdigits : ∀ c ∈ digits, c.isDigit) :
    numeral? digits = (Numeral.read 10 numeralLimit digits).toOption := by
  -- a text with a letter for the base in second place is not all digits
  have hletter : ∀ {c : Char} {rest : List Char}, ¬ c.isDigit → digits ≠ '0' :: c :: rest := by
    rintro c rest hc rfl
    exact hc (hdigits c (by simp))
  unfold numeral?
  split
  · exact absurd rfl (hletter (by decide))
  · exact absurd rfl (hletter (by decide))
  · rw [if_pos (List.all_eq_true.2 hdigits)]

theorem toOption_read_eq_some_iff {base : Nat} {digits : List Char} (hbase : 0 < base)
    (hsign : digits.head? ≠ some '+') :
    (Numeral.read base numeralLimit digits).toOption = some n
      ↔ digits ≠ [] ∧ (∀ c ∈ digits, (Numeral.digitValue? base c).isSome)
        ∧ Numeral.denoted base digits = n ∧ n < numeralLimit := by
  rw [← Numeral.read_eq_ok_iff hbase (by decide) hsign]
  cases Numeral.read base numeralLimit digits <;> simp [Except.toOption]

/-- **A numeral is read by its value**, if that has no more than 32 bits. -/
theorem Denotes.numeral?_eq_some_iff (h : Denotes text n) {m : Nat} :
    numeral? text = some m ↔ n = m ∧ m < numeralLimit := by
  cases h with
  | decimal hne hdigits =>
    have hsign := Numeral.head?_ne_plus (Denotes.decimal hne hdigits).isAlphanumericRun.2
    rw [numeral?_decimal hdigits, toOption_read_eq_some_iff (by decide) hsign]
    exact ⟨fun h => h.2.2, fun h =>
      ⟨hne, fun c hc => Numeral.isSome_digitValue?_ten_iff.2 (hdigits c hc), h⟩⟩
  | hexadecimal hmark hne hdigits =>
    have hsign := Numeral.head?_ne_plus fun c hc => Numeral.isAlphanum_of_hexValue? (hdigits c hc)
    rw [numeral?_hexadecimal hmark, toOption_read_eq_some_iff (by decide) hsign]
    refine ⟨fun h => h.2.2, fun h => ⟨hne, fun c hc => ?_, h⟩⟩
    rw [Numeral.digitValue?_sixteen]
    exact hdigits c hc

theorem Denotes.numeral?_of_lt (h : Denotes text n) (hlt : n < numeralLimit) :
    numeral? text = some n :=
  h.numeral?_eq_some_iff.2 ⟨rfl, hlt⟩

theorem Denotes.numeral?_of_le (h : Denotes text n) (hle : numeralLimit ≤ n) :
    numeral? text = none := by
  refine Option.eq_none_iff_forall_ne_some.2 fun m hm => ?_
  obtain ⟨rfl, hlt⟩ := h.numeral?_eq_some_iff.1 hm
  exact absurd hlt (Nat.not_lt.2 hle)

/-- Letters and digits that are read as a number are a numeral for it. -/
theorem denotes_of_numeral? (hrun : IsAlphanumericRun text) (h : numeral? text = some n) :
    Denotes text n := by
  have hhex : ∀ {mark : Char} {digits : List Char}, mark = 'x' ∨ mark = 'X' →
      text = '0' :: mark :: digits → Denotes text n := by
    rintro mark digits hmark rfl
    have hsign : digits.head? ≠ some '+' :=
      Numeral.head?_ne_plus fun c hc => hrun.2 c (by simp [hc])
    rw [numeral?_hexadecimal hmark, toOption_read_eq_some_iff (by decide) hsign] at h
    obtain ⟨hne, hdigits, rfl, -⟩ := h
    refine .hexadecimal hmark hne fun c hc => ?_
    have hdigit := hdigits c hc
    rwa [Numeral.digitValue?_sixteen] at hdigit
  have hread := h
  unfold numeral? at hread
  split at hread
  · exact hhex (Or.inl rfl) rfl
  · exact hhex (Or.inr rfl) rfl
  · split at hread
    · next hall =>
      have hsign := Numeral.head?_ne_plus hrun.2
      obtain ⟨hne, -, rfl, -⟩ := (toOption_read_eq_some_iff (by decide) hsign).1 hread
      exact .decimal hne (List.all_eq_true.1 hall)
    · exact absurd hread (by simp)

/-! ## What a slot makes of a numeral -/

namespace Denotes

variable {index : Nat} {kind : SlotKind}

/-- A number of 32 bits is what the slot makes of it, unless only a register can stand there. -/
theorem bareWord_of_lt (h : Denotes text n) (hlt : n < numeralLimit)
    (hkind : kind.requiresRegister = false) :
    bareWord index kind text = literalWord index kind n := by
  simp only [bareWord, h.registerDigits?_eq_none, hkind, h.numeral?_of_lt hlt]
  rfl

/-- A greater number is not read. It takes too many digits to pass for a single character. -/
theorem bareWord_of_le (h : Denotes text n) (hle : numeralLimit ≤ n)
    (hkind : kind.requiresRegister = false) :
    bareWord index kind text = .error (.unparsableOperand index (String.ofList text)) := by
  have hquotes : ∀ c ∈ text, ¬ isQuote c := by
    intro c hc hquote
    have halphanum := h.isAlphanumericRun.2 c hc
    rcases Bool.or_eq_true_iff.1 hquote with hmark | hmark
    · rw [eq_of_beq hmark] at halphanum
      exact absurd halphanum (by decide)
    · rw [eq_of_beq hmark] at halphanum
      exact absurd halphanum (by decide)
  simp only [bareWord, h.registerDigits?_eq_none, hkind, h.numeral?_of_le hle,
    Text.trimWhile_eq_self hquotes, Bool.false_eq_true, if_false]
  split
  · have hlt := h.lt_of_singleton
    exact absurd (Nat.lt_of_lt_of_le hlt (by decide)) (Nat.not_lt.2 hle)
  · rfl

end Denotes

end Assembly

end WordMachine
