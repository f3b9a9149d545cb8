import WordMachine.Proofs.Denotation
import WordMachine.Proofs.LineLayout

/-!
# What an operation can be called

An operation is named by its mnemonic or by a numeral for its opcode, and by nothing else. A
numeral is held against the opcodes as it is read, not cut down to a word first, so a number
that is an opcode modulo some power of two names nothing.

What is behind the name is read before the name is looked up, and what is read there does not
depend on it. A numeral can therefore stand for the mnemonic on every line, the ones with
something wrong behind the name included, and no error tells which of the two was written.
-/

namespace WordMachine

namespace Operation

theorem ofMnemonic?_eq_some_iff {name : String} {operation : Operation} :
    ofMnemonic? name = some operation ↔ name = operation.mnemonic := by
  constructor
  · intro h
    have hfound := List.find?_some h
    exact (beq_iff_eq.1 hfound).symm
  · rintro rfl
    exact ofMnemonic?_mnemonic operation

theorem not_isDigit_of_mem_mnemonic (operation : Operation) :
    ∀ c ∈ operation.mnemonic.toList, ¬ c.isDigit := by
  have hnone : ¬ operation.mnemonic.toList.any Char.isDigit := by
    cases operation <;> decide +kernel
  exact fun c hc hdigit => hnone (List.any_eq_true.2 ⟨c, hc, hdigit⟩)

/-- Opcodes are numbered as they are listed. -/
theorem ofNumber?_eq_some_iff {number : Nat} {operation : Operation} :
    ofNumber? number = some operation ↔ number = operation.opcode.toNat := by
  constructor
  · intro h
    exact (toNat_opcode_of_ofNumber? h).symm
  · rintro rfl
    exact ofOpcode?_opcode operation

end Operation

namespace Assembly

variable {name numeral rest : List Char} {operation : Operation}

/-! ## Names of operations -/

theorem Denotes.ne_mnemonic {n : Nat} (h : Denotes numeral n) (operation : Operation) :
    numeral ≠ operation.mnemonic.toList := by
  rintro rfl
  obtain ⟨c, cs, hcs, hc⟩ := h.exists_isDigit
  exact operation.not_isDigit_of_mem_mnemonic c (by rw [hcs]; exact List.mem_cons_self) hc

/-- **An operation is called by its mnemonic, or by a numeral for its opcode**, and nothing else
made of letters and digits is a name for it. -/
theorem operationNamed?_eq_some_iff (hname : IsAlphanumericRun name) :
    operationNamed? name = some operation
      ↔ name = operation.mnemonic.toList ∨ Denotes name operation.opcode.toNat := by
  rw [operationNamed?, Option.or_eq_some_iff, Operation.ofMnemonic?_eq_some_iff]
  constructor
  · rintro (hmnemonic | ⟨-, hnumber⟩)
    · left
      rw [← hmnemonic, String.toList_ofList]
    · obtain ⟨n, hn, hfound⟩ := Option.bind_eq_some_iff.1 hnumber
      obtain rfl := Operation.ofNumber?_eq_some_iff.1 hfound
      exact Or.inr (denotes_of_numeral? hname hn)
  · rintro (rfl | hnumeral)
    · exact Or.inl String.ofList_toList
    · have hlimit : operation.opcode.toNat < numeralLimit :=
        Nat.lt_trans operation.opcode.toNat_lt (by decide)
      refine Or.inr ⟨Option.eq_none_iff_forall_ne_some.2 fun other hother => ?_, ?_⟩
      · refine hnumeral.ne_mnemonic other ?_
        rw [← Operation.ofMnemonic?_eq_some_iff.1 hother, String.toList_ofList]
      · rw [hnumeral.numeral?_of_lt hlimit]
        exact Operation.ofNumber?_eq_some_iff.2 rfl

theorem operationNamed?_eq_none (hname : IsAlphanumericRun name)
    (hnone : ∀ operation : Operation,
      name ≠ operation.mnemonic.toList ∧ ¬ Denotes name operation.opcode.toNat) :
    operationNamed? name = none := by
  refine Option.eq_none_iff_forall_ne_some.2 fun operation hfound => ?_
  rcases (operationNamed?_eq_some_iff hname).1 hfound with hmnemonic | hnumeral
  · exact (hnone operation).1 hmnemonic
  · exact (hnone operation).2 hnumeral

/-! ## The rest of the line -/

/-- Behind a name something is wrong, or there are operands, whatever the name is. -/
theorem Line.parse_name_cases {tail : List Char} (htail : ∀ c ∈ tail.head?, ¬ c.isAlphanum) :
    (∃ left, ∀ name, IsAlphanumericRun name → parse (name ++ tail) = .error left)
      ∨ ∃ operands, ∀ name, IsAlphanumericRun name →
          parse (name ++ tail) = .ok ⟨name, operands⟩ := by
  by_cases hend : isEnd ((readOperands tail).2.dropWhile isGap)
  · refine Or.inr ⟨(readOperands tail).1, fun name hname => ?_⟩
    have hparse := parse_append Grammar.gap_nil hname htail
    rwa [if_pos hend] at hparse
  · refine Or.inl ⟨(readOperands tail).2.dropWhile isGap, fun name hname => ?_⟩
    have hparse := parse_append Grammar.gap_nil hname htail
    rwa [if_neg hend] at hparse

/-- A line that cannot be read is refused for what is behind the name. Otherwise its words decide. -/
theorem assembleLine_name_cases (hrest : ∀ c ∈ rest.head?, ¬ c.isAlphanum) :
    (∃ cause, ∀ name, IsAlphanumericRun name → assembleLine (name ++ rest) = .error cause)
      ∨ ∃ operands, ∀ name, IsAlphanumericRun name →
          assembleLine (name ++ rest) = (Line.words ⟨name, operands⟩).map Image.ofWords := by
  have hkept : ∀ c ∈ (rest.rdropWhile Text.isBlank).head?, ¬ c.isAlphanum := by
    intro c hc
    obtain ⟨tail, htail⟩ := List.head?_eq_some_iff.1 hc
    obtain ⟨back, hback⟩ := List.rdropWhile_prefix Text.isBlank rest
    refine hrest c ?_
    rw [← hback, htail]
    rfl
  rcases Line.parse_name_cases hkept with ⟨left, hleft⟩ | ⟨operands, hoperands⟩
  · refine Or.inl ⟨.unexpected (String.ofList left), fun name hname => ?_⟩
    unfold assembleLine
    rw [hname.isTrimmed.trim_append]
    split
    · next hnil => exact absurd (List.append_eq_nil_iff.1 hnil).1 hname.1
    · rw [hleft name hname]
  · refine Or.inr ⟨operands, fun name hname => ?_⟩
    refine assembleLine_of_derives (Line.parse_sound ?_)
    rw [hname.isTrimmed.trim_append]
    exact hoperands name hname

/-- Two names for one operation make no difference to a line. -/
theorem assembleLine_name_congr {first second : List Char} (hfirst : IsAlphanumericRun first)
    (hsecond : IsAlphanumericRun second) (hname : operationNamed? first = some operation)
    (hother : operationNamed? second = some operation)
    (hrest : ∀ c ∈ rest.head?, ¬ c.isAlphanum) :
    assembleLine (first ++ rest) = assembleLine (second ++ rest) := by
  rcases assembleLine_name_cases hrest with ⟨cause, hcause⟩ | ⟨operands, hoperands⟩
  · rw [hcause first hfirst, hcause second hsecond]
  · have hwords : Line.words ⟨first, operands⟩ = Line.words ⟨second, operands⟩ := by
      rw [Line.words, Line.words, hname, hother]
    rw [hoperands first hfirst, hoperands second hsecond, hwords]

/-- A line with another name than an operation's is refused for that name. -/
theorem assembleLine_eq_unknownMnemonic {cs : List Char} {operands : List Spelling}
    (hderives : Grammar.Derives ⟨name, operands⟩ (Text.trim cs))
    (hname : operationNamed? name = none) :
    assembleLine cs = .error (.unknownMnemonic (String.ofList name)) := by
  rw [assembleLine_of_derives hderives, Line.words, hname]
  rfl

/-- **A numeral for the opcode is as good as the mnemonic**, whatever is behind it, and no other word
of letters and digits is a name for an operation. -/
theorem assemble_operation_name :
    (∀ (operation : Operation) (numeral : List Char) (rest : String),
        Denotes numeral operation.opcode.toNat → (∀ c ∈ rest.toList.head?, ¬ c.isAlphanum) →
          assemble (operation.mnemonic ++ rest) = assemble (String.ofList numeral ++ rest))
      ∧ ∀ (name : List Char) (text : String), IsAlphanumericRun name →
          (∀ operation : Operation,
            name ≠ operation.mnemonic.toList ∧ ¬ Denotes name operation.opcode.toNat) →
          (∃ operands, Grammar.Derives ⟨name, operands⟩ (Text.trim text.toList)) →
            assemble text = .error (.unknownMnemonic (String.ofList name)) := by
  refine ⟨fun operation numeral rest hnumeral hrest => ?_,
    fun name text hname hnone ⟨operands, hderives⟩ => ?_⟩
  · have hfound : operationNamed? numeral = some operation :=
      (operationNamed?_eq_some_iff hnumeral.isAlphanumericRun).2 (Or.inr hnumeral)
    rw [assemble, assemble, String.toList_append, String.toList_append, String.toList_ofList]
    exact assembleLine_name_congr operation.isAlphanumericRun_mnemonic hnumeral.isAlphanumericRun
      (operationNamed?_mnemonic operation) hfound hrest
  · exact assembleLine_eq_unknownMnemonic hderives (operationNamed?_eq_none hname hnone)

/-- The two names are refused alike where a comma is too many. A number that is the opcode modulo
`2 ^ 16` is no name. -/
theorem assemble_operation_name_output :
    assemble "out 'B',," = assemble "0X0013 'B',,"
      ∧ assemble "65555 'B'" = .error (.unknownMnemonic "65555") := by
  have hopcode : Denotes "0X0013".toList Operation.output.opcode.toNat :=
    .hexadecimal (Or.inr rfl) (by decide) (List.all_eq_true.1 rfl)
  have hnumber : Denotes "65555".toList 65555 :=
    .decimal (by decide) (List.all_eq_true.1 rfl)
  have hnone : ∀ operation : Operation, "65555".toList ≠ operation.mnemonic.toList
      ∧ ¬ Denotes "65555".toList operation.opcode.toNat := by
    refine fun operation => ⟨hnumber.ne_mnemonic operation, fun hother => ?_⟩
    have hlt : operation.opcode.toNat < 65536 := operation.opcode.toNat_lt
    have hread := hother.numeral?_of_lt (Nat.lt_trans hlt (by decide))
    rw [hnumber.numeral?_of_lt (by decide)] at hread
    exact absurd (Option.some.inj hread) (by omega)
  have hderives : Grammar.Derives ⟨"65555".toList, [.quoted 'B']⟩
      (Text.trim "65555 'B'".toList) :=
    .line Grammar.gap_nil hnumber.isAlphanumericRun
      (.more Grammar.separator_space (.quoted (.quotes (Or.inl rfl) (.raw (by decide)))) .none)
      (.gap Grammar.gap_nil)
  have hrest : ∀ c ∈ " 'B',,".toList.head?, ¬ c.isAlphanum :=
    Text.forall_mem_head?_cons (by decide)
  exact ⟨assemble_operation_name.1 _ _ " 'B',," hopcode hrest,
    assemble_operation_name.2 _ _ hnumber.isAlphanumericRun hnone ⟨_, hderives⟩⟩

end Assembly

end WordMachine
