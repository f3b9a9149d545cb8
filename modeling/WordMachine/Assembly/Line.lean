import WordMachine.Assembly.Spelling

/-!
# Lines of assembly

A line is a mnemonic, then operands, then maybe a comment behind a semicolon. An
operand is set off from what stands before it by a comma, by spaces and tabs, or by
both. Reading a line never looks at what the mnemonic and the operands mean.
-/

namespace WordMachine.Assembly

/-- A line as written: the word in front and the operands behind it. -/
structure Line where
  mnemonic : List Char
  operands : List Spelling
  deriving DecidableEq, Repr

namespace Line

/-- Whether the character separates without meaning anything itself. -/
def isGap (c : Char) : Bool := c == ' ' || c == '\t'

/-- Reads a comma with gaps around it, or else a gap. -/
def separator? (cs : List Char) : Option (List Char) :=
  match cs.dropWhile isGap with
  | ',' :: rest => some (rest.dropWhile isGap)
  | rest => if (cs.takeWhile isGap).isEmpty then none else some rest

/-- Reads a separator and the operand behind it. -/
def operand? (cs : List Char) : Option (Spelling × List Char) :=
  (separator? cs).bind Spelling.read?

theorem separator?_length {cs rest : List Char} (h : separator? cs = some rest) :
    rest.length ≤ cs.length := by
  have hgap := (List.dropWhile_suffix (p := isGap) (l := cs)).length_le
  unfold separator? at h
  split at h
  · next tail htail =>
    have := (List.dropWhile_suffix (p := isGap) (l := tail)).length_le
    simp only [Option.some.injEq] at h
    subst h
    simp only [htail, List.length_cons] at hgap
    omega
  · split at h
    · simp at h
    · simp only [Option.some.injEq] at h
      subst h
      exact hgap

theorem operand?_length {cs rest : List Char} {spelling : Spelling}
    (h : operand? cs = some (spelling, rest)) : rest.length < cs.length := by
  obtain ⟨tail, hseparator, hspelling⟩ := Option.bind_eq_some_iff.1 h
  exact Nat.lt_of_lt_of_le (Spelling.read?_length hspelling) (separator?_length hseparator)

/-- Reads operands as long as there are any. -/
def readOperands (cs : List Char) : List Spelling × List Char :=
  match h : operand? cs with
  | none => ([], cs)
  | some (spelling, rest) =>
    have := operand?_length h
    (spelling :: (readOperands rest).1, (readOperands rest).2)
termination_by cs.length

theorem readOperands_of_none {cs : List Char} (h : operand? cs = none) :
    readOperands cs = ([], cs) := by
  rw [readOperands]
  split
  · rfl
  · simp_all

theorem readOperands_of_some {cs rest : List Char} {spelling : Spelling}
    (h : operand? cs = some (spelling, rest)) :
    readOperands cs = (spelling :: (readOperands rest).1, (readOperands rest).2) := by
  rw [readOperands]
  split
  · simp_all
  · simp_all

/-- Whether nothing more is to be read: the line ends here, or a comment starts. -/
def isEnd : List Char → Bool
  | [] => true
  | c :: _ => c == ';'

/-- Reads a line. If that fails, answers with what is left where it failed. -/
def parse (cs : List Char) : Except (List Char) Line :=
  let start := cs.dropWhile isGap
  match start.takeWhile Char.isAlphanum with
  | [] => .error start
  | mnemonic =>
    let (operands, rest) := readOperands (start.dropWhile Char.isAlphanum)
    let left := rest.dropWhile isGap
    if isEnd left then .ok ⟨mnemonic, operands⟩ else .error left

end Line

end WordMachine.Assembly
