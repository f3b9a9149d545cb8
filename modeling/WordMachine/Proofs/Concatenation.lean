import WordMachine.Proofs.Assembling

/-!
# Listings one behind the other

A line end between two listings makes one listing of them, and none of their lines is
touched. So the bytes of the second come behind the bytes of the first, and the first
error of the whole is the first error of the parts. An error of the second part keeps
its cause, and its line is counted on from the lines of the first part.

What carries this is that the number of the first line matters for nothing but the line
of an error: `assembleLines_add`.
-/

namespace WordMachine

namespace Text

theorem length_splitOn (a : Char) (cs : List Char) :
    (cs.splitOn a).length = cs.count a + 1 := by
  induction cs with
  | nil => rfl
  | cons c cs ih =>
    rw [List.splitOn_cons_eq_if_modifyHead, List.count_cons]
    by_cases h : c == a
    · rw [if_pos h, if_pos h, List.length_cons, ih]
    · rw [if_neg h, if_neg h, List.length_modifyHead, ih, Nat.add_zero]

/-- A text has one line more than it has line ends. -/
theorem length_lines_eq_count (text : String) :
    (lines text).length = text.toList.count '\n' + 1 :=
  length_splitOn '\n' text.toList

end Text

namespace Assembly

/-- The same error in a listing that has this many more lines in front. -/
def ProgramError.below (error : ProgramError) (count : Nat) : ProgramError :=
  { error with line := error.line + count }

/-- Lines in front of a listing change nothing but the line of its error. -/
theorem assembleLines_add (number count : Nat) (lines : List (List Char)) :
    assembleLines (number + count) lines
      = (assembleLines number lines).mapError (·.below count) := by
  -- the number is handed on from line to line, so the claim is for every first number
  induction lines generalizing number with
  | nil => rfl
  | cons line lines ih =>
    rw [assembleLines, assembleLines, Nat.add_right_comm, ih (number + 1)]
    split
    · rfl
    · cases assembleLine line with
      | error cause => rfl
      | ok bytes => cases assembleLines (number + 1) lines <;> rfl

/-- What a listing assembles to when a line end and another listing come behind it. -/
theorem assembleProgram_newline (first second : String) :
    assembleProgram (first ++ "\n" ++ second)
      = (assembleProgram first).bind fun image =>
          ((assembleProgram second).mapError (·.below (first.toList.count '\n' + 1))).map
            (image ++ ·) := by
  rw [assembleProgram, Text.lines_append, assembleLines_append, Text.length_lines_eq_count,
    assembleLines_add]
  rfl

/--
**Assembling takes listings one behind the other to images one behind the other.**

If the first listing has an error, so has the whole, with the same cause on the same
line. If both are accepted, the whole is, and its image is their images joined. If only
the second has an error, the whole has it too, as many lines further down as the first
listing has line ends, and one more for the line end between them.
-/
theorem assembleProgram_append (first second : String) :
    (∀ error : ProgramError, assembleProgram first = .error error →
      assembleProgram (first ++ "\n" ++ second) = .error error)
    ∧ (∀ image rest : Image, assembleProgram first = .ok image →
        assembleProgram second = .ok rest →
          assembleProgram (first ++ "\n" ++ second) = .ok (image ++ rest))
    ∧ ∀ (image : Image) (line : Nat) (cause : LineError), assembleProgram first = .ok image →
        assembleProgram second = .error ⟨line, cause⟩ →
          assembleProgram (first ++ "\n" ++ second)
            = .error ⟨line + 1 + first.toList.count '\n', cause⟩ := by
  rw [assembleProgram_newline]
  refine ⟨fun error hfirst => ?_, fun image rest hfirst hsecond => ?_,
    fun image line cause hfirst hsecond => ?_⟩
  · rw [hfirst]
    rfl
  · rw [hfirst, hsecond]
    rfl
  · rw [hfirst, hsecond, Nat.add_assoc, Nat.add_comm 1]
    rfl

/-- The line that fails is the second of its listing and the fifth of the whole: a comment, a blank
line and three line ends lie before it. -/
theorem assembleProgram_append_misaligned :
    assembleProgram ("noop ; one\n\nhalt\r" ++ "\n" ++ "ret") = .ok [21, 0, 0, 0, 18, 0]
      ∧ assembleProgram ("noop ; one\n\nhalt\r" ++ "\n" ++ ("ret" ++ "\n" ++ "jmp 3"))
        = .error ⟨5, .misalignedAddress 0 3⟩
      ∧ assembleProgram ("jmp 3" ++ "\n" ++ "ret") = .error ⟨1, .misalignedAddress 0 3⟩ := by
  have hfirst : assembleProgram "noop ; one\n\nhalt\r" = .ok [21, 0, 0, 0] := by
    with_unfolding_all rfl
  have hret : assembleProgram "ret" = .ok [18, 0] := by
    with_unfolding_all rfl
  have hjump : assembleProgram "jmp 3" = .error ⟨1, .misalignedAddress 0 3⟩ := by
    with_unfolding_all rfl
  have hsecond := (assembleProgram_append "ret" "jmp 3").2.2 _ _ _ hret hjump
  exact ⟨(assembleProgram_append _ _).2.1 _ _ hfirst hret,
    (assembleProgram_append _ _).2.2 _ _ _ hfirst hsecond,
    (assembleProgram_append _ _).1 _ hjump⟩

end Assembly

end WordMachine
