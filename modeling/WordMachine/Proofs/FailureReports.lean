import WordMachine.CommandLine.Run

/-!
# Reports on failed runs

Whoever reads the report on a failed run wants to know what the run was about to do and
what went wrong, each cause before its own cause. How the report is laid out around these
texts does not matter. The one at hand has a line for each and says where the causes begin.
-/

namespace WordMachine

namespace Text

/-- The pieces occur in the text, each behind the end of the one before it. -/
def OccurInOrder : List String → List Char → Prop
  | [], _ => True
  | piece :: pieces, cs =>
    ∃ before behind, cs = before ++ piece.toList ++ behind ∧ OccurInOrder pieces behind

theorem occurInOrder_nil (cs : List Char) : OccurInOrder [] cs := trivial

/-- More text in front does not matter. -/
theorem OccurInOrder.append_left {pieces : List String} {cs : List Char}
    (h : OccurInOrder pieces cs) (more : List Char) : OccurInOrder pieces (more ++ cs) := by
  cases pieces with
  | nil => trivial
  | cons piece pieces =>
    obtain ⟨before, behind, rfl, hpieces⟩ := h
    exact ⟨more ++ before, behind, by simp only [List.append_assoc], hpieces⟩

theorem toList_unlines_cons (line : String) (lines : List String) :
    (unlines (line :: lines)).toList = line.toList ++ '\n' :: (unlines lines).toList := by
  rw [unlines_cons, String.toList_append, String.toList_append, List.append_assoc]
  rfl

/-- A line in front does not matter either. -/
theorem OccurInOrder.unlines_cons {pieces lines : List String}
    (h : OccurInOrder pieces (unlines lines).toList) (line : String) :
    OccurInOrder pieces (unlines (line :: lines)).toList := by
  rw [toList_unlines_cons, List.append_cons]
  exact h.append_left _

/-- It may end with the first of the pieces. -/
theorem OccurInOrder.unlines_append_cons {pieces lines : List String}
    (h : OccurInOrder pieces (unlines lines).toList) (front piece : String) :
    OccurInOrder (piece :: pieces) (unlines ((front ++ piece) :: lines)).toList := by
  refine ⟨front.toList, '\n' :: (unlines lines).toList, ?_, h.append_left ['\n']⟩
  rw [toList_unlines_cons, String.toList_append]

end Text

namespace CommandLine.Failure

open Text (OccurInOrder)

/-- What is asked of a report on a failed run: it shows the context of the failure, and behind it
each cause. -/
def ShowsCauses (report : Failure → String) : Prop :=
  ∀ failure : Failure, OccurInOrder (failure.context :: failure.causes) (report failure).toList

/-- A line for each cause shows the causes. -/
theorem occurInOrder_mapIdx (causes : List String) (front : Nat → String) :
    OccurInOrder causes
      (Text.unlines (causes.mapIdx fun number cause => front number ++ cause)).toList := by
  induction causes generalizing front with
  | nil => trivial
  | cons cause causes ih =>
    rw [List.mapIdx_cons]
    exact (ih fun number => front (number + 1)).unlines_append_cons (front 0) cause

theorem occurInOrder_causeLines (causes : List String) :
    OccurInOrder causes (Text.unlines (causeLines causes)).toList := by
  unfold causeLines
  split
  · next cause => exact (Text.occurInOrder_nil (Text.unlines []).toList).unlines_append_cons _ _
  · exact occurInOrder_mapIdx causes fun number => "    " ++ Numeral.decimal number ++ ": "

/-- **The report at hand shows what it is asked to.** -/
theorem showsCauses_report : ShowsCauses report := by
  intro failure
  have hcauses := occurInOrder_causeLines failure.causes
  have hheading := (hcauses.unlines_cons "Caused by:").unlines_cons ""
  exact hheading.unlines_append_cons "Error: " failure.context

theorem report_assembly (input : String) (line : Nat) (cause : Assembly.LineError) :
    (Failure.assembly input ⟨line, cause⟩).report
      = Text.unlines ["Error: failed to assemble " ++ input, "", "Caused by:",
          "    0: Error on line " ++ Numeral.decimal line ++ ": " ++ cause.message,
          "    1: " ++ cause.message] := by
  have hcontext : "Error: " ++ ("failed to assemble " ++ input)
      = "Error: failed to assemble " ++ input := by
    rw [← String.append_assoc]
    rfl
  have hfirst : "    " ++ Numeral.decimal 0 ++ ": "
        ++ ("Error on line " ++ Numeral.decimal line ++ ": " ++ cause.message)
      = "    0: Error on line " ++ Numeral.decimal line ++ ": " ++ cause.message := by
    rw [← String.append_assoc, ← String.append_assoc, ← String.append_assoc]
    rfl
  have hsecond : "    1: " = "    " ++ Numeral.decimal 1 ++ ": " := rfl
  rw [← hcontext, ← hfirst, hsecond]
  rfl

end CommandLine.Failure

end WordMachine
