/-!
# Lines

A text is taken apart at its line ends, so one with `n` line ends has `n + 1` lines,
the last of which may be empty. Written out, every line is followed by a line end.
-/

namespace WordMachine.Text

/-- The pieces of a text between its line ends. -/
def lines (text : String) : List (List Char) := text.toList.splitOn '\n'

/-- Lines as text, a line end after each. -/
def unlines (lines : List String) : String :=
  lines.foldl (fun text line => text ++ line ++ "\n") ""

@[simp] theorem unlines_nil : unlines [] = "" := rfl

theorem foldl_lines (text : String) (lines : List String) :
    lines.foldl (fun text line => text ++ line ++ "\n") text = text ++ unlines lines := by
  induction lines generalizing text with
  | nil => simp
  | cons line lines ih =>
    rw [unlines, List.foldl_cons, List.foldl_cons, ih, ih]
    simp [String.append_assoc]

@[simp] theorem unlines_cons (line : String) (lines : List String) :
    unlines (line :: lines) = line ++ "\n" ++ unlines lines := by
  rw [unlines, List.foldl_cons, foldl_lines, String.empty_append]

/-- A line end is where two texts are joined without touching each other's lines. -/
theorem lines_append (a b : String) : lines (a ++ "\n" ++ b) = lines a ++ lines b := by
  have h : (a ++ "\n" ++ b).toList = a.toList ++ '\n' :: b.toList := by simp
  rw [lines, h, List.splitOn_append_cons_self]
  rfl

end WordMachine.Text
