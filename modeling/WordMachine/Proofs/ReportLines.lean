import Mathlib.Algebra.GroupWithZero.Nat
import WordMachine.Proofs.PrintableText
import WordMachine.Proofs.Reports

/-!
# Reports keep to their lines

Whoever reads a report line by line counts on each line being what it says it is. The table
has a line for the titles, one for the rule and one for each item, and the list of lifted
instructions has a line for each item and one for each statement below it. That would be
wrong if something shown had a line end in it. It is right whatever image is shown, since
all that is shown is printable ASCII.

Of the printer of the table no more is asked than a line for each row whose cells are one
line each, under the titles and the rule. The printer at hand does that: it adds nothing to
the cells but spaces and the characters that separate columns.
-/

namespace WordMachine

namespace Text

/-! ## Counting lines -/

/-- The text is so many lines with a line end after each. -/
def HasLines (text : String) (count : Nat) : Prop :=
  ∃ lines : List String, text = unlines lines ∧ (∀ line ∈ lines, '\n' ∉ line.toList)
    ∧ lines.length = count

theorem hasLines_unlines {lines : List String} (h : ∀ line ∈ lines, '\n' ∉ line.toList) :
    HasLines (unlines lines) lines.length :=
  ⟨lines, rfl, h, rfl⟩

namespace Table

variable {table : Table} {widths : List Nat}

/-- Padding adds spaces to a cell. -/
theorem mem_pad {alignment : Alignment} {width : Nat} {cell : String} {c : Char}
    (h : c ∈ (alignment.pad width cell).toList) : c = ' ' ∨ c ∈ cell.toList := by
  cases alignment with
  | left =>
    rw [Alignment.pad, padRight, String.toList_append, String.toList_ofList, List.mem_append] at h
    exact h.symm.imp_left List.eq_of_mem_replicate
  | right =>
    rw [Alignment.pad, padLeft, String.toList_append, String.toList_ofList, List.mem_append] at h
    exact h.imp_left List.eq_of_mem_replicate

/-- A cell brought to the width of its column, with a space on either side. -/
def piece (place : Column × Nat) (cell : String) : String :=
  " " ++ place.1.alignment.pad place.2 cell ++ " "

theorem rowLine_eq (table : Table) (widths : List Nat) (cells : List String) :
    table.rowLine widths cells
      = " " ++ "│".intercalate (List.zipWith piece (table.columns.zip widths) cells) ++ " " := rfl

theorem mem_piece {place : Column × Nat} {cell : String} {c : Char}
    (h : c ∈ (piece place cell).toList) : c = ' ' ∨ c ∈ cell.toList := by
  have hspace : ∀ d ∈ " ".toList, d = ' ' := fun d hd => List.mem_singleton.1 hd
  rw [piece, String.toList_append, String.toList_append, List.mem_append, List.mem_append] at h
  rcases h with (h | h) | h
  · exact Or.inl (hspace c h)
  · exact mem_pad h
  · exact Or.inl (hspace c h)

/-- The pieces of a line are made of its cells. -/
theorem exists_cell_of_mem_pieces {places : List (Column × Nat)} {cells : List String}
    {text : String} (h : text ∈ List.zipWith piece places cells) :
    ∃ place, ∃ cell ∈ cells, text = piece place cell := by
  rw [← List.map_uncurry_zip_eq_zipWith] at h
  obtain ⟨⟨place, cell⟩, hmem, rfl⟩ := List.mem_map.1 h
  exact ⟨place, cell, (List.of_mem_zip hmem).2, rfl⟩

/-- A line of the table has the characters of its cells, spaces, and what separates columns. -/
theorem mem_rowLine {cells : List String} {c : Char}
    (h : c ∈ (table.rowLine widths cells).toList) :
    c = ' ' ∨ c = '│' ∨ ∃ cell ∈ cells, c ∈ cell.toList := by
  have hspace : ∀ d ∈ " ".toList, d = ' ' := fun d hd => List.mem_singleton.1 hd
  have hrule : ∀ d ∈ "│".toList, d = '│' := fun d hd => List.mem_singleton.1 hd
  rw [rowLine_eq, String.toList_append, String.toList_append, List.mem_append,
    List.mem_append] at h
  rcases h with (h | h) | h
  · exact Or.inl (hspace c h)
  · rcases mem_intercalate h with h | ⟨text, htext, h⟩
    · exact Or.inr (Or.inl (hrule c h))
    · obtain ⟨place, cell, hcell, rfl⟩ := exists_cell_of_mem_pieces htext
      exact (mem_piece h).imp_right fun hc => Or.inr ⟨cell, hcell, hc⟩
  · exact Or.inl (hspace c h)

theorem newline_notMem_rule (widths : List Nat) : '\n' ∉ (rule widths).toList := by
  intro h
  rw [rule, String.toList_append, String.toList_append, List.mem_append, List.mem_append] at h
  rcases h with (h | h) | h
  · exact absurd h (by decide)
  · rcases mem_intercalate h with h | ⟨piece, hpiece, h⟩
    · exact absurd h (by decide)
    · obtain ⟨width, -, rfl⟩ := List.mem_map.1 hpiece
      rw [String.toList_ofList, List.mem_replicate] at h
      exact absurd h.2 (by decide)
  · exact absurd h (by decide)

/-- Every title and every cell is one line. -/
def IsFlat (table : Table) : Prop :=
  ∀ cells ∈ table.titles :: table.rows, ∀ cell ∈ cells, '\n' ∉ cell.toList

theorem newline_notMem_of_mem_lines (h : table.IsFlat) {line : String}
    (hline : line ∈ table.lines) : '\n' ∉ line.toList := by
  have hrow : ∀ cells ∈ table.titles :: table.rows,
      '\n' ∉ (table.rowLine table.widths cells).toList := by
    intro cells hcells hmem
    rcases mem_rowLine hmem with hc | hc | ⟨cell, hcell, hc⟩
    · exact absurd hc (by decide)
    · exact absurd hc (by decide)
    · exact h cells hcells cell hcell hc
  rw [lines, List.mem_cons, List.mem_cons] at hline
  rcases hline with rfl | rfl | hline
  · exact hrow _ List.mem_cons_self
  · exact newline_notMem_rule _
  · obtain ⟨cells, hcells, rfl⟩ := List.mem_map.1 hline
    exact hrow cells (List.mem_cons_of_mem _ hcells)

/-- What is asked of a printer of tables: where every cell is one line, it writes a line for the
titles, one for the rule, and one for each row. -/
def PrintsRows (print : Table → String) : Prop :=
  ∀ table : Table, table.IsFlat → HasLines (print table) (2 + table.rows.length)

/-- The lines of a table, a line end after each, are printed as asked. -/
theorem printsRows_lines : PrintsRows fun table => unlines table.lines := by
  intro table h
  have hlines := hasLines_unlines fun line hline => newline_notMem_of_mem_lines h hline
  rwa [length_lines, Nat.add_comm] at hlines

end Table

end Text

namespace CommandLine

open Text (IsPrintable HasLines Table.PrintsRows)

/-! ## The lines of the reports -/

theorem isFlat_table (items : List Item) : (table items).IsFlat := by
  intro cells hcells cell hcell
  rcases List.mem_cons.1 hcells with rfl | hcells
  · have htitles : ∀ title ∈ ["Address", "Words", "Instruction", "Edges"], IsPrintable title := by
      decide
    exact (htitles cell hcell).notMem (by decide)
  · obtain ⟨item, -, rfl⟩ := List.mem_map.1 hcells
    exact (isPrintable_of_mem_row hcell).notMem (by decide)

/-- Printing the table of some items takes two lines and one for each of them. -/
theorem hasLines_print {print : Text.Table → String} (h : Table.PrintsRows print)
    (items : List Item) : HasLines (print (table items)) (2 + items.length) := by
  have hlines := h (table items) (isFlat_table items)
  have hrows : (table items).rows.length = items.length := List.length_map _
  rwa [hrows] at hlines

/-- How many lines the list of lifted instructions has for an item: one, and one more for each
statement. -/
def liftedHeight (item : Item) : Nat :=
  match item.result with
  | .ok instruction => 1 + instruction.lift.statements.length
  | .error _ => 1

theorem length_liftedLines (item : Item) : (liftedLines item).length = liftedHeight item := by
  rw [liftedLines, liftedHeight]
  cases item.result with
  | ok instruction => simp [Nat.add_comm]
  | error error => rfl

theorem hasLines_lifted (items : List Item) :
    HasLines (Text.unlines (items.flatMap liftedLines)) (items.map liftedHeight).sum := by
  have hflat : ∀ line ∈ items.flatMap liftedLines, '\n' ∉ line.toList := by
    intro line hline
    obtain ⟨item, -, hitem⟩ := List.mem_flatMap.1 hline
    exact (isPrintable_of_mem_liftedLines hitem).notMem (by decide)
  have hlines := Text.hasLines_unlines hflat
  rw [List.length_flatMap] at hlines
  simpa only [length_liftedLines] using hlines

/--
**No program breaks a listing.**

The text of an instruction, made by hand or not, and of each of its tokens, of an edge, of a
lifted value or statement, and of a decoding error has no characters but those from the
space to the tilde. So it has no line end, and nothing that separates columns. A printer of
tables that writes a line for each row of cells that are one line each, under the titles and
the rule, therefore prints two lines and one for each item that is covered. So does a run of
the table report. A run of the lifting report prints one line for an item without an
instruction, and for an instruction one line and one for each of its statements.
-/
theorem shown_line_for_line :
    ((∀ instruction : Instruction, IsPrintable instruction.text
        ∧ ∀ token ∈ instruction.tokens, IsPrintable token.text)
      ∧ (∀ edge : Edge, IsPrintable edge.text)
      ∧ (∀ value : Lifted.Expr, IsPrintable value.text)
      ∧ (∀ statement : Lifted.Statement, IsPrintable statement.text)
      ∧ ∀ error : DecodeError, IsPrintable error.message)
    ∧ (∀ text : String, IsPrintable text → '\n' ∉ text.toList ∧ '│' ∉ text.toList
        ∧ ∀ c ∈ text.toList, 0x20 ≤ c.toNat ∧ c.toNat ≤ 0x7E)
    ∧ (∀ (print : Text.Table → String) (image : Image) (range : Range), Table.PrintsRows print →
        HasLines (print (table (range.items image))) (2 + (range.items image).length))
    ∧ ∀ (directory : Directory) (input : String) (start count : Option String) (image : Image)
        (range : Range),
      input.toList.head? ≠ some '-' → directory.readFile input = .ok image →
      readRange start count = .ok range →
        ∃ report listing : String,
          directory.runArguments (reportArguments "disasm" input start count)
              = (⟨0, report, ""⟩, directory)
            ∧ HasLines report (2 + (range.items image).length)
            ∧ directory.runArguments (reportArguments "lift" input start count)
              = (⟨0, listing, ""⟩, directory)
            ∧ HasLines listing ((range.items image).map liftedHeight).sum := by
  refine ⟨⟨fun instruction => ⟨instruction.isPrintable_text, fun token htoken => ?_⟩,
    Edge.isPrintable_text, Lifted.Expr.isPrintable_text, Lifted.Statement.isPrintable_text,
    DecodeError.isPrintable_message⟩, fun text h => ?_, fun print image range hprint => ?_, ?_⟩
  · exact Instruction.isPrintable_of_mem_tokens htoken
  · exact ⟨h.notMem (by decide), h.notMem (by decide),
      fun c hc => Text.isPrintableAscii_iff.1 (h c hc)⟩
  · exact hasLines_print hprint (range.items image)
  · intro directory input start count image range hinput hread hrange
    exact ⟨_, _, runArguments_disasm hinput hread hrange,
      hasLines_print Text.Table.printsRows_lines (range.items image),
      runArguments_lift hinput hread hrange, hasLines_lifted (range.items image)⟩

/-- A line end and a mark that reverses the direction of writing as operands, and a word that is no
opcode between them. -/
theorem shown_line_for_line_newline :
    '\n' ∉ "out '\\n'".toList
    ∧ HasLines (Text.unlines
          (table (Range.items ⟨⟨0⟩, none⟩ [19, 0, 10, 0, 119, 119, 19, 0, 46, 32])).lines) 5
    ∧ ∃ report listing : String,
        (Directory.ofFiles [("input", [19, 0, 10, 0, 119, 119, 19, 0, 46, 32])]).runArguments
            ["disasm", "input", "--start=0x0"]
          = (⟨0, report, ""⟩, .ofFiles [("input", [19, 0, 10, 0, 119, 119, 19, 0, 46, 32])])
        ∧ HasLines report 5
        ∧ (Directory.ofFiles [("input", [19, 0, 10, 0, 119, 119, 19, 0, 46, 32])]).runArguments
            ["lift", "input", "--start=0x0"]
          = (⟨0, listing, ""⟩, .ofFiles [("input", [19, 0, 10, 0, 119, 119, 19, 0, 46, 32])])
        ∧ HasLines listing 5 := by
  have hread : (Directory.ofFiles [("input", [19, 0, 10, 0, 119, 119, 19, 0, 46, 32])]).readFile
      "input" = .ok [19, 0, 10, 0, 119, 119, 19, 0, 46, 32] := by rfl
  have hsweep : Range.items ⟨⟨0⟩, none⟩ [19, 0, 10, 0, 119, 119, 19, 0, 46, 32]
      = [⟨⟨0⟩, .ok ⟨⟨0⟩, .output, [⟨0, .char, 10⟩]⟩⟩, ⟨⟨4⟩, .error (.unknownOpcode ⟨4⟩ 30583)⟩,
          ⟨⟨6⟩, .ok ⟨⟨6⟩, .output, [⟨0, .char, 0x202E⟩]⟩⟩] := by
    with_unfolding_all rfl
  obtain ⟨-, htexts, hprinters, hruns⟩ := shown_line_for_line
  have htext := htexts "out '\\n'" (by decide)
  have hprinted := hprinters _ [19, 0, 10, 0, 119, 119, 19, 0, 46, 32] ⟨⟨0⟩, none⟩
    Text.Table.printsRows_lines
  have hcount : (Range.items ⟨⟨0⟩, none⟩ [19, 0, 10, 0, 119, 119, 19, 0, 46, 32]).length = 3 := by
    rw [hsweep]
    rfl
  rw [hcount] at hprinted
  have hrun := hruns _ "input" (some "0x0") none _ ⟨⟨0⟩, none⟩ (by decide) hread rfl
  rw [hsweep] at hrun
  exact ⟨htext.1, hprinted, hrun⟩

end CommandLine

end WordMachine
