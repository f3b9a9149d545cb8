import Mathlib.Data.List.SplitBy
import Mathlib.Data.Nat.Digits.Defs
import WordMachine.Proofs.LineLayout
import WordMachine.Proofs.ReportLines

/-!
# Reading a report

A report is text, and whoever reads it has nothing else to go by. A table is read by taking
its lines apart at the characters that separate columns and trimming what stands between
them; a list of lifted instructions is read by putting the lines that begin with a space
under the line they belong to. Both give back what was printed as long as no cell and no
line can be mistaken for another. Words are read as four hexadecimal digits each.
-/

namespace WordMachine

/-- What is written piece by piece is read piece by piece. -/
theorem mapM_map_of_eq_some {α β γ : Type} {write : α → β} {read : β → Option γ} {value : α → γ}
    (h : ∀ x, read (write x) = some (value x)) (xs : List α) :
    (xs.map write).mapM read = some (xs.map value) := by
  have hread : read ∘ write = fun x => pure (value x) := funext h
  rw [List.mapM_map, hread, List.mapM_pure]
  rfl

namespace Text

/-! ## Lines -/

theorem lines_unlines {written : List String} (h : ∀ line ∈ written, '\n' ∉ line.toList) :
    lines (unlines written) = written.map String.toList ++ [[]] := by
  induction written with
  | nil => rfl
  | cons line written ih =>
    have hline : lines line = [line.toList] :=
      List.splitOn_eq_singleton (h line List.mem_cons_self)
    have hrest := ih fun other hother => h other (List.mem_cons_of_mem _ hother)
    rw [unlines_cons, lines_append, hline, hrest]
    rfl

/-- The lines of a text that has a line end after each. -/
def endedLines (text : String) : List (List Char) := (lines text).dropLast

theorem endedLines_unlines {written : List String} (h : ∀ line ∈ written, '\n' ∉ line.toList) :
    endedLines (unlines written) = written.map String.toList := by
  rw [endedLines, lines_unlines h, List.dropLast_concat]

/-! ## Tables -/

namespace Table

/-- The cells of a line: what stands between its borders and the column rules, trimmed. -/
def cellsOf (line : List Char) : List String :=
  (line.tail.dropLast.splitOn '│').map fun piece => String.ofList (trim piece)

/-- The rows of a printed table: the cells of the lines under the titles and the rule. -/
def readRows (text : String) : List (List String) := ((endedLines text).drop 2).map cellsOf

/-- What is put around a cell is trimmed off again. -/
theorem trim_piece (place : Column × Nat) (cell : String) :
    trim (piece place cell).toList = trim cell.toList := by
  have hblanks : ∀ count, ∀ c ∈ List.replicate count ' ', isBlank c := by
    intro count c hc
    rw [List.eq_of_mem_replicate hc]
    decide
  have hspace : ∀ c ∈ " ".toList, isBlank c := List.all_eq_true.1 (by decide)
  rw [piece, String.toList_append, String.toList_append, trim_append_blanks hspace,
    trim_blanks_append hspace]
  cases place.1.alignment with
  | left =>
    rw [Alignment.pad, padRight, String.toList_append, String.toList_ofList,
      trim_append_blanks (hblanks _)]
  | right =>
    rw [Alignment.pad, padLeft, String.toList_append, String.toList_ofList,
      trim_blanks_append (hblanks _)]

/-- The cell can be told from what stands around it. -/
def IsClear (cell : String) : Prop := '│' ∉ cell.toList ∧ trim cell.toList = cell.toList

theorem IsClear.ofList_trim_piece {cell : String} (h : IsClear cell) (place : Column × Nat) :
    String.ofList (trim (piece place cell).toList) = cell := by
  rw [trim_piece, h.2, String.ofList_toList]

theorem IsClear.notMem_piece {cell : String} (h : IsClear cell) (place : Column × Nat) :
    '│' ∉ (piece place cell).toList := by
  intro hmem
  rcases mem_piece hmem with hc | hc
  · exact absurd hc (by decide)
  · exact h.1 hc

variable {table : Table} {widths : List Nat} {cells : List String}

/-- By induction on the cells: each is what trimming leaves of its piece. -/
theorem map_trim_pieces {places : List (Column × Nat)} (hlength : cells.length ≤ places.length)
    (hclear : ∀ cell ∈ cells, IsClear cell) :
    (List.zipWith piece places cells).map (fun text => String.ofList (trim text.toList))
      = cells := by
  induction cells generalizing places with
  | nil => rw [List.zipWith_nil_right, List.map_nil]
  | cons cell cells ih =>
    cases places with
    | nil => exact absurd hlength (by simp)
    | cons place places =>
      rw [List.zipWith_cons_cons, List.map_cons,
        (hclear cell List.mem_cons_self).ofList_trim_piece,
        ih (Nat.le_of_succ_le_succ hlength) fun other hother =>
          hclear other (List.mem_cons_of_mem _ hother)]

/-- The cells of a row are read from its line. -/
theorem cellsOf_rowLine (hne : cells ≠ [])
    (hlength : cells.length ≤ (table.columns.zip widths).length)
    (hclear : ∀ cell ∈ cells, IsClear cell) :
    cellsOf (table.rowLine widths cells).toList = cells := by
  have hline : (table.rowLine widths cells).toList.tail.dropLast
      = ['│'].intercalate
          ((List.zipWith piece (table.columns.zip widths) cells).map String.toList) := by
    rw [rowLine_eq, String.toList_append, String.toList_append, String.toList_intercalate]
    exact List.dropLast_concat
  have hapart : ∀ text ∈ (List.zipWith piece (table.columns.zip widths) cells).map String.toList,
      '│' ∉ text := by
    intro text htext
    obtain ⟨text, hmem, rfl⟩ := List.mem_map.1 htext
    obtain ⟨place, cell, hcell, rfl⟩ := exists_cell_of_mem_pieces hmem
    exact (hclear cell hcell).notMem_piece place
  have hpieces : (List.zipWith piece (table.columns.zip widths) cells).map String.toList ≠ [] := by
    intro hnil
    have hzero := congrArg List.length hnil
    have hpos := List.length_pos_iff.2 hne
    rw [List.length_map, List.length_zipWith, List.length_nil] at hzero
    omega
  rw [cellsOf, hline, List.splitOn_intercalate _ hapart hpieces, List.map_map]
  exact map_trim_pieces hlength hclear

/-- The table can be read back: each row has a cell for each column, and each cell can be told from
what stands around it. -/
structure IsReadable (table : Table) : Prop where
  flat : table.IsFlat
  columns_ne_nil : table.columns ≠ []
  length_eq : ∀ cells ∈ table.rows, cells.length = table.columns.length
  isClear : ∀ cells ∈ table.rows, ∀ cell ∈ cells, IsClear cell

/-- There is a width for each column. -/
theorem IsReadable.length_widths (h : table.IsReadable) :
    table.widths.length = table.columns.length := by
  -- widening by a row keeps the number of widths
  have hfold : ∀ (rows : List (List String)) (widths : List Nat),
      (∀ cells ∈ rows, cells.length = widths.length) →
        (rows.foldl widen widths).length = widths.length := by
    intro rows
    induction rows with
    | nil => exact fun _ _ => rfl
    | cons cells rows ih =>
      intro widths hrows
      have hstep : (widen widths cells).length = widths.length := by
        rw [widen, List.length_zipWith, hrows cells List.mem_cons_self, Nat.min_self]
      rw [List.foldl_cons, ih, hstep]
      intro other hother
      rw [hstep, hrows other (List.mem_cons_of_mem _ hother)]
  have htitles : (table.titles.map String.length).length = table.columns.length := by
    rw [List.length_map, titles, List.length_map]
  rw [widths, hfold, htitles]
  intro cells hcells
  rw [htitles, h.length_eq cells hcells]

/-- **A printed table is read back** as the rows that were printed. -/
theorem IsReadable.readRows_unlines (h : table.IsReadable) :
    readRows (unlines table.lines) = table.rows := by
  have hflat : ∀ line ∈ table.lines, '\n' ∉ line.toList :=
    fun line hline => newline_notMem_of_mem_lines h.flat hline
  have hread : ∀ cells ∈ table.rows, cellsOf (table.rowLine table.widths cells).toList = cells := by
    intro cells hcells
    have hlength := h.length_eq cells hcells
    refine cellsOf_rowLine ?_ ?_ (h.isClear cells hcells)
    · rw [← List.length_pos_iff, hlength]
      exact List.length_pos_iff.2 h.columns_ne_nil
    · rw [List.length_zip, h.length_widths, Nat.min_self, hlength]
  have hlines : (endedLines (unlines table.lines)).drop 2
      = table.rows.map fun cells => (table.rowLine table.widths cells).toList := by
    rw [endedLines_unlines hflat, lines, List.map_cons, List.map_cons, List.drop_succ_cons,
      List.drop_succ_cons, List.drop_zero, List.map_map]
    rfl
  rw [readRows, hlines, List.map_map]
  exact List.map_congr_left hread |>.trans (List.map_id _)

/-- What is asked of a printer of tables together with a reader of what it prints: of a table that
can be read back, the rows are read. -/
def ReadsBack (print : Table → String) (read : String → List (List String)) : Prop :=
  ∀ table : Table, table.IsReadable → read (print table) = table.rows

/-- The lines of a table, a line end after each, are read as asked. -/
theorem readsBack_lines : ReadsBack (fun table => unlines table.lines) readRows :=
  fun _ h => h.readRows_unlines

end Table

/-! ## Paragraphs -/

/-- The lines put together so that a line that begins with a space is under the one before it. -/
def paragraphs (lines : List (List Char)) : List (List (List Char)) :=
  lines.splitBy fun _ line => line.head? == some ' '

/-- A line and others under it that begin with a space. -/
structure IsParagraph (lines : List (List Char)) : Prop where
  head : ∃ line ∈ lines.head?, line.head? ≠ some ' '
  tail : ∀ line ∈ lines.tail, line.head? = some ' '

theorem IsParagraph.exists_cons {lines : List (List Char)} (h : IsParagraph lines) :
    ∃ line below, lines = line :: below ∧ line.head? ≠ some ' '
      ∧ ∀ line ∈ below, line.head? = some ' ' := by
  obtain ⟨line, hline, hhead⟩ := h.head
  obtain ⟨below, rfl⟩ := List.head?_eq_some_iff.1 hline
  exact ⟨line, below, rfl, hhead, h.tail⟩

theorem IsParagraph.ne_nil {lines : List (List Char)} (h : IsParagraph lines) : lines ≠ [] := by
  obtain ⟨line, below, rfl, -⟩ := h.exists_cons
  exact List.cons_ne_nil line below

/-- **Paragraphs one after another are told apart.** -/
theorem paragraphs_flatten {written : List (List (List Char))}
    (h : ∀ lines ∈ written, IsParagraph lines) : paragraphs written.flatten = written := by
  refine List.splitBy_flatten (fun hnil => (h [] hnil).ne_nil rfl) (fun lines hlines => ?_) ?_
  · obtain ⟨line, below, rfl, -, hbelow⟩ := (h lines hlines).exists_cons
    refine List.Pairwise.isChain (List.pairwise_cons.2 ⟨fun other hother => ?_, ?_⟩)
    · exact beq_iff_eq.2 (hbelow other hother)
    · exact List.pairwise_of_forall_mem_list fun _ _ other hother =>
        beq_iff_eq.2 (hbelow other hother)
  · refine (List.pairwise_of_forall_mem_list fun lines hlines next hnext => ?_).isChain
    obtain ⟨line, below, rfl, hhead, -⟩ := (h next hnext).exists_cons
    exact ⟨(h lines hlines).ne_nil, List.cons_ne_nil line below, beq_eq_false_iff_ne.2 hhead⟩

/-! ## Words -/

/-- The word with these digits, if they are four digits of base sixteen. -/
def readWord? (digits : List Char) : Option Word :=
  if digits.length = 4 then
    (Numeral.readDigits 16 UInt16.size 0 digits).toOption.map UInt16.ofNat
  else none

/-- The words of a cell, with a space between any two. -/
def readWords? (cell : String) : Option (List Word) := (cell.toList.splitOn ' ').mapM readWord?

/-- The four digits of a word are read back. -/
theorem readWord?_padLeft (word : Word) :
    readWord? (padLeft '0' 4 (Numeral.lowerHex word.toNat)).toList = some word := by
  have hshort : (Numeral.lowerHex word.toNat).toList.length ≤ 4 := by
    rw [Numeral.lowerHex, String.toList_ofList]
    exact Nat.toDigits_length 16 word.toNat 4 (by decide) word.toNat_lt
  have hread : Numeral.readDigits 16 UInt16.size 0
      (padLeft '0' 4 (Numeral.lowerHex word.toNat)).toList = .ok word.toNat := by
    rw [padLeft, String.toList_append, String.toList_ofList,
      Numeral.readDigits_replicate_zero (by decide) (by decide)]
    exact Numeral.readDigits_lowerHex word.toNat_lt
  have hlength : (padLeft '0' 4 (Numeral.lowerHex word.toNat)).toList.length = 4 := by
    rw [padLeft, String.toList_append, String.toList_ofList, List.length_append,
      List.length_replicate, ← String.length_toList]
    omega
  rw [readWord?, if_pos hlength, hread]
  exact congrArg some (UInt16.ofNat_toNat)

end Text

namespace CommandLine

/-- **The words of an instruction are read from its cell.** -/
theorem readWords?_wordsCell (instruction : Instruction) :
    Text.readWords? (wordsCell instruction) = some instruction.words := by
  have hsplit : (wordsCell instruction).toList.splitOn ' ' = instruction.words.map fun word =>
      (Text.padLeft '0' 4 (Numeral.lowerHex word.toNat)).toList := by
    rw [wordsCell, String.toList_intercalate, List.map_map]
    refine List.splitOn_intercalate ' ' (fun text htext => ?_) (List.cons_ne_nil _ _)
    obtain ⟨word, -, rfl⟩ := List.mem_map.1 htext
    exact fun hspace =>
      absurd ((isAlphanumericRun_fourDigits word).2 ' ' hspace) (by decide)
  rw [Text.readWords?, hsplit, mapM_map_of_eq_some Text.readWord?_padLeft, List.map_id']

end CommandLine

/-! ## Texts without blanks at their ends -/

namespace Text

theorem head_append {front : String} (h : ∃ c ∈ front.toList.head?, ¬ isBlank c) (back : String) :
    ∃ c ∈ (front ++ back).toList.head?, ¬ isBlank c := by
  obtain ⟨c, hc, hblank⟩ := h
  refine ⟨c, ?_, hblank⟩
  rw [String.toList_append, List.head?_append, Option.mem_def.1 hc]
  rfl

theorem last_append (front : String) {back : String}
    (h : ∃ c ∈ back.toList.getLast?, ¬ isBlank c) :
    ∃ c ∈ (front ++ back).toList.getLast?, ¬ isBlank c := by
  obtain ⟨c, hc, hblank⟩ := h
  refine ⟨c, ?_, hblank⟩
  rw [String.toList_append, List.getLast?_append, Option.mem_def.1 hc]
  rfl

/-- Joined texts have no blanks at their ends if the texts have none. -/
theorem isTrimmed_intercalate {between : String} {texts : List String} (hne : texts ≠ [])
    (h : ∀ text ∈ texts, IsTrimmed text.toList) :
    IsTrimmed (between.intercalate texts).toList := by
  induction texts with
  | nil => exact absurd rfl hne
  | cons text texts ih =>
    have htext := h text List.mem_cons_self
    cases texts with
    | nil => rwa [String.intercalate_singleton]
    | cons next texts =>
      have hrest := ih (List.cons_ne_nil _ _) fun other hother =>
        h other (List.mem_cons_of_mem _ hother)
      rw [String.intercalate_cons_cons]
      exact ⟨head_append (head_append htext.head _) _, last_append _ hrest.last⟩

end Text

theorem Address.isTrimmed_text (address : Address) : Text.IsTrimmed address.text.toList :=
  address.denotes_text.isAlphanumericRun.isTrimmed

theorem Numeral.isTrimmed_decimal (n : Nat) : Text.IsTrimmed (decimal n).toList := by
  refine IsAlphanumericRun.isTrimmed ⟨decimal_ne_nil n, fun c hc => ?_⟩
  simp [Char.isAlphanum, isDigit_of_mem_decimal hc]

theorem Edge.isTrimmed_text (edge : Edge) : Text.IsTrimmed edge.text.toList := by
  have hkind : Text.IsTrimmed edge.kind.text.toList := by
    cases edge.kind <;> exact ⟨⟨_, rfl, by decide⟩, _, rfl, by decide⟩
  rw [text]
  cases edge.target with
  | none => exact hkind
  | some target =>
    exact ⟨Text.head_append (Text.head_append hkind.head _) _,
      Text.last_append _ target.isTrimmed_text.last⟩

theorem DecodeError.isTrimmed_message (error : DecodeError) :
    Text.IsTrimmed error.message.toList := by
  cases error with
  | misaligned address =>
    exact ⟨Text.head_append (Text.head_append ⟨'i', rfl, by decide⟩ _) _,
      Text.last_append _ ⟨'d', rfl, by decide⟩⟩
  | noOpcode address =>
    exact ⟨Text.head_append ⟨'n', rfl, by decide⟩ _,
      Text.last_append _ address.isTrimmed_text.last⟩
  | unknownOpcode address word =>
    have hstart := (Numeral.isTrimmed_decimal word.toNat).head
    exact ⟨Text.head_append (Text.head_append (Text.head_append hstart _) _) _,
      Text.last_append _ ⟨'e', rfl, by decide⟩⟩
  | truncated address needed available =>
    have hstart : ∃ c ∈ ("instruction at " ++ address.text ++ " needs ").toList.head?,
        ¬ Text.isBlank c :=
      Text.head_append (Text.head_append ⟨'i', rfl, by decide⟩ _) _
    exact ⟨Text.head_append (Text.head_append (Text.head_append (Text.head_append hstart _) _) _) _,
      Text.last_append _ ⟨'n', rfl, by decide⟩⟩
  | invalidOperand address index word =>
    have hstart : ∃ c ∈ ("operand " ++ Numeral.decimal index ++ " of instruction at ").toList.head?,
        ¬ Text.isBlank c :=
      Text.head_append (Text.head_append ⟨'o', rfl, by decide⟩ _) _
    exact ⟨Text.head_append (Text.head_append (Text.head_append hstart _) _) _,
      Text.last_append _ (Numeral.isTrimmed_decimal word.toNat).last⟩

namespace CommandLine

open Text (IsTrimmed IsParagraph)

/-! ## The reports can be read -/

theorem isTrimmed_wordsCell (instruction : Instruction) :
    IsTrimmed (wordsCell instruction).toList := by
  refine Text.isTrimmed_intercalate (List.cons_ne_nil _ _) fun text htext => ?_
  obtain ⟨word, -, rfl⟩ := List.mem_map.1 htext
  exact (isAlphanumericRun_fourDigits word).isTrimmed

/-- The cell of edges is empty or has no blanks at its ends. -/
theorem trim_edgesCell (instruction : Instruction) :
    Text.trim (edgesCell instruction).toList = (edgesCell instruction).toList := by
  by_cases hnone : instruction.edges = []
  · rw [edgesCell, hnone]
    rfl
  · have htrimmed : IsTrimmed (edgesCell instruction).toList := by
      refine Text.isTrimmed_intercalate (by simpa using hnone) fun text htext => ?_
      obtain ⟨edge, -, rfl⟩ := List.mem_map.1 htext
      exact edge.isTrimmed_text
    exact htrimmed.trim_eq_self

theorem isClear_of_mem_row {item : Item} {cell : String} (h : cell ∈ row item) :
    Text.Table.IsClear cell := by
  refine ⟨(isPrintable_of_mem_row h).notMem (by decide), ?_⟩
  unfold row at h
  split at h
  · next instruction _ =>
    simp only [List.mem_cons, List.not_mem_nil, or_false] at h
    rcases h with rfl | rfl | rfl | rfl
    · exact item.address.isTrimmed_text.trim_eq_self
    · exact (isTrimmed_wordsCell instruction).trim_eq_self
    · exact instruction.isTrimmed_text.trim_eq_self
    · exact trim_edgesCell instruction
  · next error _ =>
    simp only [List.mem_cons, List.not_mem_nil, or_false] at h
    rcases h with rfl | rfl | rfl | rfl
    · exact item.address.isTrimmed_text.trim_eq_self
    · rfl
    · rfl
    · exact error.isTrimmed_message.trim_eq_self

theorem isReadable_table (items : List Item) : (table items).IsReadable where
  flat := isFlat_table items
  columns_ne_nil := List.cons_ne_nil _ _
  length_eq := by
    intro cells hcells
    obtain ⟨item, -, rfl⟩ := List.mem_map.1 hcells
    unfold row
    split <;> rfl
  isClear := by
    intro cells hcells cell hcell
    obtain ⟨item, -, rfl⟩ := List.mem_map.1 hcells
    exact isClear_of_mem_row hcell

/-- The lines on an item are one paragraph. -/
theorem isParagraph_liftedLines (item : Item) :
    IsParagraph ((liftedLines item).map String.toList) := by
  have hhead : ∀ rest : String, (item.address.text ++ rest).toList.head? ≠ some ' ' := by
    intro rest
    rw [Address.text, String.append_assoc, String.toList_append]
    exact fun h => absurd (Option.some.inj h) (by decide)
  unfold liftedLines
  split
  · next instruction _ =>
    refine ⟨⟨_, rfl, ?_⟩, fun line hline => ?_⟩
    · rw [String.append_assoc]
      exact hhead _
    · rw [List.map_cons, List.tail_cons, List.map_map] at hline
      obtain ⟨statement, -, rfl⟩ := List.mem_map.1 hline
      rw [Function.comp_apply, String.toList_append]
      rfl
  · next error _ =>
    refine ⟨⟨_, rfl, ?_⟩, fun line hline => absurd hline (by simp)⟩
    rw [String.append_assoc]
    exact hhead _

/-- **The rows of the table report are read from what is printed**, whatever the printer. -/
theorem read_report {print : Text.Table → String} {read : String → List (List String)}
    (h : Text.Table.ReadsBack print read) (items : List Item) :
    read (print (table items)) = items.map row :=
  h (table items) (isReadable_table items)

/-- **So are the paragraphs of the lifting report.** -/
theorem paragraphs_report (items : List Item) :
    Text.paragraphs (Text.endedLines (Text.unlines (items.flatMap liftedLines)))
      = items.map fun item => (liftedLines item).map String.toList := by
  have hflat : ∀ line ∈ items.flatMap liftedLines, '\n' ∉ line.toList := by
    intro line hline
    obtain ⟨item, -, hitem⟩ := List.mem_flatMap.1 hline
    exact (isPrintable_of_mem_liftedLines hitem).notMem (by decide)
  rw [Text.endedLines_unlines hflat, List.map_flatMap, List.flatMap_def]
  refine Text.paragraphs_flatten fun lines hlines => ?_
  obtain ⟨item, -, rfl⟩ := List.mem_map.1 hlines
  exact isParagraph_liftedLines item

end CommandLine

end WordMachine
