import WordMachine.Proofs.RangeOptions
import WordMachine.Proofs.ReportReading
import WordMachine.Proofs.Tiling

/-!
# Reports are faithful to the image

The two reports are made independently of each other, and the cell of words is made again
from the instruction that was decoded. Still they show one thing. Read back, both have an
entry for each item that is covered, with the same address and the same instruction or
reason, and the words in a row are the bytes of the image up to the item behind.

A start that is asked for is aligned, so no entry is about an odd address.
-/

namespace WordMachine

/-! ## Items and the bytes they are on -/

namespace Image

variable {image : Image} {start : Address}

/-- Where the item behind one of the sweep begins, or where the instruction ends if it is the
last. -/
def stopOf (image : Image) (start : Address) (place : Nat) (instruction : Instruction) : Address :=
  (image.sweep start)[place + 1]?.elim instruction.next Item.address

theorem stopOf_eq {place : Nat} {address : Address} {instruction : Instruction}
    (h : (image.sweep start)[place]? = some ⟨address, .ok instruction⟩) :
    image.stopOf start place instruction = address + instruction.length := by
  obtain ⟨-, last, -, -, htiles⟩ := Sweep.items_keep
    (fun _ hplace _ => Sweep.LiesIn.advance hplace) (Sweep.liesIn_start image start)
  have hdecode : image.decode address = .ok instruction :=
    ((of_mem_sweep (List.mem_of_getElem? h)).1).symm
  have haddress := (decode_eq_ok_iff.1 hdecode).2.1
  rw [stopOf]
  cases hfollowing : (image.sweep start)[place + 1]? with
  | none =>
    rw [Option.elim_none, Instruction.next, haddress]
  | some following => exact htiles.address_eq_next h hfollowing

/-- The words of an instruction are the bytes up to the item behind it. -/
theorem ofWords_words_of_getElem?_sweep {place : Nat} {address : Address}
    {instruction : Instruction}
    (h : (image.sweep start)[place]? = some ⟨address, .ok instruction⟩) :
    ofWords instruction.words = image.slice address.offset
        ((image.stopOf start place instruction).offset - address.offset)
      ∧ (image.stopOf start place instruction).offset ≤ image.length := by
  have hdecode := ((of_mem_sweep (List.mem_of_getElem? h)).1).symm
  rw [stopOf_eq h, Address.offset_add, Nat.add_sub_cancel_left]
  exact ⟨encode_eq_slice hdecode, le_length_of_decode_eq_ok hdecode⟩

end Image

namespace CommandLine

open Text (paragraphs endedLines readWords?)
open Text.Table (readRows)

/-! ## Items that are covered -/

/-- A report covers the first items of the sweep, as many as the count says, or all of them. -/
theorem Range.items_eq_take (range : Range) (image : Image) :
    range.items image
      = (image.sweep range.start).take (range.count.getD (image.sweep range.start).length) := by
  unfold items
  cases range.count with
  | none => exact List.take_length.symm
  | some count => rfl

/-! ## Entries -/

/-- What a report says of an item. -/
inductive Entry
  /-- There is an instruction at the address. -/
  | found (label text : String)
  /-- There is none, for a reason. -/
  | absent (label reason : String)
  deriving DecidableEq, Repr

/-- What is to be said of an item. -/
def Entry.ofItem (item : Item) : Entry :=
  match item.result with
  | .ok instruction => .found item.address.text instruction.text
  | .error error => .absent item.address.text error.message

/-- What a row of the table says. -/
def Entry.ofRow? : List String → Option Entry
  | [label, _, text, last] =>
    some (if text = "??" then .absent label last else .found label text)
  | _ => none

/-- What a paragraph of the lifting report says, apart from what is lifted. -/
def Entry.ofParagraph? : List (List Char) → Option Entry
  | [] => none
  | line :: _ =>
    let label := String.ofList (line.takeWhile (· ≠ ' '))
    match (line.dropWhile (· ≠ ' ')).drop 2 with
    | '?' :: '?' :: ' ' :: reason => some (.absent label (String.ofList reason))
    | text => some (.found label (String.ofList text))

theorem Entry.ofRow?_row (item : Item) : ofRow? (row item) = some (.ofItem item) := by
  rw [row, ofItem]
  cases item.result with
  | ok instruction =>
    have hmark : instruction.text ≠ "??" := by
      intro htext
      have hhead := instruction.head?_text_ne (c := '?') (by decide)
      rw [htext] at hhead
      exact hhead rfl
    exact congrArg some (if_neg hmark)
  | error error => rfl

/-- The line is an address, two spaces, and what is said. -/
theorem Entry.ofParagraph?_cons (address : Address) (said : List Char) (below : List (List Char)) :
    ofParagraph? ((address.text.toList ++ ' ' :: ' ' :: said) :: below)
      = match said with
        | '?' :: '?' :: ' ' :: reason => some (.absent address.text (String.ofList reason))
        | text => some (.found address.text (String.ofList text)) := by
  have hlabel : ∀ c ∈ address.text.toList, decide (c ≠ ' ') = true := by
    intro c hc
    have halphanum := address.denotes_text.isAlphanumericRun.2 c hc
    refine decide_eq_true fun hspace => ?_
    rw [hspace] at halphanum
    exact absurd halphanum (by decide)
  have hstop : ∀ c ∈ (' ' :: ' ' :: said).head?, ¬ decide (c ≠ ' ') = true :=
    Text.forall_mem_head?_cons (by decide)
  rw [ofParagraph?, Text.takeWhile_run hlabel hstop, Text.dropWhile_run hlabel hstop,
    String.ofList_toList]
  rfl

theorem Entry.ofParagraph?_liftedLines (item : Item) :
    ofParagraph? ((liftedLines item).map String.toList) = some (.ofItem item) := by
  rw [liftedLines, ofItem]
  cases item.result with
  | ok instruction =>
    have hline : (item.address.text ++ "  " ++ instruction.text).toList
        = item.address.text.toList ++ ' ' :: ' ' :: instruction.text.toList := by
      simp [String.toList_append]
    dsimp only
    rw [List.map_cons, hline, ofParagraph?_cons]
    split
    · next reason htext =>
      -- an instruction begins with its mnemonic
      have hhead := instruction.head?_text_ne (c := '?') (by decide)
      rw [htext] at hhead
      exact absurd rfl hhead
    · rw [String.ofList_toList]
  | error error =>
    have hline : (item.address.text ++ "  ?? " ++ error.message).toList
        = item.address.text.toList ++ ' ' :: ' ' :: '?' :: '?' :: ' ' :: error.message.toList := by
      simp [String.toList_append]
    dsimp only
    rw [List.map_cons, hline, ofParagraph?_cons]
    exact congrArg (fun reason => some (absent item.address.text reason)) String.ofList_toList

/-- The entries of a printed list of lifted instructions. -/
def Entry.ofListing? (listing : String) : Option (List Entry) :=
  (paragraphs (endedLines listing)).mapM ofParagraph?

/-! ## Both reports -/

/--
**The reports are faithful to the image.**

With a start and a count that ask for a range, both reports cover the first items of the
sweep from that start, as many as the count says, or all of them if no count is given. One
prints the table of these items and the other the lines on them. A start or a count that
asks for none is refused by both.

The table may be printed in any way in which the rows of a readable table can be read back,
as they can from its lines. The rows, and the paragraphs of the lifting report, then have an
entry for each item that is covered, in order, with the same address and the same
instruction or reason. None of the items is misaligned. In a row with an instruction the
words, read as four digits each and stored low byte first, are the bytes of the image from
the address to the item that the sweep meets next, or to the end of the instruction if it
meets no more.
-/
theorem reports_faithful :
    Text.Table.ReadsBack (fun table => Text.unlines table.lines) readRows
    ∧ ∀ (directory : Directory) (input : String) (start count : Option String) (image : Image),
      input.toList.head? ≠ some '-' → directory.readFile input = .ok image →
        ((∀ range : Range, ¬ range.AskedFor start count) →
          ∀ name ∈ ["disasm", "lift"], ∃ report : String,
            directory.runArguments (reportArguments name input start count)
              = (⟨2, "", report⟩, directory))
        ∧ ∀ (range : Range) (covered : List Item), range.AskedFor start count →
          covered
              = (image.sweep range.start).take
                  (range.count.getD (image.sweep range.start).length) →
            directory.runArguments (reportArguments "disasm" input start count)
                = (⟨0, Text.unlines (table covered).lines, ""⟩, directory)
            ∧ directory.runArguments (reportArguments "lift" input start count)
                = (⟨0, Text.unlines (covered.flatMap liftedLines), ""⟩, directory)
            ∧ Entry.ofListing? (Text.unlines (covered.flatMap liftedLines))
                = some (covered.map Entry.ofItem)
            ∧ (∀ item ∈ covered, ∀ place, item.result ≠ .error (.misaligned place))
            ∧ ∀ (print : Text.Table → String) (read : String → List (List String)),
                Text.Table.ReadsBack print read →
                  (read (print (table covered))).mapM Entry.ofRow?
                      = some (covered.map Entry.ofItem)
                  ∧ ∀ (place : Nat) (address : Address) (instruction : Instruction),
                    covered[place]? = some ⟨address, .ok instruction⟩ →
                      ∃ (cell edges : String) (words : List Word),
                        (read (print (table covered)))[place]?
                            = some [address.text, cell, instruction.text, edges]
                        ∧ readWords? cell = some words
                        ∧ Image.ofWords words = image.slice address.offset
                            ((image.stopOf range.start place instruction).offset - address.offset)
                        ∧ (image.stopOf range.start place instruction).offset
                            ≤ image.length := by
  refine ⟨Text.Table.readsBack_lines, ?_⟩
  intro directory input start count image hinput hread
  refine ⟨fun hrefused name hname => ?_, ?_⟩
  · have hne := ne_empty_of_readFile hread
    rcases List.mem_pair.1 hname with rfl | rfl
    · exact runArguments_refused (Invocation.ofArguments_disasm hinput hne start count) hrefused
    · exact runArguments_refused (Invocation.ofArguments_lift hinput hne start count) hrefused
  intro range covered hasked hcovered
  have hrange := readRange_eq_ok_iff.2 hasked
  have hinitial : covered <+: image.sweep range.start := by
    rw [hcovered]
    exact List.take_prefix _ _
  rw [← range.items_eq_take] at hcovered
  subst hcovered
  refine ⟨runArguments_disasm hinput hread hrange, runArguments_lift hinput hread hrange, ?_, ?_,
    ?_⟩
  · rw [Entry.ofListing?, paragraphs_report]
    exact mapM_map_of_eq_some Entry.ofParagraph?_liftedLines _
  · exact fun item hitem =>
      Image.not_misaligned_of_mem_sweep hasked.isAligned (hinitial.subset hitem)
  · intro print read hprint
    rw [read_report hprint]
    refine ⟨mapM_map_of_eq_some Entry.ofRow?_row _, fun place address instruction hitem => ?_⟩
    have hplace : (image.sweep range.start)[place]? = some ⟨address, .ok instruction⟩ := by
      obtain ⟨rest, hrest⟩ := hinitial
      rw [← hrest, List.getElem?_append_left (List.getElem?_eq_some_iff.1 hitem).1, hitem]
    refine ⟨wordsCell instruction, edgesCell instruction, instruction.words, ?_,
      readWords?_wordsCell instruction, Image.ofWords_words_of_getElem?_sweep hplace⟩
    rw [List.getElem?_map, hitem]
    rfl

/-- The count cuts the reports short behind the second item, which still ends where the third one
begins. The first item is no instruction. A start inside a word is refused. -/
theorem reports_faithful_cut_short :
    ∃ report listing cell edges : String, ∃ words : List Word,
      (Directory.ofFiles [("input", [21, 0, 119, 119, 19, 0, 65, 0, 7])]).runArguments
          ["disasm", "input", "--start=0x2", "--count=2"]
        = (⟨0, report, ""⟩, .ofFiles [("input", [21, 0, 119, 119, 19, 0, 65, 0, 7])])
      ∧ (Directory.ofFiles [("input", [21, 0, 119, 119, 19, 0, 65, 0, 7])]).runArguments
          ["lift", "input", "--start=0x2", "--count=2"]
        = (⟨0, listing, ""⟩, .ofFiles [("input", [21, 0, 119, 119, 19, 0, 65, 0, 7])])
      ∧ (readRows report).mapM Entry.ofRow?
        = some [.absent "0x0002" "30583 at 0x0002 is not an opcode", .found "0x0004" "out 'A'"]
      ∧ Entry.ofListing? listing
        = some [.absent "0x0002" "30583 at 0x0002 is not an opcode", .found "0x0004" "out 'A'"]
      ∧ (readRows report)[1]? = some ["0x0004", cell, "out 'A'", edges]
      ∧ readWords? cell = some words
      ∧ Image.ofWords words = [19, 0, 65, 0]
      ∧ ∃ refusal : String,
        (Directory.ofFiles [("input", [21, 0, 119, 119, 19, 0, 65, 0, 7])]).runArguments
            ["lift", "input", "--start=0x3", "--count=2"]
          = (⟨2, "", refusal⟩, .ofFiles [("input", [21, 0, 119, 119, 19, 0, 65, 0, 7])]) := by
  have hread : (Directory.ofFiles [("input", [21, 0, 119, 119, 19, 0, 65, 0, 7])]).readFile "input"
      = .ok [21, 0, 119, 119, 19, 0, 65, 0, 7] := by rfl
  have hcovered : [⟨⟨2⟩, .error (.unknownOpcode ⟨2⟩ 30583)⟩,
        ⟨⟨4⟩, .ok ⟨⟨4⟩, .output, [⟨0, .char, 65⟩]⟩⟩]
      = (Image.sweep [21, 0, 119, 119, 19, 0, 65, 0, 7] ⟨2⟩).take 2 := by
    with_unfolding_all rfl
  have hstop : Image.stopOf [21, 0, 119, 119, 19, 0, 65, 0, 7] ⟨2⟩ 1
      ⟨⟨4⟩, .output, [⟨0, .char, 65⟩]⟩ = ⟨8⟩ := by
    with_unfolding_all rfl
  have hreason : (DecodeError.unknownOpcode ⟨2⟩ 30583).message
      = "30583 at 0x0002 is not an opcode" := by
    with_unfolding_all rfl
  have hasked : Range.AskedFor (some "0x2") (some "2") ⟨⟨2⟩, some 2⟩ :=
    readRange_eq_ok_iff.1 rfl
  have hodd : ∀ range : Range, ¬ range.AskedFor (some "0x3") (some "2") := by
    intro range hrange
    have hrefused : readRange (some "0x3") (some "2") = .error (.invalidStart "0x3" (.odd 3)) := by
      rfl
    exact absurd (hrefused.symm.trans (readRange_eq_ok_iff.2 hrange)) (by simp)
  obtain ⟨hlines, hreports⟩ := reports_faithful
  have hrefusal := (hreports _ "input" (some "0x3") (some "2") _ (by decide) hread).1 hodd "lift"
    (by decide)
  obtain ⟨-, hranges⟩ := hreports _ "input" (some "0x2") (some "2") _ (by decide) hread
  obtain ⟨hreport, hlisting, hentries, -, hrows⟩ := hranges _ _ hasked hcovered
  obtain ⟨hsame, hwords⟩ := hrows _ _ hlines
  obtain ⟨cell, edges, words, hrow, hcell, hbytes, -⟩ := hwords 1 _ _ rfl
  rw [hstop] at hbytes
  refine ⟨_, _, cell, edges, words, hreport, hlisting, hsame.trans ?_, hentries.trans ?_, hrow,
    hcell, hbytes, hrefusal⟩
  all_goals
    simp only [List.map_cons, List.map_nil, Entry.ofItem, hreason]
    rfl

end CommandLine

end WordMachine
