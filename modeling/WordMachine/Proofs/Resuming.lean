import WordMachine.Proofs.RangeOptions
import WordMachine.Proofs.Tiling

/-!
# Taking a sweep up again

A sweep carries nothing along but its place: what is ahead is what the image holds from
there on. So the sweep that is left after some calls is the one that starts where they
ended, and a sweep can be broken off after any item and started again behind it.

A report prints the place of each item, and the option for the start reads it back. So a
report that was cut short by a count is continued by a second one that starts at the label
of the row that would have been next.
-/

namespace WordMachine

/-! ## The sweep that is left -/

/-- The address where items end that begin at another one. -/
def Item.stop (start : Address) (items : List Item) : Address := items.getLast?.elim start Item.next

theorem Item.stop_cons (start : Address) (item : Item) (items : List Item) :
    stop start (item :: items) = stop item.next items := by
  rw [stop, stop, List.getLast?_cons]
  cases items.getLast? <;> rfl

namespace Sweep

variable {image : Image} {sweep : Sweep}

/-- The sweep that is left after this many calls. -/
def left (sweep : Sweep) : Nat → Sweep
  | 0 => sweep
  | calls + 1 => sweep.call.2.left calls

/-- A sweep of an image is told by its position. -/
theorem LiesIn.eq_start (h : LiesIn image sweep) : sweep = start image sweep.position := by
  obtain ⟨position, ahead⟩ := sweep
  exact congrArg (Sweep.mk position) h

theorem LiesIn.call (h : LiesIn image sweep) : LiesIn image sweep.call.2 := by
  by_cases hahead : sweep.ahead = []
  · rwa [call_of_ahead_eq_nil hahead]
  · rw [call_of_ahead_ne_nil hahead]
    exact h.advance

theorem LiesIn.left (h : LiesIn image sweep) (calls : Nat) : LiesIn image (sweep.left calls) := by
  induction calls generalizing sweep with
  | zero => exact h
  | succ calls ih => exact ih h.call

/-- What is left meets the items that the calls have not answered with. -/
theorem items_left (sweep : Sweep) (calls : Nat) :
    (sweep.left calls).items = sweep.items.drop calls := by
  induction calls generalizing sweep with
  | zero => rfl
  | succ calls ih => rw [left, ih, items_call, List.drop_tail]

/-- What is left starts where the items answered with end. -/
theorem position_left (sweep : Sweep) (calls : Nat) :
    (sweep.left calls).position = Item.stop sweep.position (sweep.items.take calls) := by
  induction calls generalizing sweep with
  | zero => rfl
  | succ calls ih =>
    rw [left, ih]
    -- a sweep with nothing ahead is left as it is, and its first items are none
    by_cases hahead : sweep.ahead = []
    · rw [call_of_ahead_eq_nil hahead, items_of_ahead_eq_nil hahead, List.take_nil, List.take_nil]
    · rw [call_of_ahead_ne_nil hahead, items_of_ahead_ne_nil hahead, List.take_succ_cons,
        Item.stop_cons]
      rfl

end Sweep

namespace Image

variable {image : Image} {start : Address} {count : Nat}

/-- A sweep from where the first items end meets the others. -/
theorem sweep_stop (image : Image) (start : Address) (count : Nat) :
    image.sweep (Item.stop start ((image.sweep start).take count))
      = (image.sweep start).drop count := by
  have hleft := ((Sweep.liesIn_start image start).left count).eq_start
  rw [Sweep.position_left] at hleft
  have hitems := Sweep.items_left (Sweep.start image start) count
  rw [hleft] at hitems
  exact hitems

theorem address_of_head?_sweep {item : Item} (h : (image.sweep start).head? = some item) :
    item.address = start := by
  by_cases hahead : (Sweep.start image start).ahead = []
  · rw [sweep, Sweep.items_of_ahead_eq_nil hahead] at h
    exact absurd h (by simp)
  · rw [sweep, Sweep.items_of_ahead_ne_nil hahead] at h
    rw [← Option.some.inj h]
    rfl

/-- The first items end where the next one is, so a sweep from there meets it and those behind. -/
theorem sweep_address {next : Item} (h : (image.sweep start)[count]? = some next) :
    image.sweep next.address = (image.sweep start).drop count := by
  -- a sweep that meets anything meets it first where it starts
  have hstop := sweep_stop image start count
  rw [← List.head?_drop, ← hstop] at h
  rw [address_of_head?_sweep h, hstop]

end Image

/-! ## Reports in two parts -/

namespace CommandLine

theorem readRange_of_ok {first : String} {start : Address} (hstart : readStart first = .ok start) :
    readRange (some first) none = .ok ⟨start, none⟩
      ∧ ∀ (bound : String) (count : Nat), readCount bound = .ok count →
          readRange (some first) (some bound) = .ok ⟨start, some count⟩ := by
  constructor
  · rw [readRange, readFirst, hstart]
    rfl
  · intro bound count hcount
    rw [readRange, readFirst, hstart, readBound, hcount]
    rfl

@[simp] theorem Range.items_none (start : Address) (image : Image) :
    Range.items ⟨start, none⟩ image = image.sweep start := rfl

@[simp] theorem Range.items_some (start : Address) (count : Nat) (image : Image) :
    Range.items ⟨start, some count⟩ image = (image.sweep start).take count := rfl

/-- A row of the table begins with the place of its item. -/
theorem eq_label_of_getElem?_rows {items : List Item} {count : Nat} {label : String}
    {cells : List String} (h : (table items).rows[count]? = some (label :: cells)) :
    ∃ next : Item, items[count]? = some next ∧ label = next.address.text := by
  simp only [table, List.getElem?_map, Option.map_eq_some_iff] at h
  obtain ⟨next, hnext, hrow⟩ := h
  refine ⟨next, hnext, ?_⟩
  unfold row at hrow
  split at hrow <;> exact (List.cons.inj hrow).1.symm

/-- So do the lines on it. -/
theorem liftedLines_eq_cons (item : Item) :
    ∃ (text : String) (lines : List String),
      liftedLines item = (item.address.text ++ "  " ++ text) :: lines := by
  unfold liftedLines
  split
  · exact ⟨_, _, rfl⟩
  · next error _ =>
    have hmark : "  ?? " = "  " ++ "?? " := rfl
    refine ⟨"?? " ++ error.message, [], ?_⟩
    simp only [hmark, String.append_assoc]

theorem table_append (before behind : List Item) :
    (table (before ++ behind)).rows = (table before).rows ++ (table behind).rows :=
  List.map_append

/--
**A sweep can be taken up again at any printed address.**

After any number of items, the sweep goes on as one that starts where these items end. The
text of an aligned address is read back as that address. So a report that is cut short by
a count and a second one that starts at the label of the next row show together what one
report without a count shows: the rows of the tables are the same, and so are the lines of
the lifting reports, of which the second begins with that label.
-/
theorem sweep_resumes (image : Image) :
    (∀ (start : Address) (count : Nat),
      image.sweep start
        = (image.sweep start).take count
          ++ image.sweep (Item.stop start ((image.sweep start).take count)))
    ∧ (∀ address : Address, address.isAligned → address.offset < UInt64.size →
        readStart address.text = .ok address)
    ∧ ∀ (directory : Directory) (input first bound label : String) (cells : List String)
        (start : Address) (count : Nat),
      input.toList.head? ≠ some '-' → directory.readFile input = .ok image →
      image.length ≤ UInt64.size → readStart first = .ok start → readCount bound = .ok count →
      (table (image.sweep start)).rows[count]? = some (label :: cells) →
        ∃ before behind : List Item, image.sweep start = before ++ behind
          ∧ before.length = count
          ∧ (directory.runArguments (reportArguments "disasm" input (some first) (some bound))
              = (.printed (table before).lines, directory)
            ∧ directory.runArguments (reportArguments "disasm" input (some label) none)
              = (.printed (table behind).lines, directory)
            ∧ directory.runArguments (reportArguments "disasm" input (some first) none)
              = (.printed (table (before ++ behind)).lines, directory)
            ∧ (table (before ++ behind)).rows = (table before).rows ++ (table behind).rows)
          ∧ directory.runArguments (reportArguments "lift" input (some first) (some bound))
              = (.printed (before.flatMap liftedLines), directory)
          ∧ directory.runArguments (reportArguments "lift" input (some label) none)
              = (.printed (behind.flatMap liftedLines), directory)
          ∧ directory.runArguments (reportArguments "lift" input (some first) none)
              = (.printed (before.flatMap liftedLines ++ behind.flatMap liftedLines), directory)
          ∧ ∃ (text : String) (lines : List String),
              behind.flatMap liftedLines = (label ++ "  " ++ text) :: lines := by
  refine ⟨fun start count => ?_, fun address => readStart_text, ?_⟩
  · rw [Image.sweep_stop, List.take_append_drop]
  · intro directory input first bound label cells start count hinput hread hlength hstart hcount
      hlabel
    obtain ⟨next, hnext, rfl⟩ := eq_label_of_getElem?_rows hlabel
    obtain ⟨-, hinside, hparity⟩ := Image.of_mem_sweep (List.mem_of_getElem? hnext)
    have hagain : readStart next.address.text = .ok next.address :=
      readStart_text (hparity.trans (readStart_eq_ok_iff.1 hstart).2.2)
        (Nat.lt_of_lt_of_le hinside hlength)
    obtain ⟨hwhole, hbounded⟩ := readRange_of_ok hstart
    have hbefore := hbounded bound count hcount
    have hbehind := (readRange_of_ok hagain).1
    -- the second report is on what the first one has left out
    have hitems : image.sweep start
        = (image.sweep start).take count ++ image.sweep next.address := by
      rw [Image.sweep_address hnext, List.take_append_drop]
    refine ⟨(image.sweep start).take count, image.sweep next.address, hitems, ?_,
      ⟨?_, ?_, ?_, table_append _ _⟩, ?_, ?_, ?_, ?_⟩
    · exact List.length_take_of_le (Nat.le_of_lt (List.getElem?_eq_some_iff.mp hnext).1)
    · rw [runArguments_disasm hinput hread hbefore, Range.items_some]
    · rw [runArguments_disasm hinput hread hbehind, Range.items_none]
    · rw [runArguments_disasm hinput hread hwhole, Range.items_none, ← hitems]
    · rw [runArguments_lift hinput hread hbefore, Range.items_some]
    · rw [runArguments_lift hinput hread hbehind, Range.items_none]
    · rw [runArguments_lift hinput hread hwhole, Range.items_none, ← List.flatMap_append, ← hitems]
    · have hhead : image.sweep next.address = next :: (image.sweep start).drop (count + 1) := by
        obtain ⟨hlt, hget⟩ := List.getElem?_eq_some_iff.mp hnext
        rw [Image.sweep_address hnext, List.drop_eq_getElem_cons hlt, hget]
      obtain ⟨text, lines, htext⟩ := liftedLines_eq_cons next
      exact ⟨text, _, by rw [hhead, List.flatMap_cons, htext, List.cons_append]⟩

/-- The second row is on a word that is no opcode, and its label starts the second report. -/
theorem sweep_resumes_bad_word :
    readStart "0x0002" = .ok ⟨2⟩
    ∧ (Directory.ofFiles [("input", [21, 0, 119, 119, 19, 0, 65, 0])]).runArguments
        ["lift", "input", "--start=0", "--count=1"]
      = (.printed ["0x0000  noop", "          nop"],
          .ofFiles [("input", [21, 0, 119, 119, 19, 0, 65, 0])])
    ∧ (Directory.ofFiles [("input", [21, 0, 119, 119, 19, 0, 65, 0])]).runArguments
        ["lift", "input", "--start=0x0002"]
      = (.printed ["0x0002  ?? 30583 at 0x0002 is not an opcode", "0x0004  out 'A'",
            "          out(0x41)"],
          .ofFiles [("input", [21, 0, 119, 119, 19, 0, 65, 0])])
    ∧ (Directory.ofFiles [("input", [21, 0, 119, 119, 19, 0, 65, 0])]).runArguments
        ["lift", "input", "--start=0"]
      = (.printed ["0x0000  noop", "          nop", "0x0002  ?? 30583 at 0x0002 is not an opcode",
            "0x0004  out 'A'", "          out(0x41)"],
          .ofFiles [("input", [21, 0, 119, 119, 19, 0, 65, 0])]) := by
  have hread : (Directory.ofFiles [("input", [21, 0, 119, 119, 19, 0, 65, 0])]).readFile "input"
      = .ok [21, 0, 119, 119, 19, 0, 65, 0] := by rfl
  have hrow : (table (Image.sweep [21, 0, 119, 119, 19, 0, 65, 0] ⟨0⟩)).rows[1]?
      = some ["0x0002", "", "??", (DecodeError.unknownOpcode ⟨2⟩ 30583).message] := by
    with_unfolding_all rfl
  have hsweep : Image.sweep [21, 0, 119, 119, 19, 0, 65, 0] ⟨0⟩
      = [⟨⟨0⟩, .ok ⟨⟨0⟩, .noop, []⟩⟩]
        ++ [⟨⟨2⟩, .error (.unknownOpcode ⟨2⟩ 30583)⟩,
          ⟨⟨4⟩, .ok ⟨⟨4⟩, .output, [⟨0, .char, 65⟩]⟩⟩] := by
    with_unfolding_all rfl
  obtain ⟨-, htext, hreports⟩ := sweep_resumes [21, 0, 119, 119, 19, 0, 65, 0]
  refine ⟨htext ⟨2⟩ (by decide) (by decide), ?_⟩
  obtain ⟨before, behind, hsplit, hcount, -, hbefore, hbehind, hwhole, -⟩ :=
    hreports _ "input" "0" "1" "0x0002" _ ⟨0⟩ 1 (by decide) hread (by decide) rfl rfl hrow
  -- one item is covered by the first report
  obtain ⟨rfl, rfl⟩ := List.append_inj (hsplit.symm.trans hsweep) hcount
  exact ⟨hbefore.trans (by with_unfolding_all rfl), hbehind.trans (by with_unfolding_all rfl),
    hwhole.trans (by with_unfolding_all rfl)⟩

end CommandLine

end WordMachine
