import WordMachine.CommandLine.Run
import WordMachine.Proofs.Spelling

/-!
# Runs of the reports

The two commands that report on an image take the same options. What the texts of these
denote is the range of the report, and the start is read before the count. On a directory
that holds the image a run prints the items of the range, as rows of a table or as lines,
and leaves the directory as it is.

An address as it is printed is a text that the option for the start takes back.

None of these runs shows a log. A request for the log would add its lines and change nothing
else.
-/

namespace WordMachine.CommandLine

/-! ## Printed addresses -/

/-- **A printed address is read back**, if it is aligned and below the limit of the option. -/
theorem readStart_text {address : Address} (haligned : address.isAligned)
    (hlimit : address.offset < sizeLimit) : readStart address.text = .ok address := by
  obtain ⟨zeros, htext⟩ := address.toList_text
  have hread : readOffset address.text = .ok address.offset := by
    simp only [readOffset, htext, Numeral.read_zeros_upperHex zeros hlimit]
  rw [readStart, hread]
  exact if_pos haligned

/-! ## What the options ask for -/

/-- The start that is given, if one is. -/
def readFirst : Option String → Except UsageError (Option Address)
  | none => .ok none
  | some text => ((readStart text).mapError (.invalidStart text)).map some

/-- The count that is given, if one is. -/
def readBound : Option String → Except UsageError (Option Nat)
  | none => .ok none
  | some text => ((readCount text).mapError (.invalidCount text)).map some

/-- The range that the texts of the options denote. -/
def readRange (start count : Option String) : Except UsageError Range := do
  let first ← readFirst start
  let bound ← readBound count
  return ⟨first.getD ⟨0⟩, bound⟩

/-- The options with these texts, as they are written. -/
def rangeOptions (start count : Option String) : List String :=
  (start.map ("--start=" ++ ·)).toList ++ (count.map ("--count=" ++ ·)).toList

/-- A report on an image: the name of the command, the input, and the options that are given. -/
def reportArguments (name input : String) (start count : Option String) : List String :=
  name :: input :: rangeOptions start count

namespace Argument

variable {scope : Scope}

/-- The options with these texts by their form. -/
def ofRange (start count : Option String) : List Argument :=
  (start.map fun text => valued .start (some text)).toList
    ++ (count.map fun text => valued .count (some text)).toList

theorem ofText_of_plain {text : String} (h : text.toList.head? ≠ some '-') :
    ofText scope text = [.plain text] := by
  unfold ofText
  split
  · next htext => exact absurd (congrArg List.head? htext) h
  · next htext => exact absurd (congrArg List.head? htext) h
  · rfl

theorem ofText_start (h : scope.keys = [.start, .count]) (value : String) :
    ofText scope ("--start=" ++ value) = [.valued .start (some value)] := by
  simp [ofText, ofLong, valueAfterEquals?, h, Key.name]

theorem ofText_count (h : scope.keys = [.start, .count]) (value : String) :
    ofText scope ("--count=" ++ value) = [.valued .count (some value)] := by
  simp [ofText, ofLong, valueAfterEquals?, h, Key.name]

theorem ofTexts_cons {text : String} (h : text ≠ "--") (texts : List String) :
    ofTexts scope (text :: texts) = ofText scope text ++ ofTexts scope texts := by
  rw [ofTexts]
  exact h

/-- A text that does not begin with a dash stands for itself. -/
theorem ofTexts_cons_of_plain {text : String} (h : text.toList.head? ≠ some '-')
    (texts : List String) : ofTexts scope (text :: texts) = .plain text :: ofTexts scope texts := by
  have hdashes : text ≠ "--" := by
    rintro rfl
    exact h rfl
  rw [ofTexts_cons hdashes, ofText_of_plain h, List.singleton_append]

theorem ofTexts_rangeOptions (h : scope.keys = [.start, .count]) (start count : Option String) :
    ofTexts scope (rangeOptions start count) = ofRange start count := by
  -- an option is longer than the two dashes that end the options
  have hlong : ∀ option value : String, 2 < option.toList.length → option ++ value ≠ "--" := by
    intro option value hoption heq
    have hlength := congrArg (fun text : String => text.toList.length) heq
    simp at hlength
    omega
  cases start <;> cases count <;>
    simp [rangeOptions, ofRange, ofTexts_cons, hlong, ofText_start h, ofText_count h, ofTexts]

/-- Behind an option with its value, or at the end, nothing is pending. -/
theorem exists_valued_of_mem_head?_ofRange {start count : Option String} {argument : Argument}
    (h : argument ∈ (ofRange start count).head?) :
    ∃ key value, argument = .valued key (some value) := by
  cases start with
  | some text => exact ⟨.start, text, (Option.some.inj h).symm⟩
  | none =>
    cases count with
    | some text => exact ⟨.count, text, (Option.some.inj h).symm⟩
    | none => exact absurd h (by simp [ofRange])

end Argument

/-- The first start that is given is taken if it can be read. -/
theorem Given.set_start {given : Given} (h : given.start = none) (text : String) :
    given.set .start text
      = (readFirst (some text)).map fun first => { given with start := first } := by
  simp only [set, h, Option.isSome_none, Bool.false_eq_true, if_false, readFirst]
  cases readStart text <;> rfl

/-- So is the first count. -/
theorem Given.set_count {given : Given} (h : given.count = none) (text : String) :
    given.set .count text
      = (readBound (some text)).map fun bound => { given with count := bound } := by
  simp only [set, h, Option.isSome_none, Bool.false_eq_true, if_false, readBound]
  cases readCount text <;> rfl

namespace Invocation

variable {verb : Verb} {given settled : Given} {pending : Pending}

/-- What is pending is taken before an option with its value, and at the end. -/
theorem ofGiven_settle (hsettled : given.settle verb pending = .ok settled)
    {arguments : List Argument}
    (h : ∀ argument ∈ arguments.head?, ∃ key value, argument = .valued key (some value)) :
    ofGiven verb given pending arguments = ofGiven verb settled .nothing arguments := by
  cases arguments with
  | nil =>
    rw [ofGiven, hsettled]
    rfl
  | cons argument rest =>
    obtain ⟨key, value, rfl⟩ := h argument rfl
    rw [ofGiven, hsettled]
    rfl

theorem ofGiven_start (h : given.start = none) (start : Option String) (rest : List Argument) :
    ofGiven verb given .nothing
        ((start.map fun text => Argument.valued .start (some text)).toList ++ rest)
      = (readFirst start).bind fun first =>
          ofGiven verb { given with start := first } .nothing rest := by
  cases start with
  | none =>
    obtain ⟨input, first, count, output, verbose⟩ := given
    obtain rfl : first = none := h
    rfl
  | some text =>
    rw [Option.map_some, Option.toList_some, List.singleton_append, ofGiven]
    change (given.set .start text).bind _ = _
    rw [Given.set_start h]
    cases readFirst (some text) <;> rfl

theorem ofGiven_count (h : given.count = none) (count : Option String) :
    ofGiven verb given .nothing
        (count.map fun text => Argument.valued .count (some text)).toList
      = (readBound count).bind fun bound =>
          ofGiven verb { given with count := bound } .nothing [] := by
  cases count with
  | none =>
    obtain ⟨input, first, count, output, verbose⟩ := given
    obtain rfl : count = none := h
    rfl
  | some text =>
    rw [Option.map_some, Option.toList_some, ofGiven]
    change (given.set .count text).bind _ = _
    rw [Given.set_count h]
    cases readBound (some text) <;> rfl

/-- The command may be the first argument. Then what is given for it comes next. -/
theorem ofArguments_cons {name : String} (h : Verb.ofName? name = some verb)
    (texts : List String) :
    ofArguments (name :: texts)
      = ofGiven verb .nothing .nothing (Argument.ofTexts (.command verb) texts) := by
  have hname : ofArguments (name :: texts) = (ofName name texts).bind fun invocation =>
      .ok { invocation with verbose := invocation.verbose || false } := by
    unfold Verb.ofName? at h
    split at h
    · rfl
    · rfl
    · rfl
    · exact absurd h (by simp)
  have hgiven : ofName name texts
      = ofGiven verb .nothing .nothing (Argument.ofTexts (.command verb) texts) := by
    rw [ofName, h]
  rw [hname, hgiven]
  cases ofGiven verb .nothing .nothing (Argument.ofTexts (.command verb) texts) with
  | error error => rfl
  | ok invocation => exact congrArg Except.ok (by rw [Bool.or_false])

/-- What a plain input in front comes to. It is taken when the next option is met. -/
theorem ofGiven_input {input : String} (hne : input ≠ "") {arguments : List Argument}
    (h : ∀ argument ∈ arguments.head?, ∃ key value, argument = .valued key (some value)) :
    ofGiven verb .nothing .nothing (.plain input :: arguments)
      = ofGiven verb { Given.nothing with input := some input } .nothing arguments := by
  have hsettled : Given.nothing.settle verb (.input input)
      = .ok { Given.nothing with input := some input } := by
    have hsome : input.isEmpty = false := by simpa using hne
    simp [Given.settle, hsome]
  rw [← ofGiven_settle hsettled h]
  rfl

/-- The command that the arguments of a report make. It is the first text that cannot be read which
decides if there is none. -/
theorem ofArguments_report {name input : String} {make : Range → Command}
    (hname : Verb.ofName? name = some verb) (hkeys : Scope.keys (.command verb) = [.start, .count])
    (hmake : ∀ first bound, Given.command ⟨some input, first, bound, none, false⟩ verb
      = .ok (make ⟨first.getD ⟨0⟩, bound⟩))
    (hinput : input.toList.head? ≠ some '-') (hne : input ≠ "") (start count : Option String) :
    ofArguments (reportArguments name input start count)
      = (readRange start count).map fun range => ⟨make range, false⟩ := by
  rw [reportArguments, ofArguments_cons hname, Argument.ofTexts_cons_of_plain hinput,
    Argument.ofTexts_rangeOptions hkeys,
    ofGiven_input hne fun argument => Argument.exists_valued_of_mem_head?_ofRange,
    Argument.ofRange, ofGiven_start rfl, readRange]
  -- a start that cannot be read is reported whatever the count is
  cases readFirst start with
  | error error => rfl
  | ok first =>
    change ofGiven verb ⟨some input, first, none, none, false⟩ .nothing _ = _
    rw [ofGiven_count rfl]
    cases readBound count with
    | error error => rfl
    | ok bound =>
      change (Given.command ⟨some input, first, bound, none, false⟩ verb).bind _ = _
      rw [hmake]
      rfl

theorem ofArguments_disasm {input : String} (hinput : input.toList.head? ≠ some '-')
    (hne : input ≠ "") (start count : Option String) :
    ofArguments (reportArguments "disasm" input start count)
      = (readRange start count).map fun range => ⟨.disassemble input range, false⟩ :=
  ofArguments_report rfl rfl (fun _ _ => rfl) hinput hne start count

theorem ofArguments_lift {input : String} (hinput : input.toList.head? ≠ some '-')
    (hne : input ≠ "") (start count : Option String) :
    ofArguments (reportArguments "lift" input start count)
      = (readRange start count).map fun range => ⟨.lift input range, false⟩ :=
  ofArguments_report rfl rfl (fun _ _ => rfl) hinput hne start count

end Invocation

/-! ## Runs on files kept in a state -/

/-- The lines of the log stand in front of what else there is to say. -/
theorem Outcome.ofResult_eq (lines : List String) (result : Except Failure String) :
    ofResult lines result
      = { ofResult [] result with stderr := String.join lines ++ (ofResult [] result).stderr } := by
  cases result with
  | ok output => exact congrArg (Outcome.mk 0 output) String.append_empty.symm
  | error failure =>
    have hreport : String.join [] ++ failure.report = failure.report := String.empty_append
    exact congrArg (fun report => Outcome.mk 1 "" (String.join lines ++ report)) hreport.symm

section

variable {σ : Type} [Files (StateM σ)] [Log (StateM σ)] {command : Command} {ending : Ending}
  {state after : σ}

/-- Without a request for the log nothing stands before the report. -/
theorem Invocation.run_silent
    (hrun : StateT.run (command.run : StateM σ Ending) state = (ending, after)) :
    StateT.run (Invocation.run ⟨command, false⟩ : StateM σ Outcome) state
      = (.ofResult [] ending.result, after) := by
  rw [Invocation.run, StateT.run_bind]
  change (StateT.run (command.run : StateM σ Ending) state >>= fun ran =>
    (pure (Outcome.ofResult [] ran.1.result, ran.2) : Id _)) = _
  rw [hrun]
  rfl

/-- Arguments that ask for a command, and not for the log, run the command. -/
theorem run_of_run {arguments : List String}
    (hcommand : Invocation.ofArguments arguments = .ok ⟨command, false⟩)
    (hrun : StateT.run (command.run : StateM σ Ending) state = (ending, after)) :
    StateT.run (run arguments : StateM σ Outcome) state
      = (.ofResult [] ending.result, after) := by
  rw [run, hcommand]
  exact Invocation.run_silent hrun

end

namespace Directory

variable (directory : Directory)

/-- A run on a directory kept as a value: what it leaves for its caller, and the directory. -/
def runArguments (arguments : List String) : Outcome × Directory :=
  StateT.run (run arguments : StateM Directory Outcome) directory

/-- The lines of records. -/
theorem run_lines (records : List Record) :
    StateT.run (records.mapM Log.line : StateM Directory (List String)) directory
      = (records.map directory.logLine, directory) := by
  induction records with
  | nil => rfl
  | cons record records ih =>
    rw [List.mapM_cons, StateT.run_bind]
    change StateT.run (do
        let rest ← (records.mapM Log.line : StateM Directory (List String))
        pure (directory.logLine record :: rest)) directory = _
    rw [StateT.run_bind, ih]
    rfl

/-- **The log is all that a request for it adds.** The exit code, what is printed and the directory
are those of the run without it. -/
theorem run_verbose {command : Command} {outcome : Outcome} {after : Directory}
    (hrun : StateT.run (Invocation.run ⟨command, false⟩ : StateM Directory Outcome) directory
      = (outcome, after)) :
    ∃ lines : List String,
      StateT.run (Invocation.run ⟨command, true⟩ : StateM Directory Outcome) directory
        = ({ outcome with stderr := String.join lines ++ outcome.stderr }, after) := by
  obtain ⟨ending, left, hending⟩ : ∃ ending left,
      StateT.run (command.run : StateM Directory Ending) directory = (ending, left) := ⟨_, _, rfl⟩
  rw [Invocation.run_silent hending] at hrun
  obtain ⟨rfl, rfl⟩ := Prod.mk.inj hrun
  refine ⟨ending.records.map left.logLine, ?_⟩
  rw [Invocation.run, StateT.run_bind, hending, ← Outcome.ofResult_eq]
  change StateT.run (do
      let lines ← (ending.records.mapM Log.line : StateM Directory (List String))
      pure (Outcome.ofResult lines ending.result)) left = _
  rw [StateT.run_bind, run_lines]
  rfl

theorem readFile_empty : directory.readFile "" = .error .notFound := rfl

end Directory

/-! ## What is printed -/

/-- A run that succeeds and prints these lines and nothing else. -/
def Outcome.printed (lines : List String) : Outcome := ⟨0, Text.unlines lines, ""⟩

section

variable {directory : Directory} {input : String} {image : Image} {start count : Option String}
  {range : Range}

theorem run_read (path : String) (directory : Directory) :
    StateT.run (Files.read path : StateM Directory (Except FileError Image)) directory
      = (directory.readFile path, directory) := rfl

/-- A path that leads to a file has characters. -/
theorem ne_empty_of_readFile (hread : directory.readFile input = .ok image) : input ≠ "" := by
  rintro rfl
  rw [directory.readFile_empty] at hread
  exact absurd hread (by simp)

/-- **The table report prints the table of the items in its range.** -/
theorem runArguments_disasm (hinput : input.toList.head? ≠ some '-')
    (hread : directory.readFile input = .ok image) (hrange : readRange start count = .ok range) :
    directory.runArguments (reportArguments "disasm" input start count)
      = (.printed (table (range.items image)).lines, directory) := by
  have hcommand := Invocation.ofArguments_disasm hinput (ne_empty_of_readFile hread) start count
  rw [hrange] at hcommand
  have hrun : StateT.run (Command.run (.disassemble input range) : StateM Directory Ending)
      directory = (⟨.ok (Text.unlines (disassemblyLines image range)),
        (range.items image).flatMap sweepRecords⟩, directory) := by
    simp only [Command.run, StateT.run_bind, run_read, hread]
    rfl
  exact run_of_run hcommand hrun

/-- **The lifting report prints the lines on the items in its range.** -/
theorem runArguments_lift (hinput : input.toList.head? ≠ some '-')
    (hread : directory.readFile input = .ok image) (hrange : readRange start count = .ok range) :
    directory.runArguments (reportArguments "lift" input start count)
      = (.printed ((range.items image).flatMap liftedLines), directory) := by
  have hcommand := Invocation.ofArguments_lift hinput (ne_empty_of_readFile hread) start count
  rw [hrange] at hcommand
  have hrun : StateT.run (Command.run (.lift input range) : StateM Directory Ending)
      directory = (⟨.ok (Text.unlines (liftingLines image range)),
        (range.items image).flatMap liftingRecords⟩, directory) := by
    simp only [Command.run, StateT.run_bind, run_read, hread]
    rfl
  exact run_of_run hcommand hrun

end

end WordMachine.CommandLine
