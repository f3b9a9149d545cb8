import WordMachine.Proofs.FailureReports
import WordMachine.Proofs.LawfulFiles
import WordMachine.Proofs.LineLayout
import WordMachine.Proofs.Reports

/-!
# Assembling is all or nothing

A run of the assembler reads its listing whole, assembles it whole, and writes the image as
its last act. So there are two ways for it to end. Either the listing is there, is text, has
no line that fails, and the image can be written: then the image is in its place, and
nothing is said. Or a step fails: then the files are as they were, whatever had been
assembled by then, and the report names the step. For a listing it names the first line that
fails.

This holds wherever the files are kept, as long as they obey the laws of files.
-/

namespace WordMachine

namespace Assembly

/-! ## The first line that fails -/

/-- The line keeps no listing from being assembled: it is passed over, or assembled itself. -/
def Passes (line : List Char) : Prop := Idle line ∨ ∃ image, assembleLine line = .ok image

/-- The line cannot be assembled, and it is not passed over. -/
def Fails (line : List Char) (cause : LineError) : Prop :=
  ¬ Idle line ∧ assembleLine line = .error cause

/-- The first line that fails has so many lines before it. -/
inductive FailsAt : List (List Char) → Nat → LineError → Prop
  | here {line : List Char} {lines : List (List Char)} {cause : LineError} :
      Fails line cause → FailsAt (line :: lines) 0 cause
  | later {line : List Char} {lines : List (List Char)} {place : Nat} {cause : LineError} :
      Passes line → FailsAt lines place cause → FailsAt (line :: lines) (place + 1) cause

variable {line : List Char} {lines : List (List Char)} {place : Nat} {cause : LineError}

theorem passes_or_fails (line : List Char) : Passes line ∨ ∃ cause, Fails line cause := by
  by_cases hidle : Idle line
  · exact Or.inl (Or.inl hidle)
  · cases hline : assembleLine line with
    | ok image => exact Or.inl (Or.inr ⟨image, hline⟩)
    | error cause => exact Or.inr ⟨cause, hidle, hline⟩

theorem Fails.not_passes (h : Fails line cause) : ¬ Passes line := by
  rintro (hidle | ⟨image, hok⟩)
  · exact h.1 hidle
  · exact absurd (h.2.symm.trans hok) (by simp)

/-- Behind a line that passes the listing goes on. -/
theorem Passes.assembleLines_cons (h : Passes line) (number : Nat) (lines : List (List Char)) :
    ∃ bytes : Image, assembleLines number (line :: lines)
      = (assembleLines (number + 1) lines).map (bytes ++ ·) := by
  rw [Assembly.assembleLines_cons]
  rcases h with hidle | ⟨bytes, hok⟩
  · refine ⟨[], ?_⟩
    rw [outcome_eq_none_iff.2 hidle]
    cases assembleLines (number + 1) lines <;> rfl
  · exact ⟨bytes, by rw [outcome_eq_ok_iff.2 hok]⟩

/-- At a line that fails it ends. -/
theorem Fails.assembleLines_cons (h : Fails line cause) (number : Nat)
    (lines : List (List Char)) : assembleLines number (line :: lines) = .error ⟨number, cause⟩ := by
  have hopen : ¬ isPassedOver line := mt isPassedOver_iff_idle.1 h.1
  rw [assembleLines, if_neg hopen, h.2]

/-- **The first line that fails decides.** By induction on the lines before it. -/
theorem FailsAt.assembleLines_eq (h : FailsAt lines place cause) (number : Nat) :
    assembleLines number lines = .error ⟨number + place, cause⟩ := by
  induction h generalizing number with
  | here hfails => exact hfails.assembleLines_cons number _
  | @later line lines place cause hpasses _ ih =>
    obtain ⟨bytes, hlines⟩ := hpasses.assembleLines_cons number lines
    rw [hlines, ih, Nat.add_assoc, Nat.add_comm 1]
    rfl

/-- Where all lines pass, the listing is assembled. -/
theorem exists_assembleLines_eq_ok (h : ∀ line ∈ lines, Passes line) (number : Nat) :
    ∃ image, assembleLines number lines = .ok image := by
  induction lines generalizing number with
  | nil => exact ⟨[], rfl⟩
  | cons line lines ih =>
    obtain ⟨bytes, hlines⟩ := (h line List.mem_cons_self).assembleLines_cons number lines
    obtain ⟨image, hrest⟩ := ih (fun other hother => h other (List.mem_cons_of_mem _ hother))
      (number + 1)
    rw [hlines, hrest]
    exact ⟨_, rfl⟩

/-- Where not all lines pass, there is a first one that fails. -/
theorem passes_or_failsAt (lines : List (List Char)) :
    (∀ line ∈ lines, Passes line) ∨ ∃ place cause, FailsAt lines place cause := by
  induction lines with
  | nil => exact Or.inl (by simp)
  | cons line lines ih =>
    rcases passes_or_fails line with hpasses | ⟨cause, hfails⟩
    · rcases ih with hall | ⟨place, cause, hlater⟩
      · exact Or.inl (List.forall_mem_cons.2 ⟨hpasses, hall⟩)
      · exact Or.inr ⟨place + 1, cause, .later hpasses hlater⟩
    · exact Or.inr ⟨0, cause, .here hfails⟩

end Assembly

namespace CommandLine

/-! ## Text in files -/

/-- The bytes of a text in UTF-8. -/
def utf8 (text : String) : Image := text.toUTF8.data.toList

/-- A file holds text if its bytes are those of a text. -/
theorem textOf?_eq_some_iff {contents : Image} {text : String} :
    textOf? contents = some text ↔ contents = utf8 text := by
  rw [textOf?, String.fromUTF8?]
  constructor
  · intro h
    split at h
    · obtain rfl := Option.some.inj h
      rfl
    · exact absurd h (by simp)
  · rintro rfl
    exact dif_pos text.isValidUTF8

/-! ## Runs of the assembler -/

open Files (readIn writeIn)
open LawfulFiles (name? contents?)

section

variable {σ : Type} [Files (StateM σ)] {state : σ} {input output : String}

/-- All that a run needs to succeed: the listing can be read and is text, the text is assembled to
the image, and the image can be written. -/
structure Assembles (state : σ) (input output text : String) (image : Image) : Prop where
  read_eq : readIn state input = .ok (utf8 text)
  assembleProgram_eq : Assembly.assembleProgram text = .ok image
  write_eq : (writeIn state output image).1 = .ok ()

/-- A run of the assembler on files kept in a state. -/
def assemble (state : σ) (input output : String) : Ending × σ :=
  StateT.run (Command.run (.assemble input output) : StateM σ Ending) state

theorem assembleContents_utf8 (input text : String) :
    assembleContents input (utf8 text)
      = (Assembly.assembleProgram text).mapError (.assembly input) := by
  rw [assembleContents, textOf?_eq_some_iff.2 rfl]

theorem exists_text_of_assembleContents {contents image : Image}
    (h : assembleContents input contents = .ok image) :
    ∃ text, contents = utf8 text ∧ Assembly.assembleProgram text = .ok image := by
  unfold assembleContents at h
  split at h
  · exact absurd h (by simp)
  · next text htext =>
    refine ⟨text, textOf?_eq_some_iff.1 htext, ?_⟩
    cases hprogram : Assembly.assembleProgram text with
    | error error => exact absurd h (by simp [hprogram, Except.mapError])
    | ok assembled =>
      rw [hprogram] at h
      exact congrArg Except.ok (Except.ok.inj h)

theorem Assembles.writeIn_eq {text : String} {image : Image}
    (h : Assembles state input output text image) :
    writeIn state output image = (.ok (), (writeIn state output image).2) :=
  Prod.ext h.write_eq rfl

variable [LawfulFiles σ]

/-- A run of the assembler goes on with what is in the file. -/
theorem assemble_eq (state : σ) (input output : String) :
    assemble state input output =
      match readIn state input with
      | .error error => (⟨.error (.read input error), []⟩, state)
      | .ok contents =>
        match assembleContents input contents with
        | .error failure => (⟨.error failure, failure.records⟩, state)
        | .ok image =>
          match (writeIn state output image).1 with
          | .error error =>
            (⟨.error (.write output error), []⟩, (writeIn state output image).2)
          | .ok () =>
            (⟨.ok "", [.written image.length output]⟩, (writeIn state output image).2) := by
  rw [assemble, Command.run, LawfulFiles.run_read_bind]
  cases readIn state input with
  | error error => rfl
  | ok contents =>
    dsimp only
    cases assembleContents input contents with
    | error failure => rfl
    | ok image =>
      dsimp only
      rw [Files.run_write_bind]
      cases (writeIn state output image).1 <;> rfl

/-- With all that it needs a run says nothing and leaves the files written to. -/
theorem Assembles.assemble_eq {text : String} {image : Image}
    (h : Assembles state input output text image) :
    assemble state input output
      = (⟨.ok "", [.written image.length output]⟩, (writeIn state output image).2) := by
  rw [CommandLine.assemble_eq, h.read_eq]
  dsimp only
  rw [assembleContents_utf8, h.assembleProgram_eq]
  dsimp only [Except.mapError]
  rw [h.write_eq]

/-- **All or nothing.** A run has all that it needs, or it fails and leaves the files alone. -/
theorem assemble_cases (state : σ) (input output : String) :
    (∃ text image, Assembles state input output text image)
      ∨ ∃ failure records, assemble state input output = (⟨.error failure, records⟩, state) := by
  rw [assemble_eq]
  cases hread : readIn state input with
  | error error => exact Or.inr ⟨_, _, rfl⟩
  | ok contents =>
    dsimp only
    cases hcontents : assembleContents input contents with
    | error failure => exact Or.inr ⟨_, _, rfl⟩
    | ok image =>
      dsimp only
      obtain ⟨text, rfl, hprogram⟩ := exists_text_of_assembleContents hcontents
      cases hwrite : (writeIn state output image).1 with
      | error error =>
        have hsame : (writeIn state output image).2 = state :=
          LawfulFiles.write_error (Prod.ext hwrite rfl)
        rw [hsame]
        exact Or.inr ⟨_, _, rfl⟩
      | ok done => exact Or.inl ⟨text, image, hread, hprogram, hwrite⟩

/-- A listing with a line that fails is reported with the number of the first such line. -/
theorem assemble_of_failsAt {text : String} {place : Nat} {cause : Assembly.LineError}
    (hread : readIn state input = .ok (utf8 text))
    (h : Assembly.FailsAt (Text.lines text) place cause) :
    assemble state input output
      = (⟨.error (.assembly input ⟨place + 1, cause⟩), [.unassembled ⟨place + 1, cause⟩]⟩,
          state) := by
  have hprogram : Assembly.assembleProgram text = .error ⟨place + 1, cause⟩ := by
    rw [Assembly.assembleProgram, h.assembleLines_eq, Nat.add_comm]
  rw [assemble_eq, hread]
  dsimp only
  rw [assembleContents_utf8, hprogram]
  rfl

end

/-! ## Arguments -/

section

variable {input output : String}

/-- The arguments of a run of the assembler. -/
theorem Invocation.ofArguments_asm (hinput : input.toList.head? ≠ some '-') (hne : input ≠ "")
    (houtput : output.toList.head? ≠ some '-') (hne' : output ≠ "") :
    ofArguments ["asm", input, "-o", output] = .ok ⟨.assemble input output, false⟩ := by
  have hoption : Argument.ofText (.command .assemble) "-o" = [.valued .output none] := rfl
  have htexts : Argument.ofTexts (.command .assemble) [input, "-o", output]
      = [.plain input, .valued .output none, .plain output] := by
    rw [Argument.ofTexts_cons_of_plain hinput, Argument.ofTexts_cons (by decide), hoption,
      Argument.ofTexts_cons_of_plain houtput]
    rfl
  have hinput' : Given.settle .nothing .assemble (.input input)
      = .ok ⟨some input, none, none, none, false⟩ := by
    have hsome : input.isEmpty = false := by simpa using hne
    simp [Given.settle, Given.nothing, hsome]
  have houtput' : Given.settle ⟨some input, none, none, none, false⟩ .assemble
      (.option .output (some output)) = .ok ⟨some input, none, none, some output, false⟩ := by
    have hsome : output.isEmpty = false := by simpa using hne'
    simp [Given.settle, Given.set, hsome]
  rw [ofArguments_cons rfl, htexts]
  change (Given.settle .nothing .assemble (.input input)).bind _ = _
  rw [hinput']
  change (Given.settle ⟨some input, none, none, none, false⟩ .assemble
    (.option .output (some output))).bind _ = _
  rw [houtput']
  rfl

/-- They make a run of the assembler, which shows no log. -/
theorem run_asm {σ : Type} [Files (StateM σ)] [Log (StateM σ)] (state : σ)
    (hinput : input.toList.head? ≠ some '-') (hne : input ≠ "")
    (houtput : output.toList.head? ≠ some '-') (hne' : output ≠ "") :
    StateT.run (run ["asm", input, "-o", output] : StateM σ Outcome) state
      = StateT.run (Invocation.run ⟨.assemble input output, false⟩) state := by
  rw [run, Invocation.ofArguments_asm hinput hne houtput hne']

/--
**Assembling is all or nothing.**

A run of the assembler exits with zero exactly if the listing can be read and is text in
UTF-8, the text is assembled, and the image can be written. Then it prints nothing, the path
of the output leads to a file that holds the image, and no other file has changed. In every
other case the exit code is one, nothing is printed but the report, and the files are as
they were. It is the run that `asm` with both paths asks for, if these have characters and do
not look like options.

Where the text cannot be assembled the report names the first line that fails and repeats
the reason on its own. So does any other report that shows the causes of a failure. A line
that fails is enough for nothing to be written, whatever the lines before it are assembled
to.
-/
theorem assemble_all_or_nothing {σ : Type} [Files (StateM σ)] [LawfulFiles σ] [Log (StateM σ)]
    (state : σ) (input output : String) :
    Failure.ShowsCauses Failure.report
    ∧ ∃ (outcome : Outcome) (after : σ),
      StateT.run (Invocation.run ⟨.assemble input output, false⟩ : StateM σ Outcome) state
        = (outcome, after)
      ∧ (input.toList.head? ≠ some '-' → input ≠ "" → output.toList.head? ≠ some '-' →
          output ≠ "" →
            StateT.run (run ["asm", input, "-o", output] : StateM σ Outcome) state
              = (outcome, after))
      ∧ (outcome.exitCode = 0 ↔ ∃ text image, Assembles state input output text image)
      ∧ (∀ text image, Assembles state input output text image →
          outcome.stdout = "" ∧ outcome.stderr = ""
            ∧ (∀ found, readIn after output = .ok found → found = image)
            ∧ ∃ name, name? after output = some name ∧ contents? after name = some image
                ∧ ∀ other, other ≠ name → contents? after other = contents? state other)
      ∧ (outcome.exitCode ≠ 0 →
          outcome.exitCode = 1 ∧ outcome.stdout = "" ∧ after = state)
      ∧ (∀ text, readIn state input = .ok (utf8 text) →
          (∀ image, Assembly.assembleProgram text ≠ .ok image) →
            ∃ (place : Nat) (cause : Assembly.LineError),
              Assembly.FailsAt (Text.lines text) place cause
              ∧ outcome.stderr = (Failure.assembly input ⟨place + 1, cause⟩).report
              ∧ outcome.stderr
                = Text.unlines ["Error: failed to assemble " ++ input, "", "Caused by:",
                    "    0: Error on line " ++ Numeral.decimal (place + 1) ++ ": "
                      ++ cause.message,
                    "    1: " ++ cause.message]
              ∧ ∀ report : Failure → String, Failure.ShowsCauses report →
                  Text.OccurInOrder
                    ["failed to assemble " ++ input,
                      "Error on line " ++ Numeral.decimal (place + 1) ++ ": " ++ cause.message,
                      cause.message]
                    (report (.assembly input ⟨place + 1, cause⟩)).toList)
      ∧ ∀ text, readIn state input = .ok (utf8 text) →
          (∃ line ∈ Text.lines text, ∃ cause, Assembly.Fails line cause) →
            outcome.exitCode = 1 ∧ after = state := by
  have hrun : StateT.run (Invocation.run ⟨.assemble input output, false⟩ : StateM σ Outcome) state
      = (.ofResult [] (assemble state input output).1.result, (assemble state input output).2) :=
    Invocation.run_silent rfl
  refine ⟨Failure.showsCauses_report, _, _, hrun, ?_, ?_, ?_, ?_, ?_, ?_⟩
  · exact fun hinput hne houtput hne' => (run_asm state hinput hne houtput hne').trans hrun
  · constructor
    · intro hzero
      rcases assemble_cases state input output with hall | ⟨failure, records, hfailed⟩
      · exact hall
      · rw [hfailed] at hzero
        exact absurd hzero (by simp [Outcome.ofResult])
    · rintro ⟨text, image, hall⟩
      rw [hall.assemble_eq]
      rfl
  · intro text image hall
    rw [hall.assemble_eq]
    exact ⟨rfl, rfl, fun found hfound => LawfulFiles.eq_of_readIn_of_writeIn hall.writeIn_eq hfound,
      LawfulFiles.write_ok hall.writeIn_eq⟩
  · intro hcode
    rcases assemble_cases state input output with ⟨text, image, hall⟩ | ⟨failure, records, hfailed⟩
    · rw [hall.assemble_eq] at hcode
      exact absurd rfl hcode
    · rw [hfailed]
      exact ⟨rfl, rfl, rfl⟩
  · intro text hread hrejected
    rcases Assembly.passes_or_failsAt (Text.lines text) with hall | ⟨place, cause, hplace⟩
    · obtain ⟨image, hok⟩ := Assembly.exists_assembleLines_eq_ok hall 1
      exact absurd hok (hrejected image)
    · have hstderr : (Outcome.ofResult [] (assemble state input output).1.result).stderr
          = (Failure.assembly input ⟨place + 1, cause⟩).report := by
        rw [assemble_of_failsAt hread hplace]
        exact String.empty_append
      exact ⟨place, cause, hplace, hstderr, hstderr.trans (Failure.report_assembly _ _ _),
        fun report hreport => hreport _⟩
  · rintro text hread ⟨line, hmem, cause, hfails⟩
    rcases Assembly.passes_or_failsAt (Text.lines text) with hall | ⟨place, cause, hplace⟩
    · exact absurd (hall line hmem) hfails.not_passes
    · rw [assemble_of_failsAt hread hplace]
      exact ⟨rfl, rfl⟩

end

/-- The last line of a listing fails, and what the first one is assembled to is not written. Without
the last line it is. It is not written where the path of the output leads nowhere. -/
theorem assemble_all_or_nothing_last_line :
    (∃ outcome : Outcome,
      StateT.run (run ["asm", "listing", "-o", "image"] : StateM Directory Outcome)
          (.ofFiles [("listing", utf8 "noop\njmp 3")])
        = (outcome, .ofFiles [("listing", utf8 "noop\njmp 3")])
      ∧ outcome.exitCode = 1 ∧ outcome.stdout = ""
      ∧ outcome.stderr = Text.unlines ["Error: failed to assemble listing", "", "Caused by:",
          "    0: Error on line 2: operand 0: address 0x3 is not word aligned",
          "    1: operand 0: address 0x3 is not word aligned"])
    ∧ (∃ (outcome : Outcome) (after : Directory),
      StateT.run (run ["asm", "listing", "-o", "image"] : StateM Directory Outcome)
          (.ofFiles [("listing", utf8 "noop")]) = (outcome, after)
      ∧ outcome.exitCode = 0 ∧ outcome.stdout = "" ∧ outcome.stderr = ""
      ∧ after.get? "image" = some [21, 0] ∧ after.get? "listing" = some (utf8 "noop"))
    ∧ ∃ outcome : Outcome,
      StateT.run (run ["asm", "listing", "-o", "no/image"] : StateM Directory Outcome)
          (.ofFiles [("listing", utf8 "noop")])
        = (outcome, .ofFiles [("listing", utf8 "noop")])
      ∧ outcome.exitCode = 1 := by
  refine ⟨?_, ?_, ?_⟩
  · have hread : readIn (Directory.ofFiles [("listing", utf8 "noop\njmp 3")]) "listing"
        = .ok (utf8 "noop\njmp 3") := by rfl
    have hprogram : Assembly.assembleProgram "noop\njmp 3"
        = .error ⟨2, .misalignedAddress 0 3⟩ := by
      with_unfolding_all rfl
    have hidle : ¬ Assembly.Idle "jmp 3".toList :=
      mt Assembly.isPassedOver_iff_idle.2 (by decide)
    obtain ⟨-, outcome, after, -, hasked, -, -, hfailed, hreport, hunwritten⟩ :=
      assemble_all_or_nothing (Directory.ofFiles [("listing", utf8 "noop\njmp 3")]) "listing"
        "image"
    have hrun := hasked (by decide) (by decide) (by decide) (by decide)
    obtain ⟨hcode, rfl⟩ := hunwritten _ hread
      ⟨"jmp 3".toList, by decide, .misalignedAddress 0 3, hidle, by with_unfolding_all rfl⟩
    obtain ⟨place, cause, hplace, -, hstderr, -⟩ :=
      hreport _ hread fun image hok => absurd (hprogram.symm.trans hok) (by simp)
    have herror := (hplace.assembleLines_eq 1).symm.trans hprogram
    obtain ⟨hline, rfl⟩ := Assembly.ProgramError.mk.inj (Except.error.inj herror)
    obtain rfl : place = 1 := by omega
    refine ⟨outcome, hrun, hcode, (hfailed ?_).2.1, hstderr.trans rfl⟩
    rw [hcode]
    decide
  · have hall : Assembles (Directory.ofFiles [("listing", utf8 "noop")]) "listing" "image" "noop"
        [21, 0] := ⟨by rfl, by with_unfolding_all rfl, by rfl⟩
    obtain ⟨-, outcome, after, -, hasked, hzero, hwritten, -⟩ :=
      assemble_all_or_nothing (Directory.ofFiles [("listing", utf8 "noop")]) "listing" "image"
    have hrun := hasked (by decide) (by decide) (by decide) (by decide)
    obtain ⟨hstdout, hstderr, -, name, hname, himage, hothers⟩ := hwritten _ _ hall
    have hplace : (Directory.ofFiles [("listing", utf8 "noop")]).place "image"
        = .ok (.file "image") := by rfl
    obtain rfl : "image" = name := Option.some.inj
      ((Directory.nameOf?_eq_some (Directory.place_eq_ok hplace after)).symm.trans hname)
    exact ⟨outcome, after, hrun, hzero.2 ⟨_, _, hall⟩, hstdout, hstderr, himage,
      hothers "listing" (by decide)⟩
  · obtain ⟨-, outcome, after, -, hasked, hzero, -, hfailed, -⟩ :=
      assemble_all_or_nothing (Directory.ofFiles [("listing", utf8 "noop")]) "listing" "no/image"
    have hrun := hasked (by decide) (by decide) (by decide) (by decide)
    have hcode : outcome.exitCode ≠ 0 := by
      rw [Ne, hzero]
      rintro ⟨text, image, hall⟩
      have hrefused : (writeIn (Directory.ofFiles [("listing", utf8 "noop")]) "no/image" image).1
          = .error .notFound := by rfl
      exact absurd (hrefused.symm.trans hall.write_eq) (by simp)
    obtain ⟨hone, -, rfl⟩ := hfailed hcode
    exact ⟨outcome, hrun, hone⟩

end CommandLine

end WordMachine
