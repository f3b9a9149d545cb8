import WordMachine.Proofs.LineLayout

/-!
# The layout of a listing does not matter

A listing is laid out anew by an edit for each line of the new one: the line is new and
passed over, or it stands for a line of the old listing and differs from it in blanks at its
ends and in a comment. What each line comes to is the same as before, so the listing comes
to the same bytes. An error is found on the line that stands for the one it was found on. Its
number has grown by the number of new lines in front of it and by nothing else, since each
other line in front stands for one of the old lines there.
-/

namespace WordMachine.Assembly

/-! ## Edits -/

/-- One line laid out anew: with blanks at its ends, or trimmed and with a comment behind it, if it
can be assembled or is passed over, or with several such changes one after the other. -/
inductive Relaid : List Char → List Char → Prop
  | padded {front line back : List Char} : (∀ c ∈ front, Text.isBlank c) →
      (∀ c ∈ back, Text.isBlank c) → Relaid line (front ++ (line ++ back))
  | commented {line gap text : List Char} : (∃ image, assembleLine line = .ok image) ∨ Idle line →
      Grammar.Gap gap → Relaid line (Text.trim line ++ (gap ++ ';' :: text))
  | trans {line between relaid : List Char} : Relaid line between → Relaid between relaid →
      Relaid line relaid

/-- A line may stay as it is. -/
theorem Relaid.refl (line : List Char) : Relaid line line := by
  have h : Relaid line ([] ++ (line ++ [])) :=
    .padded (List.forall_mem_nil _) (List.forall_mem_nil _)
  rwa [List.nil_append, List.append_nil] at h

/-- **A line that is laid out anew comes to the same.** -/
theorem Relaid.outcome_eq {line relaid : List Char} (h : Relaid line relaid) :
    outcome relaid = outcome line := by
  induction h with
  | padded hfront hback => exact outcome_padded hfront hback _
  | commented hline hgap =>
    rcases hline with ⟨image, himage⟩ | hidle
    · exact outcome_commented himage hgap _
    · exact outcome_commented_of_idle hidle hgap _
  | trans _ _ ih ih' => exact ih'.trans ih

/-- Where a line of the new listing comes from. -/
inductive Edit
  /-- The line is new. -/
  | inserted (line : List Char)
  /-- The second line stands for the first, which is a line of the old listing. -/
  | kept (line relaid : List Char)

namespace Edit

/-- The line of the new listing. -/
def line : Edit → List Char
  | inserted line => line
  | kept _ relaid => relaid

/-- The line of the old listing, if there is one. -/
def original? : Edit → Option (List Char)
  | inserted _ => none
  | kept line _ => some line

/-- Whether the line is new. -/
def isInserted : Edit → Bool
  | inserted _ => true
  | kept .. => false

/-- New lines are blank or comments, and other lines are laid out anew and not changed otherwise. -/
inductive Allowed : Edit → Prop
  | inserted {line : List Char} : Idle line → Allowed (inserted line)
  | kept {line relaid : List Char} : Relaid line relaid → Allowed (kept line relaid)

end Edit

/-- The lines of the old listing. -/
def originals (script : List Edit) : List (List Char) := script.filterMap Edit.original?

/-- The lines of the new listing. -/
def relaidLines (script : List Edit) : List (List Char) := script.map Edit.line

/-- How many lines are new. -/
def insertions (script : List Edit) : Nat := script.countP Edit.isInserted

theorem originals_cons (edit : Edit) (script : List Edit) :
    originals (edit :: script) = originals [edit] ++ originals script := by
  rw [originals, originals, originals, ← List.filterMap_append, List.singleton_append]

/-- Each line of the new listing is new or stands for one of the old. -/
theorem length_eq_originals_add_insertions (script : List Edit) :
    script.length = (originals script).length + insertions script := by
  induction script with
  | nil => rfl
  | cons edit script ih =>
    rw [originals_cons, List.length_append, List.length_cons, ih]
    cases edit with
    | inserted line =>
      have hnew : insertions (.inserted line :: script) = insertions script + 1 :=
        List.countP_cons_of_pos rfl
      have hnone : (originals [.inserted line]).length = 0 := rfl
      omega
    | kept line relaid =>
      have hold : insertions (.kept line relaid :: script) = insertions script :=
        List.countP_cons_of_neg (by simp [Edit.isInserted])
      have hone : (originals [.kept line relaid]).length = 1 := rfl
      omega

/-! ## Listings -/

variable {script : List Edit} {edit : Edit} {number place : Nat} {error : ProgramError}

/-- The error of the old listing, whose first line has the number `number`, is on a line for which
one stands in the new listing, and there the new listing has the same error. -/
def FailsAlike (number place : Nat) (script : List Edit) (error : ProgramError) : Prop :=
  ∃ before after line relaid, script = before ++ .kept line relaid :: after
    ∧ error.line = number + (originals before).length
    ∧ assembleLines place (relaidLines script) = .error ⟨place + before.length, error.cause⟩

/-- A line in front that has no error only counts. -/
theorem FailsAlike.cons
    (h : FailsAlike (number + (originals [edit]).length) (place + 1) script error)
    (hlater : ∀ error, assembleLines (place + 1) (relaidLines script) = .error error →
      assembleLines place (relaidLines (edit :: script)) = .error error) :
    FailsAlike number place (edit :: script) error := by
  obtain ⟨before, after, line, relaid, hscript, hnumber, hplace⟩ := h
  refine ⟨edit :: before, after, line, relaid, ?_, ?_, ?_⟩
  · rw [hscript, List.cons_append]
  · rw [originals_cons, List.length_append, hnumber, Nat.add_assoc]
  · rw [hlater _ hplace, List.length_cons, Nat.add_assoc, Nat.add_comm 1]

/-- What the old listing comes to, its first line having the number `number`, the new one comes to
as well, its first line having the number `place`. -/
structure ComesToSame (number place : Nat) (script : List Edit) : Prop where
  ok : ∀ image, assembleLines number (originals script) = .ok image →
    assembleLines place (relaidLines script) = .ok image
  error : ∀ error, assembleLines number (originals script) = .error error →
    FailsAlike number place script error

variable {line relaid : List Char}

/-- A new line moves only the new listing on. -/
theorem ComesToSame.inserted (h : ComesToSame number (place + 1) script) (hidle : Idle line) :
    ComesToSame number place (.inserted line :: script) := by
  have hlines : assembleLines place (relaidLines (.inserted line :: script))
      = assembleLines (place + 1) (relaidLines script) := by
    show assembleLines place (line :: relaidLines script) = _
    rw [assembleLines_cons, outcome_eq_none_iff.2 hidle]
  refine ⟨fun image himage => ?_, fun error herror => ?_⟩
  · rw [hlines]
    exact h.ok image himage
  · refine FailsAlike.cons (h.error error herror) fun later hlater => ?_
    rw [hlines, hlater]

/-- A line that is laid out anew moves both listings on, or it stops both with the same cause. -/
theorem ComesToSame.kept (h : ComesToSame (number + 1) (place + 1) script)
    (hrelaid : Relaid line relaid) : ComesToSame number place (.kept line relaid :: script) := by
  have hold : assembleLines number (originals (.kept line relaid :: script)) = _ :=
    assembleLines_cons number line (originals script)
  have hnew : assembleLines place (relaidLines (.kept line relaid :: script)) = _ :=
    assembleLines_cons place relaid (relaidLines script)
  rw [hrelaid.outcome_eq] at hnew
  cases houtcome : outcome line with
  | none =>
    rw [houtcome] at hold hnew
    refine ⟨fun image himage => ?_, fun error herror => ?_⟩
    · rw [hnew]
      exact h.ok image (hold.symm.trans himage)
    · have hrest := h.error error (hold.symm.trans herror)
      exact FailsAlike.cons hrest fun later hlater => hnew.trans hlater
  | some result =>
    cases result with
    | error cause =>
      rw [houtcome] at hold hnew
      refine ⟨fun image himage => ?_, fun error herror => ?_⟩
      · rw [hold] at himage
        exact absurd himage (by simp)
      · rw [hold] at herror
        obtain rfl := Except.error.inj herror
        exact ⟨[], script, line, relaid, rfl, rfl, hnew⟩
    | ok bytes =>
      rw [houtcome] at hold hnew
      cases hrest : assembleLines (number + 1) (originals script) with
      | ok rest =>
        rw [hrest] at hold
        rw [h.ok rest hrest] at hnew
        refine ⟨fun image himage => ?_, fun error herror => ?_⟩
        · rw [hnew, ← himage, hold]
        · rw [hold] at herror
          exact absurd herror (by simp [Except.map])
      | error cause =>
        rw [hrest] at hold
        refine ⟨fun image himage => ?_, fun error herror => ?_⟩
        · rw [hold] at himage
          exact absurd himage (by simp [Except.map])
        · rw [hold] at herror
          obtain rfl := Except.error.inj herror
          refine FailsAlike.cons (h.error cause hrest) fun later hlater => ?_
          rw [hnew, hlater]
          rfl

/-- **Both listings come to the same**, their first lines having any numbers. -/
theorem comesToSame (hallowed : ∀ edit ∈ script, edit.Allowed) (number place : Nat) :
    ComesToSame number place script := by
  induction script generalizing number place with
  | nil =>
    refine ⟨fun image h => h, fun error h => ?_⟩
    exact absurd h (by simp [originals, assembleLines])
  | cons edit script ih =>
    obtain ⟨hedit, hscript⟩ := List.forall_mem_cons.1 hallowed
    cases hedit with
    | inserted hidle => exact (ih hscript number (place + 1)).inserted hidle
    | kept hrelaid => exact (ih hscript (number + 1) (place + 1)).kept hrelaid

/--
**The layout of a listing does not matter.**

The lines of the second text are those of the first, each with any blanks at its ends and, if
it can be assembled or is passed over, trimmed and with any comment behind it, and between
them any lines that are blank or comments. If the first text is assembled, the second is
assembled to the same bytes. If the first has an error, so has the second, with the same
cause. It is on the line that stands for the one with the error in the first, and its number
is greater by the number of new lines in front of that one.
-/
theorem assembleProgram_relaid {text edited : String} {script : List Edit}
    (hallowed : ∀ edit ∈ script, edit.Allowed) (htext : Text.lines text = originals script)
    (hedited : Text.lines edited = relaidLines script) :
    (∀ image, assembleProgram text = .ok image → assembleProgram edited = .ok image)
      ∧ ∀ error, assembleProgram text = .error error →
          ∃ before after line relaid, script = before ++ .kept line relaid :: after
            ∧ error.line = (originals before).length + 1
            ∧ assembleProgram edited = .error ⟨error.line + insertions before, error.cause⟩ := by
  rw [assembleProgram, assembleProgram, htext, hedited]
  have hsame := comesToSame hallowed 1 1
  refine ⟨hsame.ok, fun error h => ?_⟩
  obtain ⟨before, after, line, relaid, hscript, hnumber, hplace⟩ := hsame.error error h
  have hcount := length_eq_originals_add_insertions before
  have hline : 1 + before.length = error.line + insertions before := by omega
  refine ⟨before, after, line, relaid, hscript, by omega, ?_⟩
  rw [hplace, hline]

/-- A quote that is not closed stays so in front of a comment that has one. Two new lines and a
carriage return lie before the line that fails. -/
theorem assembleProgram_relaid_unclosed :
    assembleProgram "out 'a" = .ok [19, 0, 97, 0]
      ∧ assembleProgram "; head\r\n\u00a0out 'a;'\r\n\t" = .ok [19, 0, 97, 0]
      ∧ assembleProgram "out 'a\njmp 3" = .error ⟨2, .misalignedAddress 0 3⟩
      ∧ assembleProgram "; head\r\n\u00a0out 'a;'\r\n\t\njmp 3"
        = .error ⟨4, .misalignedAddress 0 3⟩ := by
  have hshort : assembleProgram "out 'a" = .ok [19, 0, 97, 0] := by
    with_unfolding_all rfl
  have hlong : assembleProgram "out 'a\njmp 3" = .error ⟨2, .misalignedAddress 0 3⟩ := by
    with_unfolding_all rfl
  have hhead : Edit.Allowed (.inserted "; head\r".toList) :=
    .inserted (isPassedOver_iff_idle.1 (by with_unfolding_all rfl))
  have hblank : Edit.Allowed (.inserted ['\t']) :=
    .inserted (isPassedOver_iff_idle.1 (by with_unfolding_all rfl))
  have hcomment : Relaid "out 'a".toList
      (Text.trim "out 'a".toList ++ ([] ++ ';' :: ['\''])) :=
    .commented (Or.inl ⟨[19, 0, 97, 0], by with_unfolding_all rfl⟩) Grammar.gap_nil
  have hout : Edit.Allowed (.kept "out 'a".toList
      (['\u00a0'] ++ ((Text.trim "out 'a".toList ++ ([] ++ ';' :: ['\''])) ++ ['\r']))) :=
    .kept (hcomment.trans (.padded (List.forall_mem_singleton.2 (by decide))
      (List.forall_mem_singleton.2 (by decide))))
  have hjump : Edit.Allowed (.kept "jmp 3".toList "jmp 3".toList) := .kept (.refl _)
  have hfront := List.forall_mem_cons.2 ⟨hhead, List.forall_mem_cons.2 ⟨hout,
    List.forall_mem_singleton.2 hblank⟩⟩
  have hall := List.forall_mem_cons.2 ⟨hhead, List.forall_mem_cons.2 ⟨hout,
    List.forall_mem_cons.2 ⟨hblank, List.forall_mem_singleton.2 hjump⟩⟩⟩
  have hok := (assembleProgram_relaid hfront
    (by with_unfolding_all rfl : Text.lines "out 'a" = _)
    (by with_unfolding_all rfl : Text.lines "; head\r\n\u00a0out 'a;'\r\n\t" = _)).1 _ hshort
  obtain ⟨before, after, line, relaid, hscript, hnumber, hedited⟩ := (assembleProgram_relaid hall
    (by with_unfolding_all rfl : Text.lines "out 'a\njmp 3" = _)
    (by with_unfolding_all rfl :
      Text.lines "; head\r\n\u00a0out 'a;'\r\n\t\njmp 3" = _)).2 _ hlong
  refine ⟨hshort, hok, hlong, ?_⟩
  -- of the lines that are kept the second fails, so three lines stand in front of it
  have hbefore : insertions before = 2 := by
    match before with
    | [] => exact absurd hnumber (by decide)
    | [_] =>
      obtain ⟨rfl, -⟩ := List.cons.inj hscript
      exact absurd hnumber (by decide)
    | [_, _] => exact absurd hscript (by simp)
    | [_, _, _] =>
      simp only [List.cons_append, List.nil_append, List.cons.injEq] at hscript
      obtain ⟨rfl, rfl, rfl, -⟩ := hscript
      rfl
    | _ :: _ :: _ :: _ :: _ => exact absurd (congrArg List.length hscript) (by simp)
  rw [hedited, hbefore]

end WordMachine.Assembly
