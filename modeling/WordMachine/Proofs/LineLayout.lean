import Mathlib.Data.List.DropRight
import WordMachine.Proofs.Assembling

/-!
# The layout of a line does not matter

Blanks at either end of a line are trimmed off, so they change nothing, whatever the line is.
A comment behind the line is another matter. The grammar allows one behind every line, but
what is read as an operand depends on all that follows it: a semicolon behind a quote that
is not closed could be what the quote encloses. That takes a quote on its own at the end of
the line, since a space, a tab or a semicolon is enclosed only as it stands. No slot takes a
quote on its own. So a line that can be assembled is assembled to the same bytes with a
comment behind it.
-/

namespace WordMachine

/-! ## Trimming -/

namespace Text

variable {cs front back : List Char} {c : Char}

/-- Blanks in front are trimmed off. -/
theorem trim_blanks_append (hfront : ∀ c ∈ front, isBlank c) (cs : List Char) :
    trim (front ++ cs) = trim cs := by
  rw [trim, trimWhile, List.dropWhile_append_of_pos hfront]
  rfl

theorem trim_of_blanks (h : ∀ c ∈ cs, isBlank c) : trim cs = [] := by
  have htrim := trim_blanks_append h []
  rwa [List.append_nil] at htrim

theorem IsTrimmed.exists_cons (h : IsTrimmed cs) : ∃ c rest, cs = c :: rest ∧ ¬ isBlank c := by
  obtain ⟨c, hc, hblank⟩ := h.head
  obtain ⟨rest, hcs⟩ := List.head?_eq_some_iff.1 hc
  exact ⟨c, rest, hcs, hblank⟩

/-- The blanks at the end are left out. -/
theorem isTrimmed_rdropWhile (hhead : ∀ d ∈ (front ++ [c]).head?, ¬ isBlank d) (hc : ¬ isBlank c)
    (cs : List Char) : IsTrimmed (front ++ c :: cs.rdropWhile isBlank) where
  head := by
    cases front with
    | nil => exact ⟨c, rfl, hc⟩
    | cons d front => exact ⟨d, rfl, hhead d rfl⟩
  last := by
    by_cases hkept : cs.rdropWhile isBlank = []
    · exact ⟨c, by simp [hkept], hc⟩
    · refine ⟨_, ?_, List.rdropWhile_last_not isBlank cs hkept⟩
      rw [List.append_cons, List.getLast?_append_of_ne_nil _ hkept]
      exact List.getLast?_eq_some_getLast hkept

/-- A text that does not start with blanks keeps all up to a character that is not blank. -/
theorem trim_append_cons (hhead : ∀ d ∈ (front ++ [c]).head?, ¬ isBlank d) (hc : ¬ isBlank c)
    (cs : List Char) : trim (front ++ c :: cs) = front ++ c :: cs.rdropWhile isBlank := by
  have hblanks : ∀ d ∈ cs.rtakeWhile isBlank, isBlank d := fun d hd => List.mem_rtakeWhile_imp hd
  have htrim := (isTrimmed_rdropWhile hhead hc cs).trim_append_blanks hblanks
  rwa [List.append_assoc, List.cons_append, List.rdropWhile_append_rtakeWhile] at htrim

/-- Behind a text with no blanks at its ends only the blanks at the end are trimmed off. -/
theorem IsTrimmed.trim_append (h : IsTrimmed cs) (rest : List Char) :
    trim (cs ++ rest) = cs ++ rest.rdropWhile isBlank := by
  obtain ⟨first, hfirst, hhead⟩ := h.head
  obtain ⟨last, hlast, hblank⟩ := h.last
  obtain ⟨front, rfl⟩ := List.getLast?_eq_some_iff.1 hlast
  have hstart : ∀ d ∈ (front ++ [last]).head?, ¬ isBlank d := by
    intro d hd
    obtain rfl := Option.mem_unique hfirst hd
    exact hhead
  have hsplit : ∀ tail : List Char, front ++ [last] ++ tail = front ++ last :: tail :=
    fun tail => (List.append_cons front last tail).symm
  rw [hsplit, trim_append_cons hstart hblank, ← hsplit]

/-- A text is blank, or it is what trimming leaves of it between blanks. -/
theorem trim_cases (cs : List Char) :
    (trim cs = [] ∧ ∀ c ∈ cs, isBlank c)
      ∨ (IsTrimmed (trim cs) ∧ ∃ front back, (∀ c ∈ front, isBlank c) ∧ (∀ c ∈ back, isBlank c)
          ∧ cs = front ++ (trim cs ++ back)) := by
  have hfront : ∀ c ∈ cs.takeWhile isBlank, isBlank c := List.all_eq_true.1 List.all_takeWhile
  have htrim := trim_blanks_append hfront (cs.dropWhile isBlank)
  rw [List.takeWhile_append_dropWhile] at htrim
  cases hleft : cs.dropWhile isBlank with
  | nil =>
    rw [hleft] at htrim
    exact Or.inl ⟨htrim, List.dropWhile_eq_nil_iff.1 hleft⟩
  | cons c left =>
    have hc : ¬ isBlank c := by
      have hhead := List.head_dropWhile_not isBlank (by rw [hleft]; simp)
      simpa [hleft] using hhead
    have hstart : ∀ d ∈ ([] ++ [c]).head?, ¬ isBlank d := forall_mem_head?_cons hc
    have hkept : trim cs = c :: left.rdropWhile isBlank := by
      rw [htrim, hleft]
      exact trim_append_cons hstart hc left
    refine Or.inr ⟨?_, _, left.rtakeWhile isBlank, hfront,
      fun d hd => List.mem_rtakeWhile_imp hd, ?_⟩
    · rw [hkept]
      exact isTrimmed_rdropWhile hstart hc left
    · rw [hkept, List.cons_append, List.rdropWhile_append_rtakeWhile, ← hleft,
        List.takeWhile_append_dropWhile]

/-- Blanks at the end are trimmed off. -/
theorem trim_append_blanks (hback : ∀ c ∈ back, isBlank c) (cs : List Char) :
    trim (cs ++ back) = trim cs := by
  rcases trim_cases cs with ⟨hnil, hall⟩ | ⟨htrimmed, front, behind, hfront, hbehind, hcs⟩
  · rw [trim_blanks_append hall, trim_of_blanks hback, hnil]
  · have hblanks : ∀ c ∈ behind ++ back, isBlank c :=
      List.forall_mem_append.2 ⟨hbehind, hback⟩
    have hmore : cs ++ back = front ++ (trim cs ++ (behind ++ back)) := by
      rw [← List.append_assoc (trim cs), ← List.append_assoc front, ← hcs]
    rw [hmore, trim_blanks_append hfront, htrimmed.trim_append_blanks hblanks]

end Text

namespace Assembly

/-! ## Lines that are passed over -/

/-- Nothing is to be assembled on the line: it is blank, or a comment stands behind blanks. -/
inductive Idle : List Char → Prop
  | blank {line : List Char} : (∀ c ∈ line, Text.isBlank c) → Idle line
  | comment {front text : List Char} : (∀ c ∈ front, Text.isBlank c) → Idle (front ++ ';' :: text)

theorem trim_comment (text : List Char) :
    Text.trim (';' :: text) = ';' :: text.rdropWhile Text.isBlank := by
  have hsemicolon : ¬ Text.isBlank ';' := by decide
  have hhead : ∀ d ∈ ([] ++ [';']).head?, ¬ Text.isBlank d := Text.forall_mem_head?_cons hsemicolon
  exact Text.trim_append_cons hhead hsemicolon text

/-- Listings pass over these lines and no others. -/
theorem isPassedOver_iff_idle {line : List Char} : isPassedOver line ↔ Idle line := by
  constructor
  · intro h
    rw [isPassedOver] at h
    rcases Text.trim_cases line with ⟨-, hall⟩ | ⟨htrimmed, front, back, hfront, -, hline⟩
    · exact .blank hall
    · obtain ⟨c, text, htrim, -⟩ := htrimmed.exists_cons
      rw [htrim] at h hline
      obtain rfl : c = ';' := beq_iff_eq.1 h
      rw [hline]
      exact .comment hfront
  · intro h
    cases h with
    | blank hall =>
      rw [isPassedOver, Text.trim_of_blanks hall]
      rfl
    | comment hfront =>
      rw [isPassedOver, Text.trim_blanks_append hfront, trim_comment]
      rfl

/-! ## Comments behind a line -/

namespace Grammar

theorem isBare_of_isHexDigit {c : Char} (h : isHexDigit c) : isBare c := by
  simp only [isBare, Bool.and_eq_true, bne_iff_ne, ne_eq]
  refine ⟨⟨⟨?_, ?_⟩, ?_⟩, ?_⟩ <;> rintro rfl <;> exact absurd h (by decide)

/-- The character is a quote of either kind. -/
def IsMark (mark : Char) : Prop := mark = '\'' ∨ mark = '\"'

theorem IsMark.isBare {mark : Char} (h : IsMark mark) : isBare mark := by
  rcases h with rfl | rfl <;> decide

/-- Only a character that is written as it stands can be one that ends a bare run. -/
theorem Quoted.forall_isBare_or {c : Char} {piece : List Char} (h : Quoted c piece) :
    (∀ d ∈ piece, isBare d) ∨ ∃ mark, IsMark mark ∧ piece = [mark, c, mark] := by
  cases h with
  | @quotes mark c body hmark hbody =>
    have hbare : isBare mark := IsMark.isBare hmark
    cases hbody with
    | raw _ => exact Or.inr ⟨mark, hmark, rfl⟩
    | @letter letter c hletter =>
      have hall : ∀ pair ∈ letterEscapes, isBare pair.1 := by decide
      left
      intro d hd
      simp only [List.mem_cons, List.mem_append, List.not_mem_nil, or_false] at hd
      rcases hd with rfl | (rfl | rfl) | rfl
      · exact hbare
      · decide
      · exact hall _ hletter
      · exact hbare
    | @codePoint digits c _ hhex _ =>
      left
      intro d hd
      simp only [List.mem_cons, List.mem_append, List.not_mem_nil, or_false] at hd
      rcases hd with rfl | (rfl | rfl | rfl | hd | rfl) | rfl
      · exact hbare
      · decide
      · decide
      · decide
      · exact isBare_of_isHexDigit (hhex d hd)
      · decide
      · exact hbare

/-- **What stands behind a text does not complete a quoted character**, if it starts with nothing
that a bare run takes and the text is not a quote on its own. -/
theorem opensQuoted_of_append {text extra : List Char} (hne : text ≠ [])
    (hextra : ∀ c ∈ extra.head?, ¬ isBare c) (hlone : ∀ mark, IsMark mark → text ≠ [mark])
    (h : OpensQuoted (text ++ extra)) : OpensQuoted text := by
  obtain ⟨c, piece, rest, hquoted, hsplit⟩ := h
  rcases List.append_eq_append_iff.1 hsplit with ⟨inside, hpiece, hrest⟩ | ⟨behind, htext, -⟩
  · cases inside with
    | nil =>
      -- the text is the quoted character and nothing else
      refine ⟨c, piece, [], hquoted, ?_⟩
      rw [hpiece, List.append_nil, List.append_nil]
    | cons d inside =>
      exfalso
      have hd : ¬ isBare d := hextra d (by rw [hrest]; rfl)
      rcases hquoted.forall_isBare_or with hall | ⟨mark, hmark, hraw⟩
      · exact hd (hall d (by simp [hpiece]))
      · rw [hraw] at hpiece
        match text with
        | [_] =>
          obtain ⟨rfl, -⟩ := List.cons.inj hpiece
          exact hlone _ hmark rfl
        | [_, _] =>
          -- what ends the bare run would be the closing quote
          obtain ⟨rfl, -⟩ := List.cons.inj (List.cons.inj (List.cons.inj hpiece).2).2
          exact hd hmark.isBare
        | _ :: _ :: _ :: _ => exact absurd hpiece (by simp)
  · exact ⟨c, piece, behind, hquoted, htext⟩

/-- What may come behind the last operand may be followed by a comment. -/
theorem Ending.append_comment {ending gap : List Char} (h : Ending ending) (hgap : Gap gap)
    (text : List Char) : Ending (ending ++ (gap ++ ';' :: text)) := by
  cases h with
  | gap hpiece =>
    have hboth : Gap (ending ++ gap) := List.forall_mem_append.2 ⟨hpiece, hgap⟩
    rw [← List.append_assoc]
    exact .comment hboth
  | comment hpiece =>
    rw [List.append_assoc]
    exact .comment hpiece

end Grammar

/-- The operand is written as a quote on its own. -/
def Spelling.IsLoneQuote (spelling : Spelling) : Prop :=
  ∃ mark, Grammar.IsMark mark ∧ spelling = .bare [mark]

namespace Grammar

/-- Operands stay the same if more stands behind them that does not prolong a bare run. -/
theorem Operands.append {spellings : List Spelling} {text ending extra : List Char}
    (h : Operands spellings text ending) (hextra : ∀ c ∈ extra.head?, ¬ isBare c)
    (hquotes : ∀ spelling ∈ spellings, ¬ spelling.IsLoneQuote) :
    Operands spellings (text ++ extra) (ending ++ extra) := by
  induction h with
  | none => exact .none
  | @more spelling spellings separator piece text rest hseparator hoperand _ ih =>
    obtain ⟨hquote, hquotes⟩ := List.forall_mem_cons.1 hquotes
    rw [List.append_assoc, List.append_assoc]
    refine .more hseparator ?_ (ih hquotes)
    cases hoperand with
    | quoted hquoted => exact .quoted hquoted
    | bare hne hrun hopens =>
      refine .bare hne hrun fun hmore => hopens ?_
      rw [← List.append_assoc] at hmore
      refine opensQuoted_of_append (by simp [hne]) hextra (fun mark hmark hlone => ?_) hmore
      rcases List.append_eq_singleton_iff.1 hlone with ⟨hnil, -⟩ | ⟨hrun, -⟩
      · exact hne hnil
      · exact hquote ⟨mark, hmark, congrArg Spelling.bare hrun⟩

/-- **A comment may stand behind a line** that has no quote on its own among its operands. -/
theorem Derives.append_comment {line : Line} {cs gap : List Char} (h : Derives line cs)
    (hquotes : ∀ spelling ∈ line.operands, ¬ spelling.IsLoneQuote) (hgap : Gap gap)
    (text : List Char) : Derives line (cs ++ (gap ++ ';' :: text)) := by
  have hextra : ∀ c ∈ (gap ++ ';' :: text).head?, ¬ isBare c :=
    (Ending.comment hgap).not_isBare_head?
  cases h with
  | line hlead hname hoperands hending =>
    rw [List.append_assoc, List.append_assoc]
    exact .line hlead hname (hoperands.append hextra hquotes) (hending.append_comment hgap text)

theorem Derives.isEnd_eq_false {line : Line} {cs : List Char} (h : Derives line cs) :
    Line.isEnd cs = false := by
  cases h with
  | @line lead mnemonic text ending operands hlead hname _ _ =>
    cases lead with
    | nil =>
      obtain ⟨c, cs, rfl⟩ := List.exists_cons_of_ne_nil hname.1
      have hc := hname.2 c (by simp)
      refine beq_eq_false_iff_ne.2 ?_
      rintro rfl
      exact absurd hc (by decide)
    | cons c lead =>
      refine beq_eq_false_iff_ne.2 ?_
      rintro rfl
      exact absurd (hlead ';' (by simp)) (by decide)

end Grammar

/-! ## Operands that slots take -/

/-- No slot takes a quote on its own. -/
theorem Spelling.IsLoneQuote.word_ne_ok {spelling : Spelling} (h : spelling.IsLoneQuote)
    (index : Nat) (kind : SlotKind) (word : Word) : spelling.word index kind ≠ .ok word := by
  obtain ⟨mark, hmark, rfl⟩ := h
  have hshape : registerDigits? [mark] = none := by
    rcases hmark with rfl | rfl <;> rfl
  have hnumeral : numeral? [mark] = none := by
    rcases hmark with rfl | rfl <;> rfl
  have hquotes : Text.trimWhile isQuote [mark] = [] := by
    rcases hmark with rfl | rfl <;> rfl
  rw [Spelling.word, bareWord, hshape]
  by_cases hkind : kind.requiresRegister
  · simp [hkind]
  · simp [hkind, hnumeral, hquotes]

theorem Line.not_isLoneQuote_of_words {line : Line} {words : List Word}
    (h : line.words = .ok words) : ∀ spelling ∈ line.operands, ¬ spelling.IsLoneQuote := by
  intro spelling hmem hlone
  obtain ⟨operation, operands, -, hlength, hwords, -⟩ := Line.words_eq_ok_iff.1 h
  obtain ⟨slot, hslot⟩ := List.getElem?_of_mem hmem
  obtain ⟨kind, word, -, -, hword⟩ := (operandWords_eq_ok hwords hlength).2 slot spelling hslot
  exact hlone.word_ne_ok _ kind word hword

/-! ## What a listing makes of a line -/

/-- A line that is one of the grammar when it is trimmed is assembled to the words that it has. -/
theorem assembleLine_of_derives {line : Line} {cs : List Char}
    (h : Grammar.Derives line (Text.trim cs)) :
    assembleLine cs = line.words.map Image.ofWords := by
  unfold assembleLine
  split
  · next hnil =>
    rw [hnil] at h
    exact absurd h.isEnd_eq_false (by simp [Line.isEnd])
  · rw [Line.parse_complete h]

/-- A line is assembled if what is left of it when it is trimmed is a line of the grammar whose
operands have words. -/
theorem assembleLine_eq_ok_iff {cs : List Char} {image : Image} :
    assembleLine cs = .ok image
      ↔ ∃ line words, Grammar.Derives line (Text.trim cs) ∧ line.words = .ok words
          ∧ image = Image.ofWords words := by
  constructor
  · intro h
    unfold assembleLine at h
    split at h
    · exact absurd h (by simp)
    · split at h
      · exact absurd h (by simp)
      · next line hparse =>
        cases hwords : line.words with
        | error cause => exact absurd h (by simp [hwords, Except.map])
        | ok words =>
          rw [hwords] at h
          exact ⟨line, words, Line.parse_sound hparse, hwords, (Except.ok.inj h).symm⟩
  · rintro ⟨line, words, hderives, hwords, rfl⟩
    rw [assembleLine_of_derives hderives, hwords]
    rfl

/-- What a listing makes of a line: nothing if the line is passed over, else its bytes or the reason
why there are none. -/
def outcome (line : List Char) : Option (Except LineError Image) :=
  if isPassedOver line then none else some (assembleLine line)

/-- A line counts by its outcome. -/
theorem assembleLines_cons (number : Nat) (line : List Char) (lines : List (List Char)) :
    assembleLines number (line :: lines)
      = match outcome line with
        | none => assembleLines (number + 1) lines
        | some (.error cause) => .error ⟨number, cause⟩
        | some (.ok bytes) => (assembleLines (number + 1) lines).map (bytes ++ ·) := by
  rw [assembleLines, outcome]
  split
  · rfl
  · cases assembleLine line <;> rfl

theorem outcome_eq_none_iff {line : List Char} : outcome line = none ↔ Idle line := by
  rw [← isPassedOver_iff_idle, outcome]
  split
  · next h => simp [h]
  · next h => simp [h]

theorem outcome_eq_ok_iff {line : List Char} {image : Image} :
    outcome line = some (.ok image) ↔ assembleLine line = .ok image := by
  rw [outcome]
  constructor
  · intro h
    split at h
    · exact absurd h (by simp)
    · exact Option.some.inj h
  · intro h
    obtain ⟨line', words, hderives, -, -⟩ := assembleLine_eq_ok_iff.1 h
    have hopen : isPassedOver line = false := hderives.isEnd_eq_false
    rw [hopen, h]
    rfl

/-- Only what is left of a line when it is trimmed counts. -/
theorem outcome_eq_of_trim_eq {line other : List Char} (h : Text.trim line = Text.trim other) :
    outcome line = outcome other := by
  rw [outcome, outcome, isPassedOver, isPassedOver, assembleLine, assembleLine, h]

/-- Blanks at the ends of a line change nothing. -/
theorem outcome_padded {front back : List Char} (hfront : ∀ c ∈ front, Text.isBlank c)
    (hback : ∀ c ∈ back, Text.isBlank c) (line : List Char) :
    outcome (front ++ (line ++ back)) = outcome line := by
  refine outcome_eq_of_trim_eq ?_
  rw [Text.trim_blanks_append hfront, Text.trim_append_blanks hback]

theorem isBlank_of_gap {gap : List Char} (hgap : Grammar.Gap gap) : ∀ c ∈ gap, Text.isBlank c := by
  intro c hc
  rcases hgap c hc with rfl | rfl <;> decide

/-- **A comment behind a line that is assembled changes nothing.** -/
theorem outcome_commented {line gap : List Char} {image : Image} (h : assembleLine line = .ok image)
    (hgap : Grammar.Gap gap) (text : List Char) :
    outcome (Text.trim line ++ (gap ++ ';' :: text)) = outcome line := by
  obtain ⟨read, words, hderives, hwords, rfl⟩ := assembleLine_eq_ok_iff.1 h
  rw [outcome_eq_ok_iff.2 h, outcome_eq_ok_iff, assembleLine_eq_ok_iff]
  refine ⟨read, words, ?_, hwords, rfl⟩
  have hhead : ∀ d ∈ ((Text.trim line ++ gap) ++ [';']).head?, ¬ Text.isBlank d := by
    rcases Text.trim_cases line with ⟨hnil, -⟩ | ⟨htrimmed, -⟩
    · rw [hnil] at hderives
      exact absurd hderives.isEnd_eq_false (by simp [Line.isEnd])
    · obtain ⟨c, cs, htrim, hblank⟩ := htrimmed.exists_cons
      rw [htrim]
      exact Text.forall_mem_head?_cons hblank
  rw [← List.append_assoc, Text.trim_append_cons hhead (by decide), List.append_assoc]
  exact hderives.append_comment (Line.not_isLoneQuote_of_words hwords) hgap _

/-- So does a comment in place of a line that is passed over. -/
theorem outcome_commented_of_idle {line gap : List Char} (h : Idle line)
    (hgap : Grammar.Gap gap) (text : List Char) :
    outcome (Text.trim line ++ (gap ++ ';' :: text)) = outcome line := by
  rw [outcome_eq_none_iff.2 h, outcome_eq_none_iff]
  have hblanks := isBlank_of_gap hgap
  cases h with
  | blank hall =>
    rw [Text.trim_of_blanks hall]
    exact .comment hblanks
  | comment hfront =>
    rw [Text.trim_blanks_append hfront, trim_comment]
    exact .comment (List.forall_mem_nil _)

end Assembly

end WordMachine
