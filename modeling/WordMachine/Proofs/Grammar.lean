import WordMachine.Assembly.Line
import WordMachine.Proofs.Numeral

/-!
# The grammar of a line

A line of assembly is described here without a reader: as pieces that stand one behind the
other. Reading accepts exactly the texts that the grammar derives and gives what they
derive, so no text is derived in two ways.

A reader has to decide where a piece ends without seeing what the rest is meant to be. Two
things make its decisions the only ones possible. Whatever comes behind an operand, a
separator, a comment or the end, cannot be part of a bare run, so a run ends nowhere but
where nothing prolongs it. And a bare operand may not stand where a quoted character could
be read, so what opens with a complete one is nothing else. The second is a condition on all
that is left of the text, not on the operand: `'a` is a bare operand unless a quote follows.
-/

namespace WordMachine

/-! ## Runs of characters -/

namespace Text

variable {p : Char → Bool} {run rest : List Char}

/-- A text that is known to be started is started by no other character. -/
theorem forall_mem_head?_cons {P : Char → Prop} {c : Char} {cs : List Char} (h : P c) :
    ∀ d ∈ (c :: cs).head?, P d := by
  intro d hd
  obtain rfl := Option.some.inj hd
  exact h

/-- A run is taken up to where something follows that does not belong to it. -/
theorem takeWhile_run (hrun : ∀ c ∈ run, p c) (hrest : ∀ c ∈ rest.head?, ¬ p c) :
    (run ++ rest).takeWhile p = run := by
  rw [List.takeWhile_append_of_pos hrun]
  cases rest with
  | nil => exact List.append_nil run
  | cons c rest => rw [List.takeWhile_cons_of_neg (hrest c rfl), List.append_nil]

/-- What follows is left. -/
theorem dropWhile_run (hrun : ∀ c ∈ run, p c) (hrest : ∀ c ∈ rest.head?, ¬ p c) :
    (run ++ rest).dropWhile p = rest := by
  rw [List.dropWhile_append_of_pos hrun]
  cases rest with
  | nil => rfl
  | cons c rest => rw [List.dropWhile_cons_of_neg (hrest c rfl)]

end Text

/-- A text of ASCII letters and digits, and of at least one. -/
def IsAlphanumericRun (cs : List Char) : Prop := cs ≠ [] ∧ ∀ c ∈ cs, c.isAlphanum

namespace Assembly

namespace Grammar

/-! ## Pieces of a line -/

/-- A run of spaces and tabs, maybe an empty one. -/
def Gap (piece : List Char) : Prop := ∀ c ∈ piece, c = ' ' ∨ c = '\t'

/-- What sets an operand off: one comma with gaps around it, or a gap that is not empty. -/
inductive Separator : List Char → Prop
  | comma {before after : List Char} : Gap before → Gap after → Separator (before ++ ',' :: after)
  | gap {piece : List Char} : piece ≠ [] → Gap piece → Separator piece

/-- The letters that can stand behind a backslash, each with the character meant. -/
def letterEscapes : List (Char × Char) :=
  [('n', '\n'), ('r', '\r'), ('t', '\t'), ('0', '\x00'), ('\\', '\\'), ('\'', '\''), ('\"', '\"')]

/-- The ways to write a character between quotes. -/
inductive Character : Char → List Char → Prop
  | raw {c : Char} : c ≠ '\\' → Character c [c]
  | letter {letter c : Char} : (letter, c) ∈ letterEscapes → Character c ['\\', letter]
  /-- Any number of hexadecimal digits that denote a scalar value, which is what a character is. -/
  | codePoint {digits : List Char} {c : Char} : digits ≠ [] → (∀ d ∈ digits, isHexDigit d) →
      Numeral.denoted 16 digits = c.toNat →
        Character c ('\\' :: 'u' :: '\x7b' :: (digits ++ ['\x7d']))

/-- A character between two quotes of one kind. -/
inductive Quoted : Char → List Char → Prop
  | quotes {mark c : Char} {body : List Char} : mark = '\'' ∨ mark = '\"' → Character c body →
      Quoted c (mark :: (body ++ [mark]))

/-- The text opens with a complete quoted character. -/
def OpensQuoted (text : List Char) : Prop :=
  ∃ c piece rest, Quoted c piece ∧ text = piece ++ rest

/-- The ways to write an operand in front of a given rest. -/
inductive Operand : Spelling → List Char → List Char → Prop
  | quoted {c : Char} {piece rest : List Char} : Quoted c piece → Operand (.quoted c) piece rest
  | bare {run rest : List Char} : run ≠ [] →
      (∀ c ∈ run, c ≠ ' ' ∧ c ≠ '\t' ∧ c ≠ ',' ∧ c ≠ ';') → ¬ OpensQuoted (run ++ rest) →
        Operand (.bare run) run rest

/-- A text that is operands, a separator in front of each, and then the given rest. -/
inductive Operands : List Spelling → List Char → List Char → Prop
  | none {rest : List Char} : Operands [] rest rest
  | more {spelling : Spelling} {spellings : List Spelling} {separator piece text rest : List Char} :
      Separator separator → Operand spelling piece text → Operands spellings text rest →
        Operands (spelling :: spellings) (separator ++ (piece ++ text)) rest

/-- What may come behind the last operand: a gap, and then a comment if there is one. -/
inductive Ending : List Char → Prop
  | gap {piece : List Char} : Gap piece → Ending piece
  | comment {piece text : List Char} : Gap piece → Ending (piece ++ ';' :: text)

/-- The text is a gap, the mnemonic, operands and an ending. -/
inductive Derives : Line → List Char → Prop
  | line {lead mnemonic text ending : List Char} {operands : List Spelling} :
      Gap lead → IsAlphanumericRun mnemonic → Operands operands text ending → Ending ending →
        Derives ⟨mnemonic, operands⟩ (lead ++ (mnemonic ++ text))

end Grammar

/-! ## Where pieces start and end -/

theorem isBare_of_isAlphanum {c : Char} (h : c.isAlphanum) : isBare c := by
  simp only [isBare, Bool.and_eq_true, bne_iff_ne, ne_eq]
  refine ⟨⟨⟨?_, ?_⟩, ?_⟩, ?_⟩ <;> rintro rfl <;> exact absurd h (by decide)

theorem Line.not_isGap_of_isBare {c : Char} (h : isBare c) : ¬ isGap c := by
  simp only [isBare, Bool.and_eq_true, bne_iff_ne] at h
  simp [isGap, h.1.1.1, h.1.1.2]

namespace Grammar

theorem gap_iff {piece : List Char} : Gap piece ↔ ∀ c ∈ piece, Line.isGap c := by
  simp [Gap, Line.isGap]

theorem gap_nil : Gap [] := by simp [Gap]

theorem gap_space : Gap [' '] := by simp [Gap]

theorem separator_space : Separator [' '] := .gap (List.cons_ne_nil ' ' []) gap_space

theorem gap_takeWhile (cs : List Char) : Gap (cs.takeWhile Line.isGap) :=
  gap_iff.2 (List.all_eq_true.1 List.all_takeWhile)

theorem forall_isBare_iff {run : List Char} :
    (∀ c ∈ run, isBare c) ↔ ∀ c ∈ run, c ≠ ' ' ∧ c ≠ '\t' ∧ c ≠ ',' ∧ c ≠ ';' := by
  simp [isBare, and_assoc]

/-- An operand starts with a character that can be part of a bare run. -/
theorem Operand.exists_isBare {spelling : Spelling} {piece rest : List Char}
    (h : Operand spelling piece rest) : ∃ c cs, piece = c :: cs ∧ isBare c := by
  cases h with
  | quoted hquoted =>
    cases hquoted with
    | quotes hmark _ =>
      refine ⟨_, _, rfl, ?_⟩
      rcases hmark with rfl | rfl <;> decide
  | bare hne hrun _ =>
    obtain ⟨c, cs, rfl⟩ := List.exists_cons_of_ne_nil hne
    exact ⟨c, cs, rfl, forall_isBare_iff.2 hrun c (by simp)⟩

/-- A gap in front of a text that opens with no bare character is not the start of a bare run. -/
theorem Gap.not_isBare_head? {piece rest : List Char} (h : Gap piece)
    (hrest : ∀ c ∈ rest.head?, ¬ isBare c) : ∀ c ∈ (piece ++ rest).head?, ¬ isBare c := by
  intro c hc hbare
  cases piece with
  | nil => exact hrest c hc hbare
  | cons d piece =>
    obtain rfl := Option.some.inj hc
    exact Line.not_isGap_of_isBare hbare (gap_iff.1 h d (by simp))

/-- A separator is not the start of a bare run. -/
theorem Separator.not_isBare_head? {separator rest : List Char} (h : Separator separator) :
    ∀ c ∈ (separator ++ rest).head?, ¬ isBare c := by
  cases h with
  | @comma before after hbefore _ =>
    rw [List.append_assoc]
    exact hbefore.not_isBare_head? (Text.forall_mem_head?_cons (by decide))
  | gap hne hgap =>
    obtain ⟨c, cs, rfl⟩ := List.exists_cons_of_ne_nil hne
    refine Text.forall_mem_head?_cons fun hbare => ?_
    exact Line.not_isGap_of_isBare hbare (gap_iff.1 hgap c (by simp))

theorem Ending.not_isBare_head? {ending : List Char} (h : Ending ending) :
    ∀ c ∈ ending.head?, ¬ isBare c := by
  cases h with
  | gap hgap =>
    have hhead : ∀ c ∈ (ending ++ []).head?, ¬ isBare c := hgap.not_isBare_head? (by simp)
    rwa [List.append_nil] at hhead
  | comment hgap =>
    exact hgap.not_isBare_head? (Text.forall_mem_head?_cons (by decide))

/-- What comes behind the mnemonic or behind an operand prolongs neither. -/
theorem Operands.not_isBare_head? {spellings : List Spelling} {text ending : List Char}
    (h : Operands spellings text ending) (hending : Ending ending) :
    ∀ c ∈ text.head?, ¬ isBare c := by
  cases h with
  | none => exact hending.not_isBare_head?
  | more hseparator _ _ => exact hseparator.not_isBare_head?

end Grammar

/-! ## Characters between quotes -/

theorem letterMeaning?_eq_some_iff {letter c : Char} :
    letterMeaning? letter = some c ↔ (letter, c) ∈ Grammar.letterEscapes := by
  constructor
  · intro h
    unfold letterMeaning? at h
    split at h
    case h_8 => exact absurd h (by simp)
    all_goals
      obtain rfl := Option.some.inj h
      decide
  · intro h
    simp only [Grammar.letterEscapes, List.mem_cons, Prod.mk.injEq, List.not_mem_nil,
      or_false] at h
    rcases h with ⟨rfl, rfl⟩ | ⟨rfl, rfl⟩ | ⟨rfl, rfl⟩ | ⟨rfl, rfl⟩ | ⟨rfl, rfl⟩ | ⟨rfl, rfl⟩
      | ⟨rfl, rfl⟩ <;> rfl

theorem codePoint_lt (c : Char) : c.toNat < 0x110000 := by
  rcases c.valid with h | h
  · exact Nat.lt_trans h (by decide)
  · exact h.2

/-- Hexadecimal digits name the character with the code point that they denote. -/
theorem scalar?_eq_some_iff {digits : List Char} {c : Char} (hhex : ∀ d ∈ digits, isHexDigit d) :
    scalar? digits = some c ↔ digits ≠ [] ∧ Numeral.denoted 16 digits = c.toNat := by
  have hdigits : ∀ d ∈ digits, (Numeral.digitValue? 16 d).isSome := by
    intro d hd
    rw [Numeral.digitValue?_sixteen]
    exact hhex d hd
  have hread : ∀ n, Numeral.read 16 0x110000 digits = .ok n
      ↔ digits ≠ [] ∧ Numeral.denoted 16 digits = n ∧ n < 0x110000 := by
    intro n
    have hsign := Numeral.head?_ne_plus fun d hd => Numeral.isAlphanum_of_hexValue? (hhex d hd)
    rw [Numeral.read_eq_ok_iff (by decide) (by decide) hsign]
    exact ⟨fun h => ⟨h.1, h.2.2⟩, fun h => ⟨h.1, hdigits, h.2⟩⟩
  constructor
  · intro h
    unfold scalar? at h
    split at h
    · next value hvalue =>
      split at h
      · next hvalid =>
        have hcode : (Char.ofNat value).toNat = value := by
          rw [Char.ofNat, dif_pos hvalid]
          rfl
        obtain ⟨hne, hdenoted, -⟩ := (hread value).1 hvalue
        obtain rfl := Option.some.inj h
        rw [hcode]
        exact ⟨hne, hdenoted⟩
      · exact absurd h (by simp)
    · exact absurd h (by simp)
  · rintro ⟨hne, hdenoted⟩
    have hvalid : c.toNat.isValidChar := c.valid
    rw [scalar?, (hread c.toNat).2 ⟨hne, hdenoted, codePoint_lt c⟩]
    simp only [if_pos hvalid, Char.ofNat_toNat]

theorem codePoint?_eq_some_iff {cs rest : List Char} {c : Char} :
    codePoint? cs = some (c, rest)
      ↔ ∃ digits, digits ≠ [] ∧ (∀ d ∈ digits, isHexDigit d)
          ∧ Numeral.denoted 16 digits = c.toNat ∧ cs = '\x7b' :: (digits ++ '\x7d' :: rest) := by
  constructor
  · intro h
    unfold codePoint? at h
    split at h
    · next tail =>
      split at h
      · next left hleft =>
        obtain ⟨d, hscalar, hpair⟩ := Option.map_eq_some_iff.1 h
        obtain ⟨rfl, rfl⟩ := Prod.mk.inj hpair
        have hhex : ∀ d ∈ tail.takeWhile isHexDigit, isHexDigit d :=
          List.all_eq_true.1 List.all_takeWhile
        obtain ⟨hne, hdenoted⟩ := (scalar?_eq_some_iff hhex).1 hscalar
        refine ⟨_, hne, hhex, hdenoted, ?_⟩
        rw [← hleft, List.takeWhile_append_dropWhile]
      · exact absurd h (by simp)
    · exact absurd h (by simp)
  · rintro ⟨digits, hne, hhex, hdenoted, rfl⟩
    have hbrace : ∀ d ∈ ('\x7d' :: rest).head?, ¬ isHexDigit d :=
      Text.forall_mem_head?_cons (by decide)
    rw [codePoint?, Text.dropWhile_run hhex hbrace, Text.takeWhile_run hhex hbrace]
    simp only [(scalar?_eq_some_iff hhex).2 ⟨hne, hdenoted⟩, Option.map_some]

theorem escaped?_of_letterMeaning? {letter c : Char} (h : letterMeaning? letter = some c)
    (rest : List Char) : escaped? (letter :: rest) = some (c, rest) := by
  unfold escaped?
  split
  · next heq =>
    -- `u` opens a code point and has no meaning of its own
    rw [(List.cons.inj heq).1] at h
    exact absurd h (by simp [letterMeaning?])
  · next heq =>
    obtain ⟨rfl, rfl⟩ := List.cons.inj heq
    rw [h, Option.map_some]
  · next heq => exact absurd heq (by simp)

/-- Any other character than the backslash stands for itself. -/
theorem character?_of_ne_backslash {c : Char} (h : c ≠ '\\') (rest : List Char) :
    character? (c :: rest) = some (c, rest) := by
  unfold character?
  split
  · next heq => exact absurd (List.cons.inj heq).1 h
  · next heq => rw [(List.cons.inj heq).1, (List.cons.inj heq).2]
  · next heq => exact absurd heq (by simp)

/-- A character is read exactly where the text opens with one of its spellings. -/
theorem character?_eq_some_iff {cs rest : List Char} {c : Char} :
    character? cs = some (c, rest) ↔ ∃ body, Grammar.Character c body ∧ cs = body ++ rest := by
  constructor
  · intro h
    unfold character? at h
    split at h
    · next tail =>
      unfold escaped? at h
      split at h
      · obtain ⟨digits, hne, hhex, hdenoted, rfl⟩ := codePoint?_eq_some_iff.1 h
        exact ⟨_, Grammar.Character.codePoint hne hhex hdenoted, by simp⟩
      · obtain ⟨d, hletter, hpair⟩ := Option.map_eq_some_iff.1 h
        obtain ⟨rfl, rfl⟩ := Prod.mk.inj hpair
        exact ⟨_, Grammar.Character.letter (letterMeaning?_eq_some_iff.1 hletter), rfl⟩
      · exact absurd h (by simp)
    · next d tail hbackslash =>
      obtain ⟨rfl, rfl⟩ := Prod.mk.inj (Option.some.inj h)
      exact ⟨[d], Grammar.Character.raw hbackslash, rfl⟩
    · exact absurd h (by simp)
  · rintro ⟨body, hbody, rfl⟩
    cases hbody with
    | raw hne => exact character?_of_ne_backslash hne rest
    | letter hletter => exact escaped?_of_letterMeaning? (letterMeaning?_eq_some_iff.2 hletter) rest
    | @codePoint digits _ hne hhex hdenoted =>
      have hread : codePoint? ('\x7b' :: (digits ++ ['\x7d'] ++ rest)) = some (c, rest) :=
        codePoint?_eq_some_iff.2 ⟨digits, hne, hhex, hdenoted, by rw [List.append_assoc]; rfl⟩
      exact hread

theorem delimited?_eq_some_iff {mark c : Char} {cs rest : List Char} :
    delimited? mark cs = some (c, rest)
      ↔ ∃ body, Grammar.Character c body ∧ cs = mark :: (body ++ mark :: rest) := by
  constructor
  · intro h
    unfold delimited? at h
    split at h
    · split at h
      · next hopening =>
        subst hopening
        split at h
        · next closing left hbody =>
          split at h
          · next hclosing =>
            subst hclosing
            obtain ⟨rfl, rfl⟩ := Prod.mk.inj (Option.some.inj h)
            obtain ⟨body, hcharacter, rfl⟩ := character?_eq_some_iff.1 hbody
            exact ⟨body, hcharacter, rfl⟩
          · exact absurd h (by simp)
        · exact absurd h (by simp)
      · exact absurd h (by simp)
    · exact absurd h (by simp)
  · rintro ⟨body, hcharacter, rfl⟩
    rw [delimited?, if_pos rfl, character?_eq_some_iff.2 ⟨body, hcharacter, rfl⟩]
    simp

/-- A quoted character is read exactly where the text opens with a complete one. -/
theorem quotedCharacter?_eq_some_iff {cs rest : List Char} {c : Char} :
    quotedCharacter? cs = some (c, rest)
      ↔ ∃ piece, Grammar.Quoted c piece ∧ cs = piece ++ rest := by
  rw [quotedCharacter?]
  constructor
  · intro h
    rcases Option.or_eq_some_iff.1 h with h | ⟨_, h⟩
    · obtain ⟨body, hcharacter, rfl⟩ := delimited?_eq_some_iff.1 h
      exact ⟨_, Grammar.Quoted.quotes (Or.inl rfl) hcharacter, by simp⟩
    · obtain ⟨body, hcharacter, rfl⟩ := delimited?_eq_some_iff.1 h
      exact ⟨_, Grammar.Quoted.quotes (Or.inr rfl) hcharacter, by simp⟩
  · rintro ⟨piece, hquoted, rfl⟩
    cases hquoted with
    | @quotes mark c body hmark hcharacter =>
      have hread : delimited? mark (mark :: (body ++ [mark]) ++ rest) = some (c, rest) :=
        delimited?_eq_some_iff.2 ⟨body, hcharacter, by simp⟩
      rcases hmark with rfl | rfl
      · rw [hread, Option.some_or]
      · -- a text that opens with a double quote opens with no single one
        have hsingle : delimited? '\'' ('\"' :: (body ++ ['\"']) ++ rest) = none := rfl
        rw [hsingle, Option.none_or, hread]

theorem quotedCharacter?_eq_none_iff {cs : List Char} :
    quotedCharacter? cs = none ↔ ¬ Grammar.OpensQuoted cs := by
  rw [Option.eq_none_iff_forall_ne_some]
  constructor
  · rintro h ⟨c, piece, rest, hquoted, hcs⟩
    exact h (c, rest) (quotedCharacter?_eq_some_iff.2 ⟨piece, hquoted, hcs⟩)
  · rintro h ⟨c, rest⟩ hread
    obtain ⟨piece, hquoted, hcs⟩ := quotedCharacter?_eq_some_iff.1 hread
    exact h ⟨c, piece, rest, hquoted, hcs⟩

/-! ## Operands -/

/-- What is read as an operand is one. -/
theorem Spelling.read?_sound {spelling : Spelling} {cs rest : List Char}
    (h : Spelling.read? cs = some (spelling, rest)) :
    ∃ piece, Grammar.Operand spelling piece rest ∧ cs = piece ++ rest := by
  unfold Spelling.read? at h
  split at h
  · next c left hquoted =>
    obtain ⟨rfl, rfl⟩ := Prod.mk.inj (Option.some.inj h)
    obtain ⟨piece, hpiece, rfl⟩ := quotedCharacter?_eq_some_iff.1 hquoted
    exact ⟨piece, Grammar.Operand.quoted hpiece, rfl⟩
  · next hquoted =>
    split at h
    · exact absurd h (by simp)
    · next hne =>
      obtain ⟨rfl, rfl⟩ := Prod.mk.inj (Option.some.inj h)
      have hrun : ∀ c ∈ cs.takeWhile isBare, isBare c := List.all_eq_true.1 List.all_takeWhile
      refine ⟨cs.takeWhile isBare,
        Grammar.Operand.bare hne (Grammar.forall_isBare_iff.1 hrun) ?_, ?_⟩
      · rw [List.takeWhile_append_dropWhile]
        exact quotedCharacter?_eq_none_iff.1 hquoted
      · rw [List.takeWhile_append_dropWhile]

/-- An operand is read if nothing behind it prolongs a bare run. -/
theorem Spelling.read?_complete {spelling : Spelling} {piece rest : List Char}
    (h : Grammar.Operand spelling piece rest) (hrest : ∀ c ∈ rest.head?, ¬ isBare c) :
    Spelling.read? (piece ++ rest) = some (spelling, rest) := by
  cases h with
  | quoted hquoted => rw [read?, quotedCharacter?_eq_some_iff.2 ⟨_, hquoted, rfl⟩]
  | bare hne hrun hopens =>
    have hbare := Grammar.forall_isBare_iff.2 hrun
    rw [read?, quotedCharacter?_eq_none_iff.2 hopens]
    simp only [Text.takeWhile_run hbare hrest, Text.dropWhile_run hbare hrest]

namespace Line

/-- What is read as a separator is one. -/
theorem separator?_sound {cs rest : List Char} (h : separator? cs = some rest) :
    ∃ separator, Grammar.Separator separator ∧ cs = separator ++ rest := by
  have hsplit : cs.takeWhile isGap ++ cs.dropWhile isGap = cs := List.takeWhile_append_dropWhile
  unfold separator? at h
  split at h
  · next tail htail =>
    obtain rfl := Option.some.inj h
    refine ⟨_, Grammar.Separator.comma (Grammar.gap_takeWhile cs) (Grammar.gap_takeWhile tail), ?_⟩
    rw [List.append_assoc, List.cons_append, List.takeWhile_append_dropWhile, ← htail, hsplit]
  · split at h
    · exact absurd h (by simp)
    · next hne =>
      obtain rfl := Option.some.inj h
      exact ⟨_, Grammar.Separator.gap (by simpa using hne) (Grammar.gap_takeWhile cs), hsplit.symm⟩

/-- A separator in front of a character that can be part of a bare run is read to its end. -/
theorem separator?_complete {separator cs : List Char} {c : Char}
    (h : Grammar.Separator separator) (hc : isBare c) :
    separator? (separator ++ c :: cs) = some (c :: cs) := by
  have hstop : ∀ d ∈ (c :: cs).head?, ¬ isGap d :=
    Text.forall_mem_head?_cons (not_isGap_of_isBare hc)
  cases h with
  | @comma before after hbefore hafter =>
    have hcomma : ∀ d ∈ (',' :: (after ++ c :: cs)).head?, ¬ isGap d :=
      Text.forall_mem_head?_cons (by decide)
    rw [separator?, List.append_assoc, List.cons_append,
      Text.dropWhile_run (Grammar.gap_iff.1 hbefore) hcomma]
    simp only [Text.dropWhile_run (Grammar.gap_iff.1 hafter) hstop]
  | gap hne hgap =>
    have hdrop := Text.dropWhile_run (Grammar.gap_iff.1 hgap) hstop
    have htake := Text.takeWhile_run (Grammar.gap_iff.1 hgap) hstop
    unfold separator?
    split
    · next rest hrest =>
      -- a comma behind the gap would be the bare character
      rw [hdrop] at hrest
      rw [(List.cons.inj hrest).1] at hc
      exact absurd hc (by decide)
    · rw [hdrop, htake, if_neg (by simpa using hne)]

theorem operand?_complete {spelling : Spelling} {separator piece rest : List Char}
    (hseparator : Grammar.Separator separator) (hpiece : Grammar.Operand spelling piece rest)
    (hrest : ∀ c ∈ rest.head?, ¬ isBare c) :
    operand? (separator ++ (piece ++ rest)) = some (spelling, rest) := by
  have hread := Spelling.read?_complete hpiece hrest
  obtain ⟨c, cs, rfl, hc⟩ := hpiece.exists_isBare
  rw [operand?, List.cons_append, separator?_complete hseparator hc, Option.bind_some]
  exact hread

/-- A text is an ending if nothing more is to be read behind its gap. -/
theorem ending_iff_isEnd {cs : List Char} : Grammar.Ending cs ↔ isEnd (cs.dropWhile isGap) := by
  have hsplit : cs.takeWhile isGap ++ cs.dropWhile isGap = cs := List.takeWhile_append_dropWhile
  have hgap := Grammar.gap_takeWhile cs
  constructor
  · intro h
    cases h with
    | gap hpiece =>
      have hdrop : (cs ++ []).dropWhile isGap = [] :=
        Text.dropWhile_run (Grammar.gap_iff.1 hpiece) (by simp)
      rw [List.append_nil] at hdrop
      rw [hdrop]
      rfl
    | @comment piece text hpiece =>
      have hsemicolon : ∀ d ∈ (';' :: text).head?, ¬ isGap d :=
        Text.forall_mem_head?_cons (by decide)
      rw [Text.dropWhile_run (Grammar.gap_iff.1 hpiece) hsemicolon]
      rfl
  · intro h
    cases hleft : cs.dropWhile isGap with
    | nil =>
      rw [hleft, List.append_nil] at hsplit
      rw [← hsplit]
      exact Grammar.Ending.gap hgap
    | cons c text =>
      rw [hleft] at h hsplit
      obtain rfl : c = ';' := beq_iff_eq.1 h
      rw [← hsplit]
      exact Grammar.Ending.comment hgap

theorem read?_of_isEnd {cs : List Char} (h : isEnd cs) : Spelling.read? cs = none := by
  cases cs with
  | nil => rfl
  | cons c cs =>
    obtain rfl : c = ';' := beq_iff_eq.1 h
    rfl

/-- In an ending there is no further operand. -/
theorem operand?_ending {ending : List Char} (h : Grammar.Ending ending) :
    operand? ending = none := by
  have hend := ending_iff_isEnd.1 h
  unfold operand? separator?
  split
  · next rest hrest =>
    rw [hrest] at hend
    exact absurd hend (by simp [isEnd])
  · split
    · rfl
    · exact read?_of_isEnd hend

/-- What is read as operands are operands. -/
theorem readOperands_sound (cs : List Char) :
    Grammar.Operands (readOperands cs).1 cs (readOperands cs).2 := by
  -- along the reader's own recursion, which goes on behind each operand it has read
  induction cs using readOperands.induct with
  | case1 cs h =>
    rw [readOperands_of_none h]
    exact Grammar.Operands.none
  | case2 cs spelling rest h _ ih =>
    obtain ⟨tail, hseparator, hspelling⟩ := Option.bind_eq_some_iff.1 h
    obtain ⟨separator, hset, rfl⟩ := separator?_sound hseparator
    obtain ⟨piece, hpiece, rfl⟩ := Spelling.read?_sound hspelling
    rw [readOperands_of_some h]
    exact Grammar.Operands.more hset hpiece ih

/-- Operands in front of an ending are read one by one, to the last. -/
theorem readOperands_complete {spellings : List Spelling} {text ending : List Char}
    (h : Grammar.Operands spellings text ending) (hending : Grammar.Ending ending) :
    readOperands text = (spellings, ending) := by
  -- along the derivation: what is derived behind an operand tells the reader where it ends
  induction h with
  | none => exact readOperands_of_none (operand?_ending hending)
  | more hseparator hpiece hoperands ih =>
    have hread := operand?_complete hseparator hpiece (hoperands.not_isBare_head? hending)
    rw [readOperands_of_some hread, ih hending]

/-! ## Lines -/

/-- A word behind a gap is read as the mnemonic, and what is behind it as operands. -/
theorem parse_append {lead name tail : List Char} (hlead : Grammar.Gap lead)
    (hname : IsAlphanumericRun name) (htail : ∀ c ∈ tail.head?, ¬ c.isAlphanum) :
    parse (lead ++ (name ++ tail))
      = if isEnd ((readOperands tail).2.dropWhile isGap) then .ok ⟨name, (readOperands tail).1⟩
        else .error ((readOperands tail).2.dropWhile isGap) := by
  obtain ⟨hne, halphanum⟩ := hname
  have hword : ∀ c ∈ (name ++ tail).head?, ¬ isGap c := by
    obtain ⟨c, cs, rfl⟩ := List.exists_cons_of_ne_nil hne
    refine Text.forall_mem_head?_cons ?_
    exact not_isGap_of_isBare (isBare_of_isAlphanum (halphanum c (by simp)))
  have hstart : (lead ++ (name ++ tail)).dropWhile isGap = name ++ tail :=
    Text.dropWhile_run (Grammar.gap_iff.1 hlead) hword
  have htake : (name ++ tail).takeWhile Char.isAlphanum = name :=
    Text.takeWhile_run halphanum htail
  have hdrop : (name ++ tail).dropWhile Char.isAlphanum = tail :=
    Text.dropWhile_run halphanum htail
  simp only [parse, hstart, htake, hdrop]

/-- What is read as a line is one. -/
theorem parse_sound {line : Line} {cs : List Char} (h : parse cs = .ok line) :
    Grammar.Derives line cs := by
  have hlead := Grammar.gap_takeWhile cs
  have hsplit : cs.takeWhile isGap ++ ((cs.dropWhile isGap).takeWhile Char.isAlphanum
      ++ (cs.dropWhile isGap).dropWhile Char.isAlphanum) = cs := by
    rw [List.takeWhile_append_dropWhile, List.takeWhile_append_dropWhile]
  simp only [parse] at h
  split at h
  · exact absurd h (by simp)
  · next hne =>
    split at h
    · next hend =>
      obtain rfl := Except.ok.inj h
      have hderives := Grammar.Derives.line hlead ⟨hne, List.all_eq_true.1 List.all_takeWhile⟩
        (readOperands_sound _) (ending_iff_isEnd.2 hend)
      rwa [hsplit] at hderives
    · exact absurd h (by simp)

/-- A line is read. -/
theorem parse_complete {line : Line} {cs : List Char} (h : Grammar.Derives line cs) :
    parse cs = .ok line := by
  cases h with
  | line hlead hname hoperands hending =>
    -- no letter or digit comes behind the mnemonic, as it would be part of a bare run
    have htail := fun c hc halphanum =>
      hoperands.not_isBare_head? hending c hc (isBare_of_isAlphanum halphanum)
    rw [parse_append hlead hname htail, readOperands_complete hoperands hending,
      if_pos (ending_iff_isEnd.1 hending)]

/-- **The lines that are read are those of the grammar, and the grammar is unambiguous.** Reading
a text gives a line exactly if the grammar derives the text from that line, and it derives no text
from two. -/
theorem parse_iff_derives (cs : List Char) :
    (∀ line, parse cs = .ok line ↔ Grammar.Derives line cs)
      ∧ ∀ first second, Grammar.Derives first cs → Grammar.Derives second cs → first = second := by
  refine ⟨fun line => ⟨parse_sound, parse_complete⟩, fun first second hfirst hsecond => ?_⟩
  -- a text derived from two lines would be read as both
  exact Except.ok.inj ((parse_complete hfirst).symm.trans (parse_complete hsecond))

/-- A quoted comma separates nothing. The quote behind it is closed by none before the comment, so
it is part of a bare operand, which is the only way to derive the text. -/
theorem parse_iff_derives_unclosed :
    ∃ line, Grammar.Derives line "out ',' 'a;'".toList
      ∧ (∀ other, Grammar.Derives other "out ',' 'a;'".toList → other = line)
      ∧ line.operands = [.quoted ',', .bare ['\'', 'a']] := by
  have hread : parse "out ',' 'a;'".toList
      = .ok ⟨['o', 'u', 't'], [.quoted ',', .bare ['\'', 'a']]⟩ := by
    with_unfolding_all rfl
  have hderives := ((parse_iff_derives _).1 _).1 hread
  exact ⟨_, hderives, fun other hother => (parse_iff_derives _).2 other _ hother hderives, rfl⟩

end Line

end Assembly

end WordMachine
