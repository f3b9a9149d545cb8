import WordMachine.Text.Numeral

/-!
# Spellings of operands

An operand is written as one character between quotes of either kind, or as a bare
run of characters. The quoted form is tried first, and a quote that opens none is
part of a bare run. Between quotes a backslash starts an escape; every other
character stands for itself, the quote included.

A reader takes the characters that are left of a line and answers with what it has
read and what is left after it.
-/

namespace WordMachine.Assembly

/-- An operand as written. What it means is settled by the slot it fills. -/
inductive Spelling
  /-- A character between quotes, its escape resolved. -/
  | quoted (c : Char)
  /-- A run of characters without quotes around it. -/
  | bare (text : List Char)
  deriving DecidableEq, Repr

/-! ## Escapes -/

/-- The character that a backslash and this letter stand for. -/
def letterMeaning? : Char → Option Char
  | 'n' => some '\n'
  | 'r' => some '\r'
  | 't' => some '\t'
  | '0' => some '\x00'
  | '\\' => some '\\'
  | '\'' => some '\''
  | '\"' => some '\"'
  | _ => none

/-- Whether the character is an ASCII digit of base sixteen. -/
def isHexDigit (c : Char) : Bool := (Numeral.hexValue? c).isSome

/-- The character with the code point that the digits denote. Surrogates are no characters. -/
def scalar? (digits : List Char) : Option Char :=
  match Numeral.read 16 0x110000 digits with
  | .ok value => if value.isValidChar then some (Char.ofNat value) else none
  | .error _ => none

/-- Reads a code point in braces. -/
def codePoint? : List Char → Option (Char × List Char)
  | '\x7b' :: cs =>
    match cs.dropWhile isHexDigit with
    | '\x7d' :: rest => (scalar? (cs.takeWhile isHexDigit)).map (·, rest)
    | _ => none
  | _ => none

/-- Reads what follows a backslash. -/
def escaped? : List Char → Option (Char × List Char)
  | 'u' :: cs => codePoint? cs
  | letter :: cs => (letterMeaning? letter).map (·, cs)
  | [] => none

/-! ## Quoted and bare operands -/

/-- Reads one character, escaped or not. -/
def character? : List Char → Option (Char × List Char)
  | '\\' :: cs => escaped? cs
  | c :: cs => some (c, cs)
  | [] => none

/-- Reads a character between two of these marks. -/
def delimited? (mark : Char) : List Char → Option (Char × List Char)
  | opening :: body =>
    if opening = mark then
      match character? body with
      | some (c, closing :: rest) => if closing = mark then some (c, rest) else none
      | _ => none
    else none
  | [] => none

/-- Reads a character between quotes of either kind. -/
def quotedCharacter? (cs : List Char) : Option (Char × List Char) :=
  (delimited? '\'' cs).or (delimited? '\"' cs)

/-- Whether the character can be part of a bare run. -/
def isBare (c : Char) : Bool := c != ' ' && c != '\t' && c != ',' && c != ';'

/-- Reads the spelling of an operand. -/
def Spelling.read? (cs : List Char) : Option (Spelling × List Char) :=
  match quotedCharacter? cs with
  | some (c, rest) => some (.quoted c, rest)
  | none =>
    match cs.takeWhile isBare with
    | [] => none
    | text => some (.bare text, cs.dropWhile isBare)

/-! ## Readers get on -/

theorem codePoint?_length {cs rest : List Char} {c : Char} (h : codePoint? cs = some (c, rest)) :
    rest.length < cs.length := by
  unfold codePoint? at h
  split at h
  · next tail =>
    split at h
    · next left hleft =>
      have := (List.dropWhile_suffix (p := isHexDigit) (l := tail)).length_le
      simp only [Option.map_eq_some_iff, Prod.mk.injEq] at h
      obtain ⟨_, _, _, rfl⟩ := h
      simp only [hleft, List.length_cons] at this ⊢
      omega
    · simp at h
  · simp at h

theorem escaped?_length {cs rest : List Char} {c : Char} (h : escaped? cs = some (c, rest)) :
    rest.length < cs.length := by
  unfold escaped? at h
  split at h
  · have := codePoint?_length h
    simp only [List.length_cons]
    omega
  · simp only [Option.map_eq_some_iff, Prod.mk.injEq] at h
    obtain ⟨_, _, _, rfl⟩ := h
    simp
  · simp at h

theorem character?_length {cs rest : List Char} {c : Char} (h : character? cs = some (c, rest)) :
    rest.length < cs.length := by
  unfold character? at h
  split at h
  · have := escaped?_length h
    simp only [List.length_cons]
    omega
  · simp only [Option.some.injEq, Prod.mk.injEq] at h
    obtain ⟨_, rfl⟩ := h
    simp
  · simp at h

theorem delimited?_length {mark c : Char} {cs rest : List Char}
    (h : delimited? mark cs = some (c, rest)) : rest.length < cs.length := by
  unfold delimited? at h
  split at h
  · split at h
    · split at h
      · next hbody =>
        have := character?_length hbody
        split at h
        · simp only [Option.some.injEq, Prod.mk.injEq] at h
          obtain ⟨_, rfl⟩ := h
          simp only [List.length_cons] at this ⊢
          omega
        · simp at h
      · simp at h
    · simp at h
  · simp at h

theorem quotedCharacter?_length {c : Char} {cs rest : List Char}
    (h : quotedCharacter? cs = some (c, rest)) : rest.length < cs.length := by
  unfold quotedCharacter? at h
  rcases Option.or_eq_some_iff.1 h with h | ⟨_, h⟩ <;> exact delimited?_length h

theorem Spelling.read?_length {spelling : Spelling} {cs rest : List Char}
    (h : Spelling.read? cs = some (spelling, rest)) : rest.length < cs.length := by
  unfold Spelling.read? at h
  split at h
  · next hquoted =>
    simp only [Option.some.injEq, Prod.mk.injEq] at h
    obtain ⟨_, rfl⟩ := h
    exact quotedCharacter?_length hquoted
  · split at h
    · simp at h
    · next hbare =>
      simp only [Option.some.injEq, Prod.mk.injEq] at h
      obtain ⟨_, rfl⟩ := h
      have hparts := congrArg List.length (List.takeWhile_append_dropWhile (p := isBare) (l := cs))
      have := List.length_pos_iff.2 hbare
      simp only [List.length_append] at hparts
      omega

end WordMachine.Assembly
