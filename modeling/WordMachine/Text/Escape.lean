import WordMachine.Text.Numeral

/-!
# Escapes

A character is written as itself, as a backslash and a letter, or as `\u` and its
code point in braces. What `escape` writes is printable ASCII and can stand between
quotes of either kind.
-/

namespace WordMachine.Text

/-- A backslash, `u`, and the code point in braces, in small hexadecimal. -/
def unicodeEscape (c : Char) : String := "\\u\x7b" ++ Numeral.lowerHex c.toNat ++ "\x7d"

/-- A backslash and one more character. -/
def letterEscape (letter : Char) : String := String.ofList ['\\', letter]

/-- Whether the character is a space or a visible ASCII character. -/
def isPrintableAscii (c : Char) : Bool := ' ' ≤ c && c ≤ '~'

/-- Writes a character in printable ASCII so that it can stand between quotes. -/
def escape (c : Char) : String :=
  match c with
  | '\t' => letterEscape 't'
  | '\r' => letterEscape 'r'
  | '\n' => letterEscape 'n'
  | '\'' => letterEscape '\''
  | '\"' => letterEscape '\"'
  | '\\' => letterEscape '\\'
  | _ => if isPrintableAscii c then String.singleton c else unicodeEscape c

end WordMachine.Text
