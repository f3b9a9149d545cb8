import WordMachine.Text.Escape
import WordMachine.Text.Extending
import WordMachine.Text.Unprintable

/-!
# Quoted characters

How a message names a character: between single quotes, as itself if it can be
seen there on its own, and escaped if not. Double quotes need no escape here, and
NUL has one.
-/

namespace WordMachine.Text

/-- The character between the quotes. -/
def quotedBody (c : Char) : String :=
  match c with
  | '\x00' => letterEscape '0'
  | '\t' => letterEscape 't'
  | '\r' => letterEscape 'r'
  | '\n' => letterEscape 'n'
  | '\'' => letterEscape '\''
  | '\\' => letterEscape '\\'
  | _ => if isExtending c || isUnprintable c then unicodeEscape c else String.singleton c

/-- The character in single quotes. -/
def quoted (c : Char) : String := "'" ++ quotedBody c ++ "'"

end WordMachine.Text
