/-!
# Padding

Text is brought to a width by adding one character on the left or on the right.
Text that is already as wide stays as it is.
-/

namespace WordMachine.Text

/-- Adds `fill` on the left until the text has at least `width` characters. -/
def padLeft (fill : Char) (width : Nat) (text : String) : String :=
  String.ofList (List.replicate (width - text.length) fill) ++ text

/-- Adds `fill` on the right until the text has at least `width` characters. -/
def padRight (fill : Char) (width : Nat) (text : String) : String :=
  text ++ String.ofList (List.replicate (width - text.length) fill)

end WordMachine.Text
