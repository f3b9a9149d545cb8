/-!
# Control sequences

A terminal takes some characters as commands. `plain` is what is left of a text
when they are taken out: control characters other than tabs and line ends, and
whole sequences that an escape character starts.

A sequence goes on until a character that may end one of its kind. A tab or a line
end inside a sequence is kept. What follows it is kept too, up to the next control
character, where the sequence is taken up again.
-/

namespace WordMachine.Text

/-- The sequence that the next character belongs to. -/
inductive ControlMode
  /-- No sequence. -/
  | ground
  /-- After an escape character, which says nothing yet about the kind. -/
  | escape
  /-- An escape sequence of three or more characters. -/
  | intermediate
  /-- A control sequence, such as one that sets a colour. -/
  | control
  /-- The start of a device control string. -/
  | device
  /-- The parameters of a device control string. -/
  | deviceParameters
  /-- What may stand between these parameters and the string. -/
  | deviceIntermediate
  /-- A string for a device or an application. -/
  | string
  /-- A string for the operating system, such as a window title. -/
  | systemString
  deriving DecidableEq, Repr

namespace ControlMode

/-- Whether the character lays out text: a tab, a line end, a form feed or a carriage return. -/
def isLayout (c : Char) : Bool := c == '\t' || c == '\n' || c == '\x0c' || c == '\r'

/-- Whether a sequence in this mode lets layout characters through. -/
def passesLayout : ControlMode → Bool
  | ground | escape | intermediate | control => true
  | device | deviceParameters | deviceIntermediate | string | systemString => false

/-- Whether the character is kept. -/
def keeps (mode : ControlMode) (c : Char) : Bool :=
  if isLayout c then mode.passesLayout
  else mode == ground && ' ' ≤ c && c != '\x7f'

/-- Whether the character's bytes in UTF-8 hold the byte that ends a string. -/
def endsString (c : Char) : Bool := (String.utf8EncodeChar c).contains 0x9C

/-- The mode after an escape character and this one. -/
def afterEscape (c : Char) : ControlMode :=
  if ' ' ≤ c && c ≤ '/' then intermediate
  else if c == '[' then control
  else if c == ']' then systemString
  else if c == 'P' then device
  else if c == 'X' || c == '^' || c == '_' then string
  else if '0' ≤ c && c ≤ '~' then ground
  else escape

/-- The mode after a character ahead of a device string. There `<`, `=`, `>` and `?` lead to
`marked`, and a character without a meaning leaves `mode` as it is. -/
def inDevice (marked mode : ControlMode) (c : Char) : ControlMode :=
  if ' ' ≤ c && c ≤ '/' then deviceIntermediate
  else if '0' ≤ c && c ≤ ';' then deviceParameters
  else if '<' ≤ c && c ≤ '?' then marked
  else if '@' ≤ c && c ≤ '~' then string
  else mode

/-- The mode after a character. Escape, cancel and substitute have their meaning everywhere. -/
def next (mode : ControlMode) (c : Char) : ControlMode :=
  if c == '\x1b' then escape
  else if c == '\x18' || c == '\x1a' then ground
  else match mode with
    | ground => ground
    | escape => afterEscape c
    | intermediate => if '0' ≤ c && c ≤ '~' then ground else intermediate
    | control => if '@' ≤ c && c ≤ '~' then ground else control
    | device => inDevice deviceParameters device c
    | deviceParameters => inDevice string deviceParameters c
    | deviceIntermediate =>
      if '0' ≤ c && c ≤ '~' then string else deviceIntermediate
    | string => if '~' < c && endsString c then ground else string
    | systemString => if c == '\x07' then ground else systemString

end ControlMode

open ControlMode in
/-- What is kept of the characters that follow. While `keeping`, a sequence that is not finished
rests. A character beyond ASCII ends it. -/
def plainFrom (mode : ControlMode) (keeping : Bool) : List Char → List Char
  | [] => []
  | c :: cs =>
    if keeping && ground.keeps c then
      c :: plainFrom (if '\x7f' < c then ground else mode) true cs
    else if !keeping && mode.keeps c then c :: plainFrom (mode.next c) true cs
    else plainFrom (mode.next c) false cs

/-- The text without what a terminal takes as a command. -/
def plain (text : String) : String := String.ofList (plainFrom .ground false text.toList)

end WordMachine.Text
