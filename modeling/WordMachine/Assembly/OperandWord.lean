import WordMachine.Assembly.Error
import WordMachine.Assembly.Spelling
import WordMachine.Operation
import WordMachine.Text.Blank
import WordMachine.Text.Quoted

/-!
# The word of an operand

The slot that an operand fills gives its spelling a meaning. A register is a
register in every slot. A number is written as a byte address where the slot holds
an address, and is halved there. A character slot also takes a single character,
bare or quoted, and no other slot takes a quoted one.
-/

namespace WordMachine.Assembly

/-- Numbers from here on are not read as numbers at all. -/
def numeralLimit : Nat := UInt32.size

/-- The number that the text denotes: hexadecimal after `0x` or `0X`, otherwise decimal digits. -/
def numeral? : List Char → Option Nat
  | '0' :: 'x' :: digits => (Numeral.read 16 numeralLimit digits).toOption
  | '0' :: 'X' :: digits => (Numeral.read 16 numeralLimit digits).toOption
  | digits =>
    if digits.all Char.isDigit then (Numeral.read 10 numeralLimit digits).toOption else none

/-- The digits of a text that is written like a register: `R` and decimal digits. -/
def registerDigits? : List Char → Option (List Char)
  | 'R' :: digits => if !digits.isEmpty && digits.all Char.isDigit then some digits else none
  | _ => none

/-- The register with the number that the digits denote. -/
def registerNumbered? (digits : List Char) : Option Register :=
  (Numeral.read 10 Register.count digits).toOption.bind Register.ofIndex?

/-- The word for a number written in a slot of this kind. -/
def literalWord (index : Nat) (kind : SlotKind) (number : Nat) : Except LineError Word :=
  if kind.isAddress && number % Word.size != 0 then .error (.misalignedAddress index number)
  else
    let value := if kind.isAddress then number / Word.size else number
    if value ≤ Word.literalMax.toNat then .ok (UInt16.ofNat value)
    else .error (.literalOutOfRange index number)

/-- The word for a character. -/
def characterWord (index : Nat) (c : Char) : Except LineError Word :=
  literalWord index .char c.toNat

/-- Whether the character is a quote of either kind. -/
def isQuote (c : Char) : Bool := c == '\'' || c == '\"'

/-- The word for a bare run of characters. A character slot takes a single character even if quotes
are left standing around it. -/
def bareWord (index : Nat) (kind : SlotKind) (text : List Char) : Except LineError Word :=
  match registerDigits? text with
  | some digits =>
    match registerNumbered? digits with
    | some register => .ok register.toWord
    | none => .error (.invalidRegister index (String.ofList text))
  | none =>
    if kind.requiresRegister then .error (.expectedRegister index (String.ofList text))
    else match numeral? text with
      | some number => literalWord index kind number
      | none =>
        match kind.isChar, Text.trimWhile isQuote text with
        | true, [c] => characterWord index c
        | _, _ => .error (.unparsableOperand index (String.ofList text))

/-- The word for a quoted character. -/
def quotedWord (index : Nat) (kind : SlotKind) (c : Char) : Except LineError Word :=
  if kind.requiresRegister then .error (.expectedRegister index (Text.quoted c))
  else if kind.isChar then characterWord index c
  else .error (.unparsableOperand index (Text.quoted c))

/-- The word that a spelling denotes in a slot of this kind. -/
def Spelling.word (index : Nat) (kind : SlotKind) : Spelling → Except LineError Word
  | .quoted c => quotedWord index kind c
  | .bare text => bareWord index kind text

/-- The words for the operands from slot `index` on. The first operand without one decides. -/
def operandWords (index : Nat) : List SlotKind → List Spelling → Except LineError (List Word)
  | kind :: kinds, spelling :: spellings => do
    let word ← spelling.word index kind
    let words ← operandWords (index + 1) kinds spellings
    return word :: words
  | _, _ => return []

end WordMachine.Assembly
