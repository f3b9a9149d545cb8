import WordMachine.ControlFlow
import WordMachine.Disassembly
import WordMachine.Lifting
import WordMachine.Sweep
import WordMachine.Text.Table

/-!
# Reports on images

Two reports show the items of a sweep: a table of the instructions with their words
and edges, and a list of the instructions with what they are lifted to. An item
without an instruction shows the reason instead.
-/

namespace WordMachine.CommandLine

/-- The part of an image that a report covers: at most `count` items from `start` on. -/
structure Range where
  start : Address
  count : Option Nat
  deriving DecidableEq, Repr

/-- The items of the image that the range covers. -/
def Range.items (range : Range) (image : Image) : List Item :=
  let items := image.sweep range.start
  match range.count with
  | none => items
  | some count => items.take count

/-! ## The table of instructions -/

/-- The words of an instruction, each with four digits. -/
def wordsCell (instruction : Instruction) : String :=
  " ".intercalate
    (instruction.words.map fun word => Text.padLeft '0' 4 (Numeral.lowerHex word.toNat))

/-- The edges of an instruction. -/
def edgesCell (instruction : Instruction) : String :=
  ", ".intercalate (instruction.edges.map Edge.text)

/-- The cells of an item. -/
def row (item : Item) : List String :=
  match item.result with
  | .ok instruction =>
    [item.address.text, wordsCell instruction, instruction.text, edgesCell instruction]
  | .error error => [item.address.text, "", "??", error.message]

/-- The table of some items. -/
def table (items : List Item) : Text.Table where
  columns := [⟨"Address", .right⟩, ⟨"Words", .left⟩, ⟨"Instruction", .left⟩, ⟨"Edges", .left⟩]
  rows := items.map row

/-- The lines of the table report. -/
def disassemblyLines (image : Image) (range : Range) : List String :=
  (table (range.items image)).lines

/-! ## The list of lifted instructions -/

/-- The lines on an item: the instruction, and below it what it is lifted to. -/
def liftedLines (item : Item) : List String :=
  match item.result with
  | .ok instruction =>
    (item.address.text ++ "  " ++ instruction.text)
      :: instruction.lift.statements.map fun statement => "          " ++ statement.text
  | .error error => [item.address.text ++ "  ?? " ++ error.message]

/-- The lines of the lifting report. -/
def liftingLines (image : Image) (range : Range) : List String :=
  (range.items image).flatMap liftedLines

end WordMachine.CommandLine
