import WordMachine.Assembly.Program
import WordMachine.Disassembly
import WordMachine.Sweep

/-!
# Listings of images

The instructions of an image, as the sweep from its start finds them, make a
listing in assembly. Assembling that listing again drops whatever was not an
instruction.
-/

namespace WordMachine

/-- The instruction the item shows, if it shows one. -/
def Item.instruction? (item : Item) : Option Instruction := item.result.toOption

namespace Image

/-- The instructions that a sweep from the start finds. -/
def instructions (image : Image) : List Instruction :=
  (image.sweep ⟨0⟩).filterMap Item.instruction?

/-- The text of each of these instructions. -/
def listing (image : Image) : List String := image.instructions.map Instruction.text

/-- Assembles the image's listing, one instruction a line. -/
def reassemble (image : Image) : Except Assembly.ProgramError Image :=
  Assembly.assembleProgram ("\n".intercalate image.listing)

end Image

end WordMachine
