import WordMachine.Decoding

/-!
# Sweeps

A sweep visits an image from an address to the end. At each place it meets either
an instruction, and goes on behind it, or the reason there is none, and goes on at
the next word. It keeps the bytes it has still to visit, so a step looks at what is
ahead and at nothing else.
-/

namespace WordMachine

/-- What a sweep meets at an address. -/
structure Item where
  address : Address
  result : Except DecodeError Instruction

namespace Item

/-- The bytes the item takes: those of the instruction, or a word if there is none. -/
def length (item : Item) : Nat :=
  match item.result with
  | .ok instruction => instruction.length
  | .error _ => Word.size

/-- The address at which the sweep goes on. -/
def next (item : Item) : Address := item.address + item.length

/-- Every item takes some bytes, so a sweep gets on. -/
theorem length_pos (item : Item) : 0 < item.length := by
  unfold length
  split
  · exact Nat.mul_pos (by decide) (by omega)
  · decide

end Item

/-- A place in an image and the bytes from there on. -/
structure Sweep where
  position : Address
  ahead : Image
  deriving DecidableEq, Repr

namespace Sweep

/-- The sweep that visits an image from an address on. -/
def start (image : Image) (address : Address) : Sweep := ⟨address, image.suffix address⟩

/-- The item at the place the sweep has come to. -/
def item (sweep : Sweep) : Item := ⟨sweep.position, Instruction.ofBytes sweep.position sweep.ahead⟩

/-- The sweep behind that item. -/
def advance (sweep : Sweep) : Sweep := ⟨sweep.item.next, sweep.ahead.drop sweep.item.length⟩

/-- One step: the item met and the sweep that is left, unless all bytes have been visited. -/
def next? (sweep : Sweep) : Option (Item × Sweep) :=
  if sweep.ahead.isEmpty then none else some (sweep.item, sweep.advance)

/-- All items in order. -/
def items (sweep : Sweep) : List Item :=
  if sweep.ahead.isEmpty then [] else sweep.item :: sweep.advance.items
termination_by sweep.ahead.length
decreasing_by
  rename_i h
  have := sweep.item.length_pos
  have : sweep.ahead ≠ [] := by simpa using h
  have := List.length_pos_iff.2 this
  simp only [advance, List.length_drop]
  omega

theorem items_of_ahead_eq_nil {sweep : Sweep} (h : sweep.ahead = []) : sweep.items = [] := by
  rw [items, h]
  rfl

theorem items_of_ahead_ne_nil {sweep : Sweep} (h : sweep.ahead ≠ []) :
    sweep.items = sweep.item :: sweep.advance.items := by
  rw [items, if_neg (by simpa using h)]

/-- Induction along a run: from the place behind the next item to the place in front of it. -/
theorem along {motive : Sweep → Prop} (finished : ∀ sweep, sweep.ahead = [] → motive sweep)
    (onward : ∀ sweep, sweep.ahead ≠ [] → motive sweep.advance → motive sweep) (sweep : Sweep) :
    motive sweep := by
  induction sweep using items.induct with
  | case1 sweep h => exact finished sweep (List.isEmpty_iff.1 h)
  | case2 sweep h ih => exact onward sweep (mt List.isEmpty_iff.2 h) ih

/-- The items are what the steps meet one after the other. -/
theorem items_eq_next? (sweep : Sweep) :
    sweep.items = match sweep.next? with
      | none => []
      | some (item, rest) => item :: rest.items := by
  by_cases h : sweep.ahead = []
  · simp [items_of_ahead_eq_nil h, next?, h]
  · simp [items_of_ahead_ne_nil h, next?, h]

end Sweep

/-- The items of the sweep of an image from an address on. -/
def Image.sweep (image : Image) (address : Address) : List Item :=
  (Sweep.start image address).items

end WordMachine
