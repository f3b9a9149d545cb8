import WordMachine.Proofs.Decoding
import WordMachine.Sweep

/-!
# Sweeping over encodings

Encodings delimit themselves. Where well formed instructions are encoded one behind the
other from an aligned address on, a sweep meets exactly these instructions, each at the
place it has come to, and goes on behind the last one as if it had started there.
-/

namespace WordMachine

namespace Instruction

/-- The same instruction at another address. -/
def moveTo (instruction : Instruction) (address : Address) : Instruction :=
  { instruction with address := address }

@[simp] theorem address_moveTo (instruction : Instruction) (address : Address) :
    (instruction.moveTo address).address = address := rfl

@[simp] theorem operation_moveTo (instruction : Instruction) (address : Address) :
    (instruction.moveTo address).operation = instruction.operation := rfl

@[simp] theorem operands_moveTo (instruction : Instruction) (address : Address) :
    (instruction.moveTo address).operands = instruction.operands := rfl

@[simp] theorem encode_moveTo (instruction : Instruction) (address : Address) :
    (instruction.moveTo address).encode = instruction.encode := rfl

theorem WellFormed.moveTo {instruction : Instruction} (h : instruction.WellFormed)
    (address : Address) : (instruction.moveTo address).WellFormed :=
  ⟨h.length_operands, h.operand⟩

theorem encode_ne_nil (instruction : Instruction) : instruction.encode ≠ [] := by
  refine List.ne_nil_of_length_pos ?_
  rw [length_encode]
  exact Nat.mul_pos (by decide) (by omega)

/-- Instructions moved so that they lie one behind the other from an address on. -/
def layOut (address : Address) : List Instruction → List Instruction
  | [] => []
  | instruction :: instructions =>
    instruction.moveTo address :: layOut (address + instruction.length) instructions

theorem map_layOut {α : Type} {f : Instruction → α}
    (hf : ∀ (instruction : Instruction) (address : Address),
      f (instruction.moveTo address) = f instruction)
    (address : Address) (instructions : List Instruction) :
    (layOut address instructions).map f = instructions.map f := by
  induction instructions generalizing address with
  | nil => rfl
  | cons instruction instructions ih => rw [layOut, List.map_cons, List.map_cons, hf, ih]

/-- Each instruction lies behind the encodings of those before it. -/
theorem getElem?_layOut {instructions : List Instruction}
    (h : ∀ instruction ∈ instructions, instruction.WellFormed) (address : Address) (k : Nat) :
    (layOut address instructions)[k]?
      = instructions[k]?.map
          (·.moveTo (address + ((instructions.take k).flatMap encode).length)) := by
  induction instructions generalizing address k with
  | nil => rfl
  | cons instruction instructions ih =>
    obtain ⟨hhead, htail⟩ := List.forall_mem_cons.1 h
    cases k with
    | zero => rfl
    | succ k =>
      have hsum : address + instruction.length + ((instructions.take k).flatMap encode).length
          = address + (((instruction :: instructions).take (k + 1)).flatMap encode).length := by
        rw [List.take_succ_cons, List.flatMap_cons, List.length_append, hhead.length_encode]
        exact congrArg Address.mk (Nat.add_assoc _ _ _)
      rw [layOut, List.getElem?_cons_succ, List.getElem?_cons_succ, ih htail, hsum]

end Instruction

namespace Sweep

/-- An encoding ahead is met as its instruction, and the sweep goes on behind it. -/
theorem items_encode_append {instruction : Instruction} (h : instruction.WellFormed)
    {address : Address} (haligned : address.isAligned) (rest : Image) :
    (Sweep.mk address (instruction.encode ++ rest)).items
      = ⟨address, .ok (instruction.moveTo address)⟩
          :: (Sweep.mk (address + instruction.length) rest).items := by
  have hresult : Instruction.ofBytes address (instruction.encode ++ rest)
      = .ok (instruction.moveTo address) :=
    Instruction.ofBytes_eq_ok_iff.2
      ⟨haligned, rfl, h.moveTo address, List.prefix_append _ _⟩
  have hitem : (Sweep.mk address (instruction.encode ++ rest)).item
      = ⟨address, .ok (instruction.moveTo address)⟩ := by
    rw [item, hresult]
  have hlength : (Item.mk address (.ok (instruction.moveTo address))).length
      = instruction.encode.length := h.length_encode.symm
  rw [items_of_ahead_ne_nil (List.append_ne_nil_of_left_ne_nil instruction.encode_ne_nil rest),
    advance, hitem, hlength, List.drop_left, Item.next, hlength, h.length_encode]

/-- **Encodings ahead are met one by one**, and the sweep goes on behind them. -/
theorem items_flatMap_encode {instructions : List Instruction}
    (h : ∀ instruction ∈ instructions, instruction.WellFormed) (address : Address)
    (haligned : address.isAligned) (rest : Image) :
    (Sweep.mk address (instructions.flatMap Instruction.encode ++ rest)).items
      = (Instruction.layOut address instructions).map
            (fun instruction => ⟨instruction.address, .ok instruction⟩)
          ++ (Sweep.mk (address + (instructions.flatMap Instruction.encode).length)
            rest).items := by
  induction instructions generalizing address with
  | nil => rfl
  | cons instruction instructions ih =>
    obtain ⟨hhead, htail⟩ := List.forall_mem_cons.1 h
    have hend : address + instruction.length + (instructions.flatMap Instruction.encode).length
        = address + ((instruction :: instructions).flatMap Instruction.encode).length := by
      rw [List.flatMap_cons, List.length_append, hhead.length_encode]
      exact congrArg Address.mk (Nat.add_assoc _ _ _)
    rw [List.flatMap_cons, List.append_assoc, items_encode_append hhead haligned,
      ih htail _ (Address.isAligned_add_length haligned instruction), hend]
    rfl

end Sweep

/-- The sweep of an image that consists of encodings. -/
theorem Image.sweep_flatMap_encode {instructions : List Instruction}
    (h : ∀ instruction ∈ instructions, instruction.WellFormed) :
    Image.sweep (instructions.flatMap Instruction.encode) ⟨0⟩
      = (Instruction.layOut ⟨0⟩ instructions).map
          fun instruction => ⟨instruction.address, .ok instruction⟩ := by
  have hitems := Sweep.items_flatMap_encode h ⟨0⟩ rfl []
  have hbehind : ∀ address, (Sweep.mk address []).items = [] :=
    fun address => Sweep.items_of_ahead_eq_nil rfl
  rw [hbehind, List.append_nil, List.append_nil] at hitems
  exact hitems

end WordMachine
