import WordMachine.Proofs.ControlFlow
import WordMachine.Proofs.Reassembly

/-!
# Which instructions can be lifted

Lifting looks at one operand for each slot, and only at its word. It gives up when a slot
has no operand, when the word there means nothing, or when a register is written through the
slot and the word is a number. Nothing else makes it give up, in whatever order an operation
takes its operands, and no operation overlooks any of this.

Assembly leaves one such instruction: it takes a number where `rmem` has the register it
reads into, since that slot allows an address too.
-/

namespace WordMachine

open Lifted

/-! ## What a slot can express -/

/-- Why the operand in a slot of this kind cannot be lifted. -/
inductive Instruction.StuckAt (instruction : Instruction) (slot : Nat) (kind : SlotKind) : Prop
  /-- There is no operand. -/
  | missing (h : instruction.operand? slot = none)
  /-- The word means nothing. -/
  | meaningless {operand : Operand} (h : instruction.operand? slot = some operand)
    (hword : Word.registerMax < operand.word)
  /-- A register is written through the slot, and the word is a number. -/
  | misplaced {operand : Operand} (h : instruction.operand? slot = some operand)
    (hkind : kind.isRegister) (hword : operand.word ≤ Word.literalMax)

namespace Operand

variable {operand : Operand}

theorem isSome_value?_iff : operand.value?.isSome ↔ operand.word ≤ Word.registerMax := by
  constructor
  · intro h
    rcases Word.meaning_cases operand.word with ⟨hle, _⟩ | ⟨register, hword, _⟩ | ⟨_, hmeaning⟩
    · exact UInt16.le_trans hle (by decide)
    · rw [hword]
      exact register.toWord_bounds.2
    · rw [value?, meaning, hmeaning] at h
      exact absurd h (by simp)
  · intro h
    obtain ⟨value, hvalue⟩ := exists_value? h
    rw [hvalue]
    rfl

/-- An operand has an address if it has a value. -/
theorem isSome_address? : operand.address?.isSome = operand.value?.isSome := by
  unfold address? value?
  cases operand.meaning <;> rfl

/-- An operand is a place to go to if it has a value. -/
theorem isSome_target? : operand.target?.isSome = operand.value?.isSome := by
  unfold target?
  cases hliteral : operand.literalAddress? with
  | none => rw [Option.isSome_map, isSome_address?]
  | some address =>
    unfold literalAddress? at hliteral
    split at hliteral
    · next h =>
      rw [value?, meaning_of_isLiteral h]
      rfl
    · exact absurd hliteral (by simp)

theorem isSome_register?_iff :
    operand.register?.isSome
      ↔ operand.word ≤ Word.registerMax ∧ ¬ operand.word ≤ Word.literalMax := by
  constructor
  · intro h
    obtain ⟨register, hregister⟩ := Option.isSome_iff_exists.1 h
    rw [Register.ofWord?_eq_some_iff.1 hregister]
    exact ⟨register.toWord_bounds.2, register.not_toWord_le_literalMax⟩
  · rintro ⟨hmax, hliteral⟩
    rcases Word.meaning_cases operand.word with ⟨hle, _⟩ | ⟨register, hword, _⟩ | ⟨hlt, _⟩
    · exact absurd hle hliteral
    · rw [register?, hword, Register.ofWord?_toWord]
      rfl
    · exact absurd hmax (UInt16.not_le.2 hlt)

end Operand

namespace Instruction

variable {instruction : Instruction} {slot : Nat} {kind : SlotKind}

/-- What is read through a slot is there if the slot has an operand that gives it. -/
theorem isSome_bind_iff {α : Type} {read : Operand → Option α} :
    ((instruction.operand? slot).bind read).isSome
      ↔ ∃ operand, instruction.operand? slot = some operand ∧ (read operand).isSome := by
  cases instruction.operand? slot with
  | none => simp
  | some operand => simp

theorem not_stuckAt_iff :
    ¬ instruction.StuckAt slot kind ↔ ∃ operand, instruction.operand? slot = some operand
      ∧ operand.word ≤ Word.registerMax
      ∧ (kind.isRegister → ¬ operand.word ≤ Word.literalMax) := by
  constructor
  · intro h
    cases hoperand : instruction.operand? slot with
    | none => exact absurd (.missing hoperand) h
    | some operand =>
      refine ⟨operand, rfl, ?_, fun hkind hword => h (.misplaced hoperand hkind hword)⟩
      exact UInt16.not_lt.1 fun hword => h (.meaningless hoperand hword)
  · rintro ⟨operand, hoperand, hmax, hkind⟩ h
    cases h with
    | missing hnone => exact absurd (hnone.symm.trans hoperand) (by simp)
    | meaningless hsome hword =>
      obtain rfl := Option.some.inj (hsome.symm.trans hoperand)
      exact UInt16.not_le.2 hword hmax
    | misplaced hsome hregister hword =>
      obtain rfl := Option.some.inj (hsome.symm.trans hoperand)
      exact hkind hregister hword

/-! ## Readers of a slot -/

theorem not_stuckAt_iff_destination? (hkind : kind.isRegister) :
    ¬ instruction.StuckAt slot kind ↔ (instruction.destination? slot).isSome := by
  simp only [destination?, isSome_bind_iff, not_stuckAt_iff, Operand.isSome_register?_iff, hkind,
    true_implies]

theorem not_stuckAt_iff_value? (hkind : kind.isRegister = false) :
    ¬ instruction.StuckAt slot kind ↔ (instruction.value? slot).isSome := by
  simp only [value?, isSome_bind_iff, not_stuckAt_iff, Operand.isSome_value?_iff, hkind,
    Bool.false_eq_true, false_implies, and_true]

theorem isSome_address? :
    (instruction.address? slot).isSome ↔ (instruction.value? slot).isSome := by
  simp only [value?, address?, isSome_bind_iff, Operand.isSome_address?]

theorem isSome_target? :
    (instruction.target? slot).isSome ↔ (instruction.value? slot).isSome := by
  simp only [value?, target?, isSome_bind_iff, Operand.isSome_target?]

/-- What takes two parts is there if both parts are. -/
theorem isSome_both_iff {α β γ : Type} {first : Option α} {second : Option β} {f : α → β → γ} :
    (first.bind fun a => second.bind fun b => some (f a b)).isSome
      ↔ first.isSome ∧ second.isSome := by
  cases first <;> cases second <;> simp

/-! ## Slots in order -/

theorem forall_getElem?_cons_iff {P : Nat → SlotKind → Prop} {kinds : List SlotKind} :
    (∀ slot found, (kind :: kinds)[slot]? = some found → P slot found)
      ↔ P 0 kind ∧ ∀ slot found, kinds[slot]? = some found → P (slot + 1) found := by
  constructor
  · intro h
    exact ⟨h 0 kind rfl, fun slot found hfound => h (slot + 1) found hfound⟩
  · rintro ⟨hhead, htail⟩ slot found hfound
    cases slot with
    | zero =>
      obtain rfl := Option.some.inj hfound
      exact hhead
    | succ slot => exact htail slot found hfound

/-- Nothing stands in the way in any slot. -/
def IsLiftable (instruction : Instruction) : Prop :=
  ∀ slot kind, instruction.operation.slots[slot]? = some kind → ¬ instruction.StuckAt slot kind

/-- **An operation can be expressed if nothing stands in the way in any of its slots.** -/
theorem isSome_statement?_iff : instruction.statement?.isSome ↔ instruction.IsLiftable := by
  cases hoperation : instruction.operation <;>
    simp (disch := decide) only [statement?, IsLiftable, hoperation, Operation.slots,
      forall_getElem?_cons_iff, List.getElem?_nil, reduceCtorEq, false_implies, implies_true,
      not_stuckAt_iff_destination?, not_stuckAt_iff_value?, isSome_address?, isSome_target?,
      assign?, binary?, Option.bind_eq_bind, Option.pure_def, isSome_both_iff, Option.isSome_map,
      Option.isSome_some, and_true, Nat.reduceAdd]

/-- The statement for what cannot be expressed never stands for something else. -/
theorem statement?_ne_unimplemented : instruction.statement? ≠ some .unimplemented := by
  intro h
  cases hoperation : instruction.operation <;>
    simp [statement?, hoperation, assign?, Option.bind_eq_some_iff] at h

theorem lift_eq_unimplemented_iff :
    instruction.lift.statements = [.unimplemented] ↔ ¬ instruction.IsLiftable := by
  rw [← isSome_statement?_iff]
  cases hstatement : instruction.statement? with
  | none => simp [lift, hstatement]
  | some statement =>
    have hne : statement ≠ .unimplemented := fun h => statement?_ne_unimplemented (h ▸ hstatement)
    simp [lift, hstatement, hne]

/-! ## What lifting depends on -/

variable {other : Instruction}

/-- A reader that looks at the word only gives the same for operands with the same word. -/
theorem bind_operand?_congr {α : Type} {read : Operand → Option α}
    (hread : ∀ operand, read operand = read ⟨0, .value, operand.word⟩)
    (h : (instruction.operand? slot).map Operand.word = (other.operand? slot).map Operand.word) :
    (instruction.operand? slot).bind read = (other.operand? slot).bind read := by
  have hword : ∀ found : Option Operand,
      found.bind read = (found.map Operand.word).bind fun word => read ⟨0, .value, word⟩ := by
    intro found
    cases found with
    | none => rfl
    | some operand => exact hread operand
  rw [hword, hword, h]

/-- **Lifting depends on the words in the slots only**, besides the address and the operation. -/
theorem lift_congr (haddress : instruction.address = other.address)
    (hoperation : instruction.operation = other.operation)
    (hwords : ∀ slot, slot < instruction.operation.arity →
      (instruction.operand? slot).map Operand.word = (other.operand? slot).map Operand.word) :
    instruction.lift = other.lift := by
  have hdestination : ∀ slot, slot < instruction.operation.arity →
      instruction.destination? slot = other.destination? slot :=
    fun slot hslot => bind_operand?_congr (fun _ => rfl) (hwords slot hslot)
  have hvalue : ∀ slot, slot < instruction.operation.arity →
      instruction.value? slot = other.value? slot :=
    fun slot hslot => bind_operand?_congr (fun _ => rfl) (hwords slot hslot)
  have haddresses : ∀ slot, slot < instruction.operation.arity →
      instruction.address? slot = other.address? slot :=
    fun slot hslot => bind_operand?_congr (fun _ => rfl) (hwords slot hslot)
  have htarget : ∀ slot, slot < instruction.operation.arity →
      instruction.target? slot = other.target? slot :=
    fun slot hslot => bind_operand?_congr (fun _ => rfl) (hwords slot hslot)
  have hnext : instruction.next = other.next := by
    rw [next, next, length, length, haddress, hoperation]
  have hstatement : instruction.statement? = other.statement? := by
    cases hcase : instruction.operation <;> rw [hcase] at hdestination hvalue haddresses htarget <;>
      simp (disch := decide) only [statement?, ← hoperation, hcase, assign?, binary?, hdestination,
        hvalue, haddresses, htarget, hnext]
  rw [lift, lift, hstatement, length, length, hoperation]

/-- Operands beyond the slots do not count, nor do the indices and the kinds that operands carry. -/
theorem lift_eq_of_take_words (haddress : instruction.address = other.address)
    (hoperation : instruction.operation = other.operation)
    (hwords : (instruction.operands.map Operand.word).take instruction.operation.arity
      = (other.operands.map Operand.word).take instruction.operation.arity) :
    instruction.lift = other.lift := by
  apply lift_congr haddress hoperation
  intro slot hslot
  have hget := congrArg (·[slot]?) hwords
  simpa only [operand?, List.getElem?_take_of_lt hslot, List.getElem?_map] using hget

end Instruction

/-! ## What assembly produces -/

namespace Instruction

variable {instruction : Instruction}

/-- The instruction is `rmem`, and where the register it reads into stands is a number. -/
def LoadsToNumber (instruction : Instruction) : Prop :=
  instruction.operation = .rmem
    ∧ ∃ operand, instruction.operand? 0 = some operand ∧ operand.word ≤ Word.literalMax

/-- **Of what assembly can produce, lifting gives up on `rmem` into a number only.** -/
theorem IsAssemblable.lift_eq_unimplemented_iff (h : instruction.IsAssemblable) :
    instruction.lift.statements = [.unimplemented] ↔ instruction.LoadsToNumber := by
  rw [Instruction.lift_eq_unimplemented_iff]
  constructor
  · intro hstuck
    simp only [IsLiftable, Classical.not_forall, Classical.not_not] at hstuck
    obtain ⟨slot, kind, hslot, hslotStuck⟩ := hstuck
    cases hslotStuck with
    | missing hnone =>
      have hlt := (List.getElem?_eq_some_iff.1 hslot).1
      obtain ⟨operand, hoperand, _⟩ := h.wellFormed.exists_operand? slot hlt
      exact absurd (hnone.symm.trans hoperand) (by simp)
    | meaningless hoperand hword =>
      have hle := h.wellFormed.word_le (List.mem_of_getElem? hoperand)
      exact absurd hle (UInt16.not_le.2 hword)
    | @misplaced operand hoperand hkind hword =>
      obtain ⟨rfl, hregister | hrmem⟩ := Operation.eq_zero_of_isRegister hslot hkind
      · -- assembly puts a register where only one can stand
        have hslotKind := (h.wellFormed.operand 0 operand hoperand).2.1
        rw [hslot, hregister] at hslotKind
        have hmin := h.isRegister (List.mem_of_getElem? hoperand)
          (Option.some.inj hslotKind).symm
        simp only [Operand.isRegister, Bool.and_eq_true, decide_eq_true_eq] at hmin
        exact absurd (UInt16.le_trans hmin.1 hword) (by decide)
      · exact ⟨hrmem, operand, hoperand, hword⟩
  · rintro ⟨hrmem, operand, hoperand, hword⟩ hliftable
    refine hliftable 0 (.register ∪ .address) ?_ (.misplaced hoperand rfl hword)
    rw [hrmem]
    rfl

theorem lift_moveTo_eq_unimplemented_iff (h : instruction.IsAssemblable) (address : Address) :
    (instruction.moveTo address).lift.statements = [.unimplemented]
      ↔ (instruction.moveTo address).LoadsToNumber := by
  have hmoved : (instruction.moveTo address).IsAssemblable :=
    ⟨h.wellFormed.moveTo address, h.accepts⟩
  exact hmoved.lift_eq_unimplemented_iff

/-- Laying instructions out moves them and does nothing else. -/
theorem exists_moveTo_of_mem_layOut {instructions : List Instruction} {address : Address}
    (h : instruction ∈ layOut address instructions) :
    ∃ original ∈ instructions, ∃ place, instruction = original.moveTo place := by
  induction instructions generalizing address with
  | nil => exact absurd h (List.not_mem_nil)
  | cons first instructions ih =>
    rw [layOut] at h
    rcases List.mem_cons.1 h with rfl | h
    · exact ⟨first, List.mem_cons_self, address, rfl⟩
    · obtain ⟨original, hmem, place, rfl⟩ := ih h
      exact ⟨original, List.mem_cons_of_mem _ hmem, place, rfl⟩

end Instruction

namespace Assembly

/-- An assembled line decodes to one instruction, and lifting gives up on it only if it is `rmem`
into a number. -/
theorem lift_assemble {text : String} {bytes : Image} (h : assemble text = .ok bytes) :
    ∃ instruction, bytes.decode ⟨0⟩ = .ok instruction ∧ instruction.encode = bytes
      ∧ (instruction.lift.statements = [.unimplemented] ↔ instruction.LoadsToNumber) := by
  obtain ⟨instruction, hassemblable, rfl⟩ := assembleLine_eq_ok h
  refine ⟨instruction.moveTo ⟨0⟩, Image.decode_eq_ok_iff.2 ⟨rfl, rfl, ?_, ?_⟩, rfl,
    Instruction.lift_moveTo_eq_unimplemented_iff hassemblable ⟨0⟩⟩
  · exact hassemblable.wellFormed.moveTo ⟨0⟩
  · exact List.prefix_refl _

/-- The same for each instruction that a sweep of an assembled listing finds. -/
theorem lift_assembleProgram {text : String} {image : Image}
    (h : assembleProgram text = .ok image) {instruction : Instruction}
    (hmem : instruction ∈ image.instructions) :
    instruction.lift.statements = [.unimplemented] ↔ instruction.LoadsToNumber := by
  obtain ⟨instructions, hassemblable, _, rfl⟩ := assembleProgram_eq_ok h
  rw [Image.instructions_flatMap_encode fun original horiginal =>
    (hassemblable original horiginal).wellFormed] at hmem
  obtain ⟨original, horiginal, place, rfl⟩ := Instruction.exists_moveTo_of_mem_layOut hmem
  exact Instruction.lift_moveTo_eq_unimplemented_iff (hassemblable original horiginal) place

end Assembly

/-! ## Exactly when lifting gives up -/

namespace Instruction

/--
**Lifting gives up exactly where a slot cannot be expressed.**

Every instruction, decoded or made by hand, is lifted to one statement and the length of its
operation. The statement is `unimplemented` just if for some slot there is no operand, or its
word means nothing, or a register is written there and the word is a number. Operands
beyond the slots make no difference, nor do the indices and kinds that operands carry. Of what
assembly accepts, be it a line or a listing, only `rmem` into a number is lifted so.
-/
theorem lift_gives_up_iff :
    (∀ instruction : Instruction, ∃ statement,
        instruction.lift = ⟨[statement], instruction.operation.length⟩
          ∧ (statement = .unimplemented ↔ ∃ slot kind,
            instruction.operation.slots[slot]? = some kind ∧ instruction.StuckAt slot kind))
      ∧ (∀ instruction other : Instruction, instruction.address = other.address →
          instruction.operation = other.operation →
          (instruction.operands.map Operand.word).take instruction.operation.arity
            = (other.operands.map Operand.word).take instruction.operation.arity →
          instruction.lift = other.lift)
      ∧ (∀ (text : String) (bytes : Image), Assembly.assemble text = .ok bytes →
          ∃ instruction, bytes.decode ⟨0⟩ = .ok instruction ∧ instruction.encode = bytes
            ∧ (instruction.lift.statements = [.unimplemented] ↔ instruction.LoadsToNumber))
      ∧ ∀ (text : String) (image : Image), Assembly.assembleProgram text = .ok image →
          ∀ instruction ∈ image.instructions,
            instruction.lift.statements = [.unimplemented] ↔ instruction.LoadsToNumber := by
  refine ⟨?_, fun _ _ => lift_eq_of_take_words, fun _ _ => Assembly.lift_assemble,
    fun _ _ h _ => Assembly.lift_assembleProgram h⟩
  intro instruction
  have hstatements := instruction.lift_eq_unimplemented_iff
  simp only [IsLiftable, Classical.not_forall, Classical.not_not, exists_prop] at hstatements
  refine ⟨instruction.statement?.getD .unimplemented, rfl, ?_⟩
  rw [← hstatements, lift, List.singleton_inj]

/-- Assembly takes `rmem` into a number, and lifting gives up on it. -/
theorem lift_gives_up_iff_rmem :
    Assembly.assemble "rmem 0x20, R1" = .ok [15, 0, 16, 0, 1, 128]
      ∧ ∃ instruction, Image.decode [15, 0, 16, 0, 1, 128] ⟨0⟩ = .ok instruction
        ∧ instruction.lift.statements = [.unimplemented] := by
  have htext : Assembly.assemble "rmem 0x20, R1" = .ok [15, 0, 16, 0, 1, 128] := by
    with_unfolding_all rfl
  refine ⟨htext, ?_⟩
  obtain ⟨instruction, hdecode, _, hlift⟩ := lift_gives_up_iff.2.2.1 _ _ htext
  have hfound : Image.decode [15, 0, 16, 0, 1, 128] ⟨0⟩
      = .ok ⟨⟨0⟩, .rmem, [⟨0, .register ∪ .address, 16⟩, ⟨1, .value, 32769⟩]⟩ := by
    rfl
  refine ⟨instruction, hdecode, hlift.2 ?_⟩
  obtain rfl := Except.ok.inj (hdecode.symm.trans hfound)
  exact ⟨rfl, _, rfl, by decide⟩

end Instruction

end WordMachine
