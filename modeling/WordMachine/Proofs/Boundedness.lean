import WordMachine.Proofs.Machine
import WordMachine.Proofs.Meaning

/-!
# Every word stays a number

Operands, results and everything that is moved about are below 32768 if all words of the
state are. So boundedness is an invariant, and whatever needs it of one state has it of
all states that a run comes to.

What an instruction does to the state is one of a few updates, and each of them keeps the
invariant if the word it brings in is a number.
-/

namespace WordMachine

namespace Word

/-- A word is a number if it is below 32768. -/
theorem le_literalMax_iff {word : Word} : word ≤ literalMax ↔ word.toNat < 32768 := by
  simp only [UInt16.le_iff_toNat_le, literalMax, UInt16.reduceToNat]
  omega

theorem toNat_reduced (number : Nat) : (reduced number).toNat = number % 32768 := by
  simp only [reduced, UInt16.toNat_ofNat']
  omega

theorem reduced_le (number : Nat) : reduced number ≤ literalMax := by
  rw [le_literalMax_iff, toNat_reduced]
  omega

theorem ofCondition_le (condition : Bool) : ofCondition condition ≤ literalMax := by
  cases condition <;> decide

end Word

/-! ## Updates -/

namespace State.IsBounded

variable {state : State WordMemory}

theorem setRegister (h : state.IsBounded) (register : Register) {value : Word}
    (hvalue : value ≤ Word.literalMax) : (state.setRegister register value).IsBounded := by
  refine ⟨fun other => ?_, h.stack, h.memory, h.input⟩
  show (if other = register then value else state.registers other) ≤ Word.literalMax
  by_cases hother : other = register
  · rw [if_pos hother]
    exact hvalue
  · rw [if_neg hother]
    exact h.registers other

theorem push (h : state.IsBounded) {value : Word} (hvalue : value ≤ Word.literalMax) :
    (state.push value).IsBounded :=
  ⟨h.registers, List.forall_mem_cons.2 ⟨hvalue, h.stack⟩, h.memory, h.input⟩

theorem pop? (h : state.IsBounded) {top : Word} {rest : State WordMemory}
    (hpop : state.pop? = some (top, rest)) : top ≤ Word.literalMax ∧ rest.IsBounded := by
  unfold State.pop? at hpop
  split at hpop
  · exact absurd hpop (by simp)
  · next hstack =>
    obtain ⟨rfl, rfl⟩ := Prod.mk.inj (Option.some.inj hpop)
    obtain ⟨htop, hrest⟩ := List.forall_mem_cons.1 (hstack ▸ h.stack)
    exact ⟨htop, h.registers, hrest, h.memory, h.input⟩

theorem read? (h : state.IsBounded) {c : Word} {rest : State WordMemory}
    (hread : state.read? = some (c, rest)) : c ≤ Word.literalMax ∧ rest.IsBounded := by
  unfold State.read? at hread
  split at hread
  · exact absurd hread (by simp)
  · next hinput =>
    obtain ⟨rfl, rfl⟩ := Prod.mk.inj (Option.some.inj hread)
    obtain ⟨hc, hrest⟩ := List.forall_mem_cons.1 (hinput ▸ h.input)
    exact ⟨hc, h.registers, h.stack, h.memory, hrest⟩

theorem storeAt (h : state.IsBounded) (index : Word) {value : Word}
    (hvalue : value ≤ Word.literalMax) : (state.storeAt index value).IsBounded := by
  refine ⟨h.registers, h.stack, fun other hother => ?_, h.input⟩
  show (if other = index then value else state.memory other) ≤ Word.literalMax
  by_cases hindex : other = index
  · rw [if_pos hindex]
    exact hvalue
  · rw [if_neg hindex]
    exact h.memory other hother

end State.IsBounded

/-! ## Steps -/

namespace Instruction

variable {instruction : Instruction} {state after : State WordMemory} {flow : Flow Nat}

/-- In a bounded state an operand gives a number. -/
theorem valueAt?_le (hbounded : state.IsBounded) {slot : Nat} {value : Word}
    (h : instruction.valueAt? state slot = some value) : value ≤ Word.literalMax := by
  simp only [valueAt?, Option.bind_eq_bind, Option.bind_eq_some_iff] at h
  obtain ⟨operand, _, h⟩ := h
  rw [Operand.meaning] at h
  rcases Word.meaning_cases operand.word with
    ⟨hword, hmeaning⟩ | ⟨register, _, hmeaning⟩ | ⟨_, hmeaning⟩
  · rw [hmeaning] at h
    exact Option.some.inj h ▸ hword
  · rw [hmeaning] at h
    exact Option.some.inj h ▸ hbounded.registers register
  · rw [hmeaning] at h
    exact absurd h (by simp)

theorem setting_isBounded {value : Word} (hbounded : state.IsBounded)
    (hvalue : value ≤ Word.literalMax) (h : instruction.setting state value = some (after, flow)) :
    after.IsBounded := by
  simp only [setting, Option.bind_eq_bind, Option.bind_eq_some_iff, Option.pure_def,
    Option.some.injEq, Prod.mk.injEq] at h
  obtain ⟨register, _, rfl, _⟩ := h
  exact hbounded.setRegister register hvalue

theorem combining_isBounded {f : Word → Word → Word} (hbounded : state.IsBounded)
    (hf : ∀ b c, f b c ≤ Word.literalMax) (h : instruction.combining state f = some (after, flow)) :
    after.IsBounded := by
  simp only [combining, Option.bind_eq_bind, Option.bind_eq_some_iff] at h
  obtain ⟨b, _, c, _, h⟩ := h
  exact setting_isBounded hbounded (hf b c) h

theorem jumping_isBounded {slot : Nat} {condition : Bool} (hbounded : state.IsBounded)
    (h : instruction.jumping state slot condition = some (after, flow)) : after.IsBounded := by
  simp only [jumping, Option.bind_eq_bind, Option.bind_eq_some_iff, Option.pure_def,
    Option.some.injEq, Prod.mk.injEq] at h
  obtain ⟨_, _, rfl, _⟩ := h
  exact hbounded

/-- **A step keeps every word a number.** -/
theorem step?_isBounded (hbounded : state.IsBounded)
    (h : instruction.step? state = some (after, flow)) : after.IsBounded := by
  cases hoperation : instruction.operation <;>
    simp only [step?, hoperation, Option.bind_eq_bind, Option.bind_eq_some_iff, Option.pure_def,
      Option.some.injEq, Prod.mk.injEq] at h
  case halt | noop =>
    obtain ⟨rfl, _⟩ := h
    exact hbounded
  case eq | gt => exact combining_isBounded hbounded (fun _ _ => Word.ofCondition_le _) h
  case add | mult | and | or => exact combining_isBounded hbounded (fun _ _ => Word.reduced_le _) h
  case jmp => exact jumping_isBounded hbounded h
  case jt | jf =>
    obtain ⟨_, _, h⟩ := h
    exact jumping_isBounded hbounded h
  case set =>
    obtain ⟨value, hvalue, h⟩ := h
    exact setting_isBounded hbounded (valueAt?_le hbounded hvalue) h
  case not =>
    obtain ⟨_, _, h⟩ := h
    exact setting_isBounded hbounded (Word.reduced_le _) h
  case mod =>
    obtain ⟨_, _, c, _, h⟩ := h
    split at h
    · exact absurd h (by simp)
    · exact setting_isBounded hbounded (Word.reduced_le _) h
  case rmem =>
    obtain ⟨index, hindex, h⟩ := h
    exact setting_isBounded hbounded (hbounded.memory index (valueAt?_le hbounded hindex)) h
  case wmem =>
    obtain ⟨index, _, value, hvalue, rfl, _⟩ := h
    exact hbounded.storeAt index (valueAt?_le hbounded hvalue)
  case push =>
    obtain ⟨value, hvalue, rfl, _⟩ := h
    exact hbounded.push (valueAt?_le hbounded hvalue)
  case pop =>
    obtain ⟨⟨top, rest⟩, hpop, h⟩ := h
    obtain ⟨htop, hrest⟩ := hbounded.pop? hpop
    exact setting_isBounded hrest htop h
  case call =>
    obtain ⟨_, _, rfl, _⟩ := h
    exact hbounded.push (Word.reduced_le _)
  case ret =>
    split at h
    · obtain ⟨rfl, _⟩ := Prod.mk.inj (Option.some.inj h)
      exact hbounded
    · next hpop =>
      obtain ⟨rfl, _⟩ := Prod.mk.inj (Option.some.inj h)
      exact (hbounded.pop? hpop).2
  case output =>
    obtain ⟨_, _, rfl, _⟩ := h
    exact ⟨hbounded.registers, hbounded.stack, hbounded.memory, hbounded.input⟩
  case input =>
    obtain ⟨⟨c, rest⟩, hread, h⟩ := h
    obtain ⟨hc, hrest⟩ := hbounded.read? hread
    exact setting_isBounded hrest hc h

end Instruction

end WordMachine
