import WordMachine.Lifting
import WordMachine.Proofs.ByteView
import WordMachine.Proofs.Decoding

/-!
# Lifting preserves what an instruction does

The statement that lifting gives, run on the bytes of a machine's state, ends in the bytes
of the state that the machine ends in, and control goes to the byte address of the word
index that the machine goes to.

Two things carry the proof. An expression made from an operand evaluates to what the
operand gives, or to twice that where the language wants an address. And the machine's
arithmetic is that of sixteen bits as long as all words are numbers.
-/

namespace WordMachine

open Lifted

/-! ## Outcomes -/

/-- The same flow for a machine that counts in bytes. -/
def Flow.toBytes : Flow Nat → Flow Address
  | goto index => goto ⟨index * Word.size⟩
  | halt => halt

/-- Both machines have an outcome, and it is the same one. -/
def SameOutcome (outcome : Option (State WordMemory × Flow Nat))
    (lifted : Option (State ByteMemory × Flow Address)) : Prop :=
  ∃ state flow, outcome = some (state, flow) ∧ lifted = some (state.toBytes, flow.toBytes)

namespace Instruction

/-- The instruction neither pops from an empty stack nor divides by zero. -/
structure IsReady (instruction : Instruction) (state : State WordMemory) : Prop where
  stack : instruction.operation = .pop ∨ instruction.operation = .ret → state.stack ≠ []
  divisor : instruction.operation = .mod → instruction.valueAt? state 2 ≠ some 0

variable {instruction : Instruction} {state : State WordMemory} {slot : Nat}

/-! ## Operands -/

/-- The value of an operand's expression is what the operand gives. -/
theorem eval_value? (state : State WordMemory) {expr : Expr}
    (h : instruction.value? slot = some expr) :
    ∃ value, instruction.valueAt? state slot = some value
      ∧ expr.eval state.toBytes = some (value, state.toBytes) := by
  simp only [value?, Option.bind_eq_some_iff] at h
  obtain ⟨operand, hoperand, h⟩ := h
  simp only [valueAt?, hoperand, Option.bind_eq_bind, Option.bind_some]
  unfold Operand.value? at h
  cases hmeaning : operand.meaning with
  | literal value =>
    rw [hmeaning] at h
    obtain rfl := Option.some.inj h
    exact ⟨value, rfl, rfl⟩
  | register register =>
    rw [hmeaning] at h
    obtain rfl := Option.some.inj h
    exact ⟨state.registers register, rfl, rfl⟩
  | invalid word =>
    rw [hmeaning] at h
    exact absurd h (by simp)

/-- The value of an operand's address is twice what the operand gives. -/
theorem eval_address? (state : State WordMemory) {expr : Expr}
    (h : instruction.address? slot = some expr) :
    ∃ index, instruction.valueAt? state slot = some index
      ∧ expr.eval state.toBytes = some (index * 2, state.toBytes) := by
  simp only [address?, Option.bind_eq_some_iff] at h
  obtain ⟨operand, hoperand, h⟩ := h
  simp only [valueAt?, hoperand, Option.bind_eq_bind, Option.bind_some]
  unfold Operand.address? at h
  cases hmeaning : operand.meaning with
  | literal index =>
    rw [hmeaning] at h
    obtain rfl := Option.some.inj h
    exact ⟨index, rfl, rfl⟩
  | register register =>
    rw [hmeaning] at h
    obtain rfl := Option.some.inj h
    exact ⟨state.registers register, rfl, rfl⟩
  | invalid word =>
    rw [hmeaning] at h
    exact absurd h (by simp)

/-- A target is the byte address of the word index that the operand gives. -/
theorem place_target? (hbounded : state.IsBounded) {target : Target}
    (h : instruction.target? slot = some target) :
    ∃ index, instruction.valueAt? state slot = some index
      ∧ target.place state.toBytes = some (⟨index.toNat * Word.size⟩, state.toBytes) := by
  simp only [target?, Option.bind_eq_some_iff] at h
  obtain ⟨operand, hoperand, h⟩ := h
  unfold Operand.target? at h
  split at h
  · next address haddress =>
    obtain rfl := Option.some.inj h
    unfold Operand.literalAddress? at haddress
    split at haddress
    · next hliteral =>
      obtain rfl := Option.some.inj haddress
      have hmeaning := Operand.meaning_of_isLiteral hliteral
      refine ⟨operand.word, ?_, rfl⟩
      simp only [valueAt?, hoperand, Option.bind_eq_bind, Option.bind_some, hmeaning]
    · exact absurd haddress (by simp)
  · -- a computed address is doubled in sixteen bits, which a number does not overflow
    obtain ⟨expr, hexpr, rfl⟩ := Option.map_eq_some_iff.1 h
    have haddress : instruction.address? slot = some expr := by
      rw [address?, hoperand, Option.bind_some, hexpr]
    obtain ⟨index, hindex, heval⟩ := eval_address? state haddress
    have hdouble := Word.toNat_double (valueAt?_le hbounded hindex)
    refine ⟨index, hindex, ?_⟩
    simp only [Target.place, heval, Option.bind_eq_bind, Option.bind_some, Option.pure_def, hdouble]

theorem eval_binary? (state : State WordMemory) {operator : Operator} {expr : Expr}
    (h : instruction.binary? operator = some expr) :
    ∃ b c, instruction.valueAt? state 1 = some b ∧ instruction.valueAt? state 2 = some c
      ∧ expr.eval state.toBytes
        = (operator.apply b c).map fun result => (result, state.toBytes) := by
  simp only [binary?, Option.bind_eq_bind, Option.bind_eq_some_iff, Option.pure_def,
    Option.some.injEq] at h
  obtain ⟨left, hleft, right, hright, rfl⟩ := h
  obtain ⟨b, hb, hevalb⟩ := eval_value? state hleft
  obtain ⟨c, hc, hevalc⟩ := eval_value? state hright
  refine ⟨b, c, hb, hc, ?_⟩
  simp only [Expr.eval, hevalb, hevalc, Option.bind_eq_bind, Option.bind_some, Option.pure_def,
    Option.map_eq_bind]
  rfl

/-! ## Statements -/

/-- Going on in words is going on in bytes, since instructions are aligned. -/
theorem onward_toBytes (haligned : instruction.address.isAligned) :
    instruction.onward.toBytes = .goto instruction.next := by
  have heven : instruction.address.offset % 2 = 0 := of_decide_eq_true haligned
  have hoffset : instruction.next.wordIndex * Word.size = instruction.next.offset := by
    simp only [next, Address.wordIndex, Address.offset_add, length, Operation.length, Word.size]
    omega
  rw [onward, Flow.toBytes, hoffset]

end Instruction

namespace Lifted

variable {next : Address} {statement : Statement} {before after : State ByteMemory}

theorem run_singleton_of_none (h : statement.run next before = some (after, none)) :
    run next [statement] before = some (after, .goto next) := by
  simp only [run, h, Option.bind_eq_bind, Option.bind_some]

theorem run_singleton_of_flow {flow : Flow Address}
    (h : statement.run next before = some (after, some flow)) :
    run next [statement] before = some (after, flow) := by
  simp only [run, h, Option.bind_eq_bind, Option.bind_some, Option.pure_def]

end Lifted

namespace Instruction

variable {instruction : Instruction} {state : State WordMemory} {statement : Statement}

/-- A statement that transfers no control, where the machine goes on as well. -/
theorem sameOutcome_onward {outcome : Option (State WordMemory × Flow Nat)}
    {after : State WordMemory} (haligned : instruction.address.isAligned)
    (houtcome : outcome = some (after, instruction.onward))
    (hrun : statement.run instruction.next state.toBytes = some (after.toBytes, none)) :
    SameOutcome outcome (Lifted.run instruction.next [statement] state.toBytes) := by
  refine ⟨after, instruction.onward, houtcome, ?_⟩
  rw [onward_toBytes haligned]
  exact run_singleton_of_none hrun

/-- An instruction that sets a register, lifted to the expression for the new value. -/
theorem sameOutcome_assign {value : Option Expr} {outcome : Option (State WordMemory × Flow Nat)}
    (haligned : instruction.address.isAligned) (h : instruction.assign? value = some statement)
    (hvalue : ∀ expr, value = some expr → ∃ word after,
      outcome = instruction.setting after word
        ∧ expr.eval state.toBytes = some (word, after.toBytes)) :
    SameOutcome outcome (Lifted.run instruction.next [statement] state.toBytes) := by
  simp only [assign?, Option.bind_eq_bind, Option.bind_eq_some_iff, Option.pure_def,
    Option.some.injEq] at h
  obtain ⟨register, hregister, expr, hexpr, rfl⟩ := h
  obtain ⟨word, after, rfl, heval⟩ := hvalue expr hexpr
  have hslot : instruction.registerAt? 0 = some register := hregister
  have hsetting : instruction.setting after word
      = some (after.setRegister register word, instruction.onward) := by
    simp only [setting, hslot, Option.bind_eq_bind, Option.bind_some, Option.pure_def]
  refine sameOutcome_onward haligned hsetting ?_
  simp only [Statement.run, heval, Option.bind_eq_bind, Option.bind_some, Option.pure_def]
  rfl

/-- If the expression for the new value has no value, the statement has no outcome. -/
theorem run_assign_eq_none {value : Option Expr} (before : State ByteMemory)
    (h : instruction.assign? value = some statement)
    (hvalue : ∀ expr, value = some expr → expr.eval before = none) :
    Lifted.run instruction.next [statement] before = none := by
  simp only [assign?, Option.bind_eq_bind, Option.bind_eq_some_iff, Option.pure_def,
    Option.some.injEq] at h
  obtain ⟨register, _, expr, hexpr, rfl⟩ := h
  simp only [Lifted.run, Statement.run, hvalue expr hexpr, Option.bind_eq_bind, Option.bind_none]

/-- An operator that gives what the machine computes. -/
theorem sameOutcome_binary {operator : Operator} {f : Word → Word → Word}
    (haligned : instruction.address.isAligned)
    (h : instruction.assign? (instruction.binary? operator) = some statement)
    (hf : ∀ b c, instruction.valueAt? state 1 = some b → instruction.valueAt? state 2 = some c →
      operator.apply b c = some (f b c)) :
    SameOutcome (instruction.combining state f)
      (Lifted.run instruction.next [statement] state.toBytes) := by
  refine sameOutcome_assign haligned h fun expr hexpr => ?_
  obtain ⟨b, c, hb, hc, heval⟩ := eval_binary? state hexpr
  refine ⟨f b c, state, ?_, ?_⟩
  · simp only [combining, hb, hc, Option.bind_eq_bind, Option.bind_some]
  · rw [heval, hf b c hb hc, Option.map_some]

/-- An operator that gives what the machine computes once its result is brought below 32768. -/
theorem sameOutcome_wrapped {operator : Operator} {f g : Word → Word → Word}
    (haligned : instruction.address.isAligned)
    (h : instruction.assign? ((instruction.binary? operator).map wrapped) = some statement)
    (hg : ∀ b c, operator.apply b c = some (g b c))
    (hf : ∀ b c, g b c % Word.literalModulo = f b c) :
    SameOutcome (instruction.combining state f)
      (Lifted.run instruction.next [statement] state.toBytes) := by
  refine sameOutcome_assign haligned h fun expr hexpr => ?_
  obtain ⟨inner, hinner, rfl⟩ := Option.map_eq_some_iff.1 hexpr
  obtain ⟨b, c, hb, hc, heval⟩ := eval_binary? state hinner
  rw [hg b c, Option.map_some] at heval
  refine ⟨f b c, state, ?_, ?_⟩
  · simp only [combining, hb, hc, Option.bind_eq_bind, Option.bind_some]
  · have hmod : Operator.mod.apply (g b c) Word.literalModulo = some (f b c) := by
      rw [← hf b c]
      rfl
    simp only [wrapped, Expr.eval, heval, Option.bind_eq_bind, Option.bind_some, Option.pure_def,
      hmod]

/-- A statement that enters the target in a slot if the condition holds, else the next
instruction. -/
theorem sameOutcome_jumping {slot : Nat} {target : Target} {condition : Bool}
    (haligned : instruction.address.isAligned) (hbounded : state.IsBounded)
    (htarget : instruction.target? slot = some target)
    (h : statement.run instruction.next state.toBytes
      = (if condition then target else .label instruction.next).enter state.toBytes) :
    SameOutcome (instruction.jumping state slot condition)
      (Lifted.run instruction.next [statement] state.toBytes) := by
  obtain ⟨index, hindex, hplace⟩ := place_target? hbounded htarget
  refine ⟨state, if condition then .goto index.toNat else instruction.onward, ?_, ?_⟩
  · simp only [jumping, hindex, Option.bind_eq_bind, Option.bind_some, Option.pure_def]
  · apply run_singleton_of_flow
    rw [h]
    cases condition with
    | true => simp only [Target.enter, hplace, if_true, Option.bind_eq_bind, Option.bind_some,
        Option.pure_def, Flow.toBytes]
    | false =>
      rw [if_neg (by simp), if_neg (by simp), onward_toBytes haligned]
      rfl

/-! ## Operations -/

section

variable (haligned : instruction.address.isAligned) (hbounded : state.IsBounded)
  (h : instruction.statement? = some statement)

include haligned h

theorem sameOutcome_set (hoperation : instruction.operation = .set) :
    SameOutcome (instruction.step? state)
      (Lifted.run instruction.next [statement] state.toBytes) := by
  simp only [statement?, step?, hoperation] at h ⊢
  refine sameOutcome_assign haligned h fun expr hexpr => ?_
  obtain ⟨word, hword, heval⟩ := eval_value? state hexpr
  exact ⟨word, state, by rw [hword]; rfl, heval⟩

include hbounded in
theorem sameOutcome_not (hoperation : instruction.operation = .not) :
    SameOutcome (instruction.step? state)
      (Lifted.run instruction.next [statement] state.toBytes) := by
  simp only [statement?, step?, hoperation] at h ⊢
  refine sameOutcome_assign haligned h fun expr hexpr => ?_
  obtain ⟨inner, hinner, rfl⟩ := Option.map_eq_some_iff.1 hexpr
  obtain ⟨b, hb, heval⟩ := eval_value? state hinner
  refine ⟨_, state, by rw [hb]; rfl, ?_⟩
  rw [← Word.complement_and_literalMax (valueAt?_le hbounded hb)]
  simp only [Expr.eval, heval, Operator.apply, Option.bind_eq_bind, Option.bind_some,
    Option.pure_def]

include hbounded in
theorem sameOutcome_rmem (hoperation : instruction.operation = .rmem) :
    SameOutcome (instruction.step? state)
      (Lifted.run instruction.next [statement] state.toBytes) := by
  simp only [statement?, step?, hoperation] at h ⊢
  refine sameOutcome_assign haligned h fun expr hexpr => ?_
  obtain ⟨inner, hinner, rfl⟩ := Option.map_eq_some_iff.1 hexpr
  obtain ⟨index, hindex, heval⟩ := eval_address? state hinner
  refine ⟨state.memory index, state, by rw [hindex]; rfl, ?_⟩
  rw [← State.load_toBytes (valueAt?_le hbounded hindex)]
  simp only [Expr.eval, heval, Option.bind_eq_bind, Option.bind_some, Option.pure_def]

theorem sameOutcome_pop (hoperation : instruction.operation = .pop) (hstack : state.stack ≠ []) :
    SameOutcome (instruction.step? state)
      (Lifted.run instruction.next [statement] state.toBytes) := by
  simp only [statement?, step?, hoperation] at h ⊢
  obtain ⟨top, rest, hstack⟩ := List.exists_cons_of_ne_nil hstack
  refine sameOutcome_assign haligned h fun expr hexpr => ?_
  obtain rfl := Option.some.inj hexpr
  refine ⟨top, { state with stack := rest }, by simp only [State.pop?, hstack]; rfl, ?_⟩
  simp only [Expr.eval, State.pop?, State.toBytes, hstack]

theorem sameOutcome_input (hoperation : instruction.operation = .input)
    (hinput : state.input ≠ []) :
    SameOutcome (instruction.step? state)
      (Lifted.run instruction.next [statement] state.toBytes) := by
  simp only [statement?, step?, hoperation] at h ⊢
  obtain ⟨c, rest, hinput⟩ := List.exists_cons_of_ne_nil hinput
  refine sameOutcome_assign haligned h fun expr hexpr => ?_
  obtain rfl := Option.some.inj hexpr
  refine ⟨c, { state with input := rest }, by simp only [State.read?, hinput]; rfl, ?_⟩
  simp only [Expr.eval, State.read?, State.toBytes, hinput]

include hbounded in
theorem sameOutcome_mod (hoperation : instruction.operation = .mod)
    (hdivisor : instruction.valueAt? state 2 ≠ some 0) :
    SameOutcome (instruction.step? state)
      (Lifted.run instruction.next [statement] state.toBytes) := by
  simp only [statement?, step?, hoperation] at h ⊢
  refine sameOutcome_assign haligned h fun expr hexpr => ?_
  obtain ⟨b, c, hb, hc, heval⟩ := eval_binary? state hexpr
  have hnonzero : c ≠ 0 := fun hzero => hdivisor (by rw [hc, hzero])
  refine ⟨Word.reduced (b.toNat % c.toNat), state, ?_, ?_⟩
  · simp only [hb, hc, Option.bind_eq_bind, Option.bind_some, if_neg hnonzero]
  · rw [heval, Operator.apply, if_neg hnonzero, Word.mod_eq_reduced (valueAt?_le hbounded hb)]
    rfl

include hbounded in
theorem sameOutcome_jt (hoperation : instruction.operation = .jt) :
    SameOutcome (instruction.step? state)
      (Lifted.run instruction.next [statement] state.toBytes) := by
  simp only [statement?, step?, hoperation, Option.bind_eq_bind, Option.bind_eq_some_iff,
    Option.pure_def, Option.some.injEq] at h ⊢
  obtain ⟨condition, hcondition, target, htarget, rfl⟩ := h
  obtain ⟨a, ha, heval⟩ := eval_value? state hcondition
  rw [ha, Option.bind_some]
  apply sameOutcome_jumping haligned hbounded htarget
  -- the place to jump to comes first, so the condition is that of the machine
  simp only [Statement.run, heval, Option.bind_eq_bind, Option.bind_some]
  cases a != 0 <;> rfl

include hbounded in
theorem sameOutcome_jf (hoperation : instruction.operation = .jf) :
    SameOutcome (instruction.step? state)
      (Lifted.run instruction.next [statement] state.toBytes) := by
  simp only [statement?, step?, hoperation, Option.bind_eq_bind, Option.bind_eq_some_iff,
    Option.pure_def, Option.some.injEq] at h ⊢
  obtain ⟨condition, hcondition, target, htarget, rfl⟩ := h
  obtain ⟨a, ha, heval⟩ := eval_value? state hcondition
  rw [ha, Option.bind_some]
  apply sameOutcome_jumping haligned hbounded htarget
  -- the next instruction comes first, so the condition is turned round
  simp only [Statement.run, heval, Option.bind_eq_bind, Option.bind_some, bne]
  cases a == 0 <;> rfl

theorem sameOutcome_push (hoperation : instruction.operation = .push) :
    SameOutcome (instruction.step? state)
      (Lifted.run instruction.next [statement] state.toBytes) := by
  simp only [statement?, step?, hoperation] at h ⊢
  obtain ⟨expr, hexpr, rfl⟩ := Option.map_eq_some_iff.1 h
  obtain ⟨value, hvalue, heval⟩ := eval_value? state hexpr
  refine sameOutcome_onward haligned (by rw [hvalue]; rfl) ?_
  simp only [Statement.run, heval, Option.bind_eq_bind, Option.bind_some]
  rfl

theorem sameOutcome_output (hoperation : instruction.operation = .output) :
    SameOutcome (instruction.step? state)
      (Lifted.run instruction.next [statement] state.toBytes) := by
  simp only [statement?, step?, hoperation] at h ⊢
  obtain ⟨expr, hexpr, rfl⟩ := Option.map_eq_some_iff.1 h
  obtain ⟨c, hc, heval⟩ := eval_value? state hexpr
  refine sameOutcome_onward haligned (by rw [hc]; rfl) ?_
  simp only [Statement.run, heval, Option.bind_eq_bind, Option.bind_some]
  rfl

include hbounded in
theorem sameOutcome_wmem (hoperation : instruction.operation = .wmem) :
    SameOutcome (instruction.step? state)
      (Lifted.run instruction.next [statement] state.toBytes) := by
  simp only [statement?, step?, hoperation, Option.bind_eq_bind, Option.bind_eq_some_iff,
    Option.pure_def, Option.some.injEq] at h ⊢
  obtain ⟨address, haddress, expr, hexpr, rfl⟩ := h
  obtain ⟨index, hindex, hevala⟩ := eval_address? state haddress
  obtain ⟨value, hvalue, hevalv⟩ := eval_value? state hexpr
  refine sameOutcome_onward haligned (by rw [hindex, hvalue]; rfl) ?_
  rw [State.storeAt_toBytes (valueAt?_le hbounded hindex)]
  simp only [Statement.run, hevala, hevalv, Option.bind_eq_bind, Option.bind_some, Option.pure_def]

omit haligned in
include hbounded in
theorem sameOutcome_call (hoperation : instruction.operation = .call) :
    SameOutcome (instruction.step? state)
      (Lifted.run instruction.next [statement] state.toBytes) := by
  simp only [statement?, step?, hoperation] at h ⊢
  obtain ⟨target, htarget, rfl⟩ := Option.map_eq_some_iff.1 h
  obtain ⟨index, hindex, hplace⟩ := place_target? hbounded htarget
  refine ⟨state.push instruction.next.indexWord, .goto index.toNat, by rw [hindex]; rfl, ?_⟩
  apply run_singleton_of_flow
  simp only [Statement.run, hplace, Option.bind_eq_bind, Option.bind_some]
  rfl

omit haligned in
theorem sameOutcome_ret (hoperation : instruction.operation = .ret) (hstack : state.stack ≠ []) :
    SameOutcome (instruction.step? state)
      (Lifted.run instruction.next [statement] state.toBytes) := by
  simp only [statement?, step?, hoperation, Option.some.injEq] at h ⊢
  obtain ⟨index, rest, hstack⟩ := List.exists_cons_of_ne_nil hstack
  subst h
  refine ⟨{ state with stack := rest }, .goto index.toNat, by simp only [State.pop?, hstack], ?_⟩
  apply run_singleton_of_flow
  simp only [Statement.run, Expr.eval, State.pop?, State.toBytes, hstack, Option.bind_eq_bind,
    Option.bind_some]
  rfl

/-- Running the statement of an instruction is stepping the machine. -/
theorem sameOutcome_of_statement? (hbounded : state.IsBounded) (hready : instruction.IsReady state)
    (hinput : instruction.operation = .input → state.input ≠ []) :
    SameOutcome (instruction.step? state)
      (Lifted.run instruction.next [statement] state.toBytes) := by
  have hle {slot : Nat} {value : Word} (hvalue : instruction.valueAt? state slot = some value) :=
    valueAt?_le hbounded hvalue
  cases hoperation : instruction.operation with
  | halt =>
    simp only [statement?, step?, hoperation, Option.some.injEq] at h ⊢
    subst h
    exact ⟨state, .halt, rfl, rfl⟩
  | set => exact sameOutcome_set haligned h hoperation
  | push => exact sameOutcome_push haligned h hoperation
  | pop => exact sameOutcome_pop haligned h hoperation (hready.stack (Or.inl hoperation))
  | eq =>
    simp only [statement?, step?, hoperation] at h ⊢
    exact sameOutcome_binary haligned h fun b c _ _ => rfl
  | gt =>
    simp only [statement?, step?, hoperation] at h ⊢
    exact sameOutcome_binary haligned h fun b c _ _ => rfl
  | jmp =>
    simp only [statement?, step?, hoperation] at h ⊢
    obtain ⟨target, htarget, rfl⟩ := Option.map_eq_some_iff.1 h
    exact sameOutcome_jumping haligned hbounded htarget rfl
  | jt => exact sameOutcome_jt haligned hbounded h hoperation
  | jf => exact sameOutcome_jf haligned hbounded h hoperation
  | add =>
    simp only [statement?, step?, hoperation] at h ⊢
    exact sameOutcome_wrapped haligned h (fun b c => rfl) Word.add_mod_literalModulo
  | mult =>
    simp only [statement?, step?, hoperation] at h ⊢
    exact sameOutcome_wrapped haligned h (fun b c => rfl) Word.mul_mod_literalModulo
  | mod => exact sameOutcome_mod haligned hbounded h hoperation (hready.divisor hoperation)
  | and =>
    simp only [statement?, step?, hoperation] at h ⊢
    exact sameOutcome_binary haligned h fun b c hb _ =>
      congrArg some (Word.and_eq_reduced (hle hb) c)
  | or =>
    simp only [statement?, step?, hoperation] at h ⊢
    exact sameOutcome_binary haligned h fun b c hb hc =>
      congrArg some (Word.or_eq_reduced (hle hb) (hle hc))
  | not => exact sameOutcome_not haligned hbounded h hoperation
  | rmem => exact sameOutcome_rmem haligned hbounded h hoperation
  | wmem => exact sameOutcome_wmem haligned hbounded h hoperation
  | call => exact sameOutcome_call hbounded h hoperation
  | ret => exact sameOutcome_ret h hoperation (hready.stack (Or.inr hoperation))
  | output => exact sameOutcome_output haligned h hoperation
  | input => exact sameOutcome_input haligned h hoperation (hinput hoperation)
  | noop =>
    simp only [statement?, step?, hoperation, Option.some.injEq] at h ⊢
    subst h
    exact sameOutcome_onward haligned rfl rfl

omit haligned in
/-- When the input is used up, reading has no outcome in words or in bytes. -/
theorem outcomes_eq_none_of_input_eq_nil (hoperation : instruction.operation = .input)
    (hinput : state.input = []) :
    instruction.step? state = none
      ∧ Lifted.run instruction.next [statement] state.toBytes = none := by
  simp only [statement?, step?, hoperation] at h ⊢
  refine ⟨?_, run_assign_eq_none _ h fun expr hexpr => ?_⟩
  · simp only [State.read?, hinput, Option.bind_eq_bind, Option.bind_none]
  · obtain rfl := Option.some.inj hexpr
    simp only [Expr.eval, State.read?, State.toBytes, hinput]

end

/-- An instruction that the language can express is lifted to its one statement. -/
theorem lift_statements (h : .unimplemented ∉ instruction.lift.statements) :
    ∃ statement, instruction.statement? = some statement
      ∧ instruction.lift.statements = [statement] := by
  unfold lift at h ⊢
  cases hstatement : instruction.statement? with
  | none =>
    rw [hstatement] at h
    exact absurd (List.mem_singleton_self _) h
  | some statement => exact ⟨statement, rfl, rfl⟩

end Instruction

/-! ## Lifting -/

namespace Image

/--
**Lifting preserves what an instruction does.**

An instruction decoded from an image is stepped by the machine, in words, from a state in
which every word is a number and which has what the instruction pops and divides by. Its
lifted statements, run in bytes from the same state, then have the same outcome: registers,
stack, memory, input and output agree, and control goes to the byte address of the word
index, or stops. If the input is used up, reading has an outcome in neither.
-/
theorem lift_preserves_step {image : Image} {address : Address} {instruction : Instruction}
    {state : State WordMemory} (hdecode : image.decode address = .ok instruction)
    (hlift : .unimplemented ∉ instruction.lift.statements) (hbounded : state.IsBounded)
    (hready : instruction.IsReady state) :
    SameOutcome (instruction.step? state)
        (Lifted.run instruction.next instruction.lift.statements state.toBytes)
      ∨ (instruction.operation = .input ∧ state.input = []
        ∧ instruction.step? state = none
        ∧ Lifted.run instruction.next instruction.lift.statements state.toBytes = none) := by
  obtain ⟨haligned, rfl, _⟩ := decode_eq_ok_iff.1 hdecode
  obtain ⟨statement, hstatement, hstatements⟩ := Instruction.lift_statements hlift
  rw [hstatements]
  by_cases hinput : instruction.operation = .input ∧ state.input = []
  · have hnone := Instruction.outcomes_eq_none_of_input_eq_nil hstatement hinput.1 hinput.2
    exact Or.inr ⟨hinput.1, hinput.2, hnone⟩
  · left
    exact Instruction.sameOutcome_of_statement? haligned hstatement hbounded hready
      fun hoperation hnil => hinput ⟨hoperation, hnil⟩

/-- A word is read from memory through a register, which holds its index. -/
theorem lift_preserves_step_rmem :
    decode [15, 0, 0, 128, 1, 128] ⟨0⟩
        = .ok ⟨⟨0⟩, .rmem, [⟨0, .register ∪ .address, 32768⟩, ⟨1, .value, 32769⟩]⟩
      ∧ (Instruction.lift
            ⟨⟨0⟩, .rmem, [⟨0, .register ∪ .address, 32768⟩, ⟨1, .value, 32769⟩]⟩).statements
          = [.setReg ⟨0⟩ (.load (.binary .mult (.reg ⟨1⟩) (.const 2)))]
      ∧ SameOutcome
          (Instruction.step?
            ⟨⟨0⟩, .rmem, [⟨0, .register ∪ .address, 32768⟩, ⟨1, .value, 32769⟩]⟩
            ⟨fun _ => 32767, [], id, [], []⟩)
          (Lifted.run ⟨6⟩
            (Instruction.lift
              ⟨⟨0⟩, .rmem, [⟨0, .register ∪ .address, 32768⟩, ⟨1, .value, 32769⟩]⟩).statements
            (State.toBytes ⟨fun _ => 32767, [], id, [], []⟩)) := by
  have hdecode : decode [15, 0, 0, 128, 1, 128] ⟨0⟩
      = .ok ⟨⟨0⟩, .rmem, [⟨0, .register ∪ .address, 32768⟩, ⟨1, .value, 32769⟩]⟩ := by
    rfl
  refine ⟨hdecode, by decide +kernel, ?_⟩
  have hbounded : State.IsBounded ⟨fun _ => 32767, [], id, [], []⟩ :=
    ⟨fun _ => UInt16.le_refl _, by simp, fun _ h => h, by simp⟩
  refine (lift_preserves_step hdecode (by decide +kernel) hbounded ?_).resolve_right ?_
  · exact ⟨fun h => absurd h (by decide), fun h => absurd h (by decide)⟩
  · exact fun h => absurd h.1 (by decide)

end Image

end WordMachine
