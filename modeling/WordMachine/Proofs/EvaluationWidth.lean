import Mathlib.Logic.Relation
import WordMachine.Proofs.Runs
import WordMachine.Proofs.UnboundedEvaluation

/-!
# Lifted code does not depend on the width of its arithmetic

Lifted arithmetic is on sixteen bits, but nothing that lifting gives relies on that. Every
expression in a lifted statement, taken as a whole, is the same number over the integers. In
the middle of an expression this fails: a product is cut off at sixteen bits, and a
complement fills them.

What makes it hold is that every word of a machine's state is below 32768, and each operation
has a reason of its own to give another such word. So the numbers stay there over any run, and
a number that is doubled to an address still fits.
-/

namespace WordMachine

namespace Lifted

/-! ## The expressions of a statement -/

/-- The addresses from which an expression loads. -/
def Expr.loads : Expr → List Expr
  | const _ | reg _ | pop | input => []
  | load address => address :: address.loads
  | complement operand => operand.loads
  | binary _ left right => left.loads ++ right.loads

/-- The expression for a target, unless the target is known. -/
def Target.exprs : Target → List Expr
  | label _ => []
  | indirect address => [address]

/-- The expressions in value position: what is assigned, pushed, stored, returned to, written or
tested. -/
def Statement.values : Statement → List Expr
  | setReg _ value | push value | store _ value | ret value | output value => [value]
  | branch condition _ _ => [condition]
  | jump _ | call _ | noReturn | nop | unimplemented => []

/-- The expressions in address position: where a word is stored and where control goes. -/
def Statement.places : Statement → List Expr
  | store address _ => [address]
  | jump target | call target => target.exprs
  | branch _ ifTrue ifFalse => ifTrue.exprs ++ ifFalse.exprs
  | setReg _ _ | push _ | ret _ | noReturn | output _ | nop | unimplemented => []

/-- All addresses that are computed when the statement runs. -/
def Statement.addresses (statement : Statement) : List Expr :=
  statement.places ++ (statement.places ++ statement.values).flatMap Expr.loads

/-! ## Exact expressions -/

/-- The expression takes what is not there, off an empty stack or from an input that is used up. It
has no value in any width. -/
structure Expr.IsStarved (expr : Expr) (state : State ByteMemory) : Prop where
  cause : (expr = .pop ∧ state.stack = []) ∨ (expr = .input ∧ state.input = [])
  eval : expr.eval state = none
  evalInt : expr.evalInt state = none

theorem Expr.IsStarved.pop {state : State ByteMemory} (h : state.stack = []) :
    Expr.pop.IsStarved state := by
  have hpop : state.pop? = none := by
    rw [State.pop?, h]
  refine ⟨Or.inl ⟨rfl, h⟩, hpop, ?_⟩
  rw [Expr.evalInt, hpop]
  rfl

theorem Expr.IsStarved.input {state : State ByteMemory} (h : state.input = []) :
    Expr.input.IsStarved state := by
  have hread : state.read? = none := by
    rw [State.read?, h]
  refine ⟨Or.inr ⟨rfl, h⟩, hread, ?_⟩
  rw [Expr.evalInt, hread]
  rfl

/-- In every width the expression has the same number, which is below 32768. -/
def Expr.IsNumber (expr : Expr) (state : State ByteMemory) : Prop :=
  ∃ number after, expr.Denotes state number after ∧ number ≤ Word.literalMax

/-- In every width the expression has the same number, the even address of a word. -/
def Expr.IsWordAddress (expr : Expr) (state : State ByteMemory) : Prop :=
  ∃ number, expr.Denotes state number state ∧ number % 2 = 0 ∧ number ≤ 65534

/-- The statement's expressions do not depend on the width: its values are numbers below 32768
and its addresses those of words. All are evaluated where the statement starts, which computing an
address does not change. -/
structure Statement.IsExact (statement : Statement) (state : State ByteMemory) : Prop where
  values : ∀ value ∈ statement.values, value.IsNumber state ∨ value.IsStarved state
  addresses : ∀ address ∈ statement.addresses, address.IsWordAddress state

/-- What makes a value exact: its number, and the addresses it loads from. -/
structure Expr.IsExact (value : Expr) (state : State ByteMemory) : Prop where
  number : value.IsNumber state ∨ value.IsStarved state
  loads : ∀ address ∈ value.loads, address.IsWordAddress state

namespace Statement

variable {statement : Statement} {state : State ByteMemory} {value : Expr}

/-- The places of lifted statements are computed from operands alone, so nothing is loaded there. -/
theorem isExact_of (hvalues : ∀ value ∈ statement.values, value.IsExact state)
    (hplaces : ∀ place ∈ statement.places, place.IsWordAddress state ∧ place.loads = []) :
    statement.IsExact state := by
  constructor
  · intro value hvalue
    exact (hvalues value hvalue).number
  · intro address haddress
    rcases List.mem_append.1 haddress with hplace | hloads
    · exact (hplaces address hplace).1
    · obtain ⟨expr, hexpr, hload⟩ := List.mem_flatMap.1 hloads
      rcases List.mem_append.1 hexpr with hplace | hvalue
      · rw [(hplaces expr hplace).2] at hload
        exact absurd hload (List.not_mem_nil)
      · exact (hvalues expr hvalue).loads address hload

/-- A statement that has one value and computes no place. -/
theorem isExact_of_value (hvalues : statement.values = [value]) (hplaces : statement.places = [])
    (h : value.IsExact state) : statement.IsExact state := by
  apply isExact_of
  · rw [hvalues]
    exact List.forall_mem_singleton.2 h
  · rw [hplaces]
    exact List.forall_mem_nil _

/-- A statement that has no value and computes at most places. -/
theorem isExact_of_places (hvalues : statement.values = [])
    (h : ∀ place ∈ statement.places, place.IsWordAddress state ∧ place.loads = []) :
    statement.IsExact state := by
  apply isExact_of
  · rw [hvalues]
    exact List.forall_mem_nil _
  · exact h

end Statement

end Lifted

open Lifted

/-- Twice a number below 32768 is the address of a word. -/
theorem Word.double_even_le {index : Word} (h : index ≤ Word.literalMax) :
    index * 2 % 2 = 0 ∧ index * 2 ≤ 65534 := by
  have hdouble := Word.toNat_double h
  have hindex := Word.le_literalMax_iff.1 h
  constructor
  · apply UInt16.toNat_inj.1
    rw [UInt16.toNat_mod, hdouble]
    exact Nat.mul_mod_left _ _
  · rw [UInt16.le_iff_toNat_le, hdouble]
    show index.toNat * 2 ≤ 65534
    omega

namespace Instruction

variable {instruction : Instruction} {state : State WordMemory} {slot : Nat} {expr : Expr}

/-! ## Operands -/

/-- The value of an operand is a constant or a register. -/
theorem value?_cases (h : instruction.value? slot = some expr) :
    (∃ value, expr = .const value) ∨ ∃ register, expr = .reg register := by
  simp only [value?, Option.bind_eq_some_iff] at h
  obtain ⟨operand, _, h⟩ := h
  unfold Operand.value? at h
  cases hmeaning : operand.meaning with
  | literal value =>
    rw [hmeaning] at h
    exact Or.inl ⟨value, (Option.some.inj h).symm⟩
  | register register =>
    rw [hmeaning] at h
    exact Or.inr ⟨register, (Option.some.inj h).symm⟩
  | invalid word =>
    rw [hmeaning] at h
    exact absurd h (by simp)

/-- What an operand gives it gives in every width, and it loads nothing. -/
theorem denotes_value? (hbounded : state.IsBounded) (h : instruction.value? slot = some expr) :
    ∃ number, instruction.valueAt? state slot = some number ∧ number ≤ Word.literalMax
      ∧ expr.Denotes state.toBytes number state.toBytes ∧ expr.loads = [] := by
  obtain ⟨number, hnumber, heval⟩ := eval_value? state h
  refine ⟨number, hnumber, valueAt?_le hbounded hnumber, ?_⟩
  rcases value?_cases h with ⟨value, rfl⟩ | ⟨register, rfl⟩
  · obtain ⟨rfl, _⟩ := Prod.mk.inj (Option.some.inj heval)
    exact ⟨.const _ _, rfl⟩
  · obtain ⟨rfl, _⟩ := Prod.mk.inj (Option.some.inj heval)
    exact ⟨.reg register _, rfl⟩

/-- The address of an operand is a doubled constant, or a register that is doubled. -/
theorem address?_cases (h : instruction.address? slot = some expr) :
    (∃ value, expr = .const value)
      ∨ ∃ register, expr = .binary .mult (.reg register) (.const 2) := by
  simp only [address?, Option.bind_eq_some_iff] at h
  obtain ⟨operand, _, h⟩ := h
  unfold Operand.address? at h
  cases hmeaning : operand.meaning with
  | literal value =>
    rw [hmeaning] at h
    exact Or.inl ⟨value * 2, (Option.some.inj h).symm⟩
  | register register =>
    rw [hmeaning] at h
    exact Or.inr ⟨register, (Option.some.inj h).symm⟩
  | invalid word =>
    rw [hmeaning] at h
    exact absurd h (by simp)

/-- A word index is doubled to the same address in every width. -/
theorem denotes_address? (hbounded : state.IsBounded)
    (h : instruction.address? slot = some expr) :
    ∃ index, index ≤ Word.literalMax
      ∧ expr.Denotes state.toBytes (index * 2) state.toBytes ∧ expr.loads = [] := by
  obtain ⟨index, hindex, heval⟩ := eval_address? state h
  refine ⟨index, valueAt?_le hbounded hindex, ?_⟩
  rcases address?_cases h with ⟨value, rfl⟩ | ⟨register, rfl⟩
  · obtain ⟨hvalue, _⟩ := Prod.mk.inj (Option.some.inj heval)
    exact ⟨hvalue ▸ .const _ _, rfl⟩
  · have hregister := hbounded.registers register
    have hdouble := (Expr.Denotes.reg register state.toBytes).double hregister
    obtain ⟨hvalue, _⟩ := Prod.mk.inj (Option.some.inj (hdouble.eval.symm.trans heval))
    exact ⟨hvalue ▸ hdouble, rfl⟩

theorem isWordAddress_address? (hbounded : state.IsBounded)
    (h : instruction.address? slot = some expr) :
    expr.IsWordAddress state.toBytes ∧ expr.loads = [] := by
  obtain ⟨index, hindex, hdenotes, hloads⟩ := denotes_address? hbounded h
  obtain ⟨heven, hle⟩ := Word.double_even_le hindex
  exact ⟨⟨index * 2, hdenotes, heven, hle⟩, hloads⟩

/-- A target is known, or it is an address that an operand gives. -/
theorem target?_cases {target : Target} (h : instruction.target? slot = some target) :
    (∃ address, target = .label address)
      ∨ ∃ expr, instruction.address? slot = some expr ∧ target = .indirect expr := by
  simp only [target?, Option.bind_eq_some_iff] at h
  obtain ⟨operand, hoperand, h⟩ := h
  unfold Operand.target? at h
  split at h
  · next address _ => exact Or.inl ⟨address, (Option.some.inj h).symm⟩
  · obtain ⟨expr, hexpr, rfl⟩ := Option.map_eq_some_iff.1 h
    have haddress : instruction.address? slot = some expr := by
      rw [address?, hoperand, Option.bind_some, hexpr]
    exact Or.inr ⟨expr, haddress, rfl⟩

theorem isWordAddress_target? (hbounded : state.IsBounded) {target : Target}
    (h : instruction.target? slot = some target) :
    ∀ place ∈ target.exprs, place.IsWordAddress state.toBytes ∧ place.loads = [] := by
  rcases target?_cases h with ⟨address, rfl⟩ | ⟨expr, hexpr, rfl⟩
  · exact List.forall_mem_nil _
  · exact List.forall_mem_singleton.2 (isWordAddress_address? hbounded hexpr)

/-! ## Values -/

variable {statement : Statement}

theorem isExact_assign {value : Option Expr} {before : State ByteMemory}
    (h : instruction.assign? value = some statement)
    (hvalue : ∀ expr, value = some expr → expr.IsExact before) : statement.IsExact before := by
  simp only [assign?, Option.bind_eq_bind, Option.bind_eq_some_iff, Option.pure_def,
    Option.some.injEq] at h
  obtain ⟨register, _, expr, hexpr, rfl⟩ := h
  exact Statement.isExact_of_value rfl rfl (hvalue expr hexpr)

theorem denotes_binary? {operator : Operator} (hbounded : state.IsBounded)
    (h : instruction.binary? operator = some expr) :
    ∃ left right b c, expr = .binary operator left right ∧ expr.loads = []
      ∧ instruction.valueAt? state 2 = some c ∧ b ≤ Word.literalMax ∧ c ≤ Word.literalMax
      ∧ left.Denotes state.toBytes b state.toBytes
      ∧ right.Denotes state.toBytes c state.toBytes := by
  simp only [binary?, Option.bind_eq_bind, Option.bind_eq_some_iff, Option.pure_def,
    Option.some.injEq] at h
  obtain ⟨left, hleft, right, hright, rfl⟩ := h
  obtain ⟨b, _, hb, hleft, hleftLoads⟩ := denotes_value? hbounded hleft
  obtain ⟨c, hdivisor, hc, hright, hrightLoads⟩ := denotes_value? hbounded hright
  refine ⟨left, right, b, c, rfl, ?_, hdivisor, hb, hc, hleft, hright⟩
  rw [Expr.loads, hleftLoads, hrightLoads]
  rfl

/-- A value that loads nothing is exact if its number is. -/
theorem isExact_of_denotes {before after : State ByteMemory} {number : Word}
    (hloads : expr.loads = []) (h : expr.Denotes before number after)
    (hle : number ≤ Word.literalMax) : expr.IsExact before := by
  refine ⟨Or.inl ⟨number, after, h, hle⟩, ?_⟩
  rw [hloads]
  exact List.forall_mem_nil _

theorem isExact_value? (hbounded : state.IsBounded) (h : instruction.value? slot = some expr) :
    expr.IsExact state.toBytes := by
  obtain ⟨_, _, hle, hdenotes, hloads⟩ := denotes_value? hbounded h
  exact isExact_of_denotes hloads hdenotes hle

/-- An operator whose result is a number below 32768 as it is. -/
theorem isExact_binary {operator : Operator} {f : Word → Word → Word}
    (hbounded : state.IsBounded)
    (h : instruction.assign? (instruction.binary? operator) = some statement)
    (hf : ∀ b c, f b c ≤ Word.literalMax)
    (hgives : ∀ b c, instruction.valueAt? state 2 = some c →
      b ≤ Word.literalMax → c ≤ Word.literalMax → operator.Gives b c (f b c)) :
    statement.IsExact state.toBytes := by
  apply isExact_assign h
  intro expr hexpr
  obtain ⟨left, right, b, c, rfl, hloads, hdivisor, hb, hc, hleft, hright⟩ :=
    denotes_binary? hbounded hexpr
  exact isExact_of_denotes hloads (hleft.binary hright (hgives b c hdivisor hb hc)) (hf b c)

/-- An operator whose result is brought below 32768. -/
theorem isExact_wrapped {operator : Operator} {f : Word → Word → Nat}
    (hbounded : state.IsBounded)
    (h : instruction.assign? ((instruction.binary? operator).map wrapped) = some statement)
    (hdenotes : ∀ {left right b c}, left.Denotes state.toBytes b state.toBytes →
      right.Denotes state.toBytes c state.toBytes →
      (wrapped (.binary operator left right)).Denotes state.toBytes (Word.reduced (f b c))
        state.toBytes) :
    statement.IsExact state.toBytes := by
  apply isExact_assign h
  intro expr hexpr
  obtain ⟨inner, hinner, rfl⟩ := Option.map_eq_some_iff.1 hexpr
  obtain ⟨left, right, b, c, rfl, hloads, _, _, _, hleft, hright⟩ :=
    denotes_binary? hbounded hinner
  have houter : (wrapped (.binary operator left right)).loads = [] := by
    rw [wrapped, Expr.loads, hloads]
    rfl
  exact isExact_of_denotes houter (hdenotes hleft hright) (Word.reduced_le _)

/-! ## Operations -/

theorem isExact_not (hbounded : state.IsBounded)
    (h : instruction.assign? ((instruction.value? 1).map fun value =>
      .binary .and (.complement value) (.const Word.literalMax)) = some statement) :
    statement.IsExact state.toBytes := by
  apply isExact_assign h
  intro expr hexpr
  obtain ⟨value, hvalue, rfl⟩ := Option.map_eq_some_iff.1 hexpr
  obtain ⟨b, _, hb, hdenotes, hloads⟩ := denotes_value? hbounded hvalue
  refine isExact_of_denotes ?_ (hdenotes.masked hb) (Word.reduced_le _)
  show value.loads ++ [] = []
  rw [hloads, List.append_nil]

/-- A word read from memory is as it is stored, and memory holds numbers only. -/
theorem isExact_rmem (hbounded : state.IsBounded)
    (h : instruction.assign? ((instruction.address? 1).map .load) = some statement) :
    statement.IsExact state.toBytes := by
  apply isExact_assign h
  intro expr hexpr
  obtain ⟨address, haddress, rfl⟩ := Option.map_eq_some_iff.1 hexpr
  obtain ⟨index, hindex, hdenotes, hloads⟩ := denotes_address? hbounded haddress
  have hload := hdenotes.load (Word.double_even_le hindex).1
  rw [State.load_toBytes hindex] at hload
  refine ⟨Or.inl ⟨_, _, hload, hbounded.memory index hindex⟩, ?_⟩
  rw [Expr.loads, hloads]
  exact List.forall_mem_singleton.2 (isWordAddress_address? hbounded haddress).1

theorem isExact_pop (hbounded : state.IsBounded) : Expr.pop.IsExact state.toBytes := by
  refine ⟨?_, List.forall_mem_nil _⟩
  cases hstack : state.stack with
  | nil => exact Or.inr (.pop hstack)
  | cons top rest =>
    have hpop : state.toBytes.pop? = some (top, { state.toBytes with stack := rest }) := by
      simp only [State.pop?, State.toBytes, hstack]
    have htop : top ∈ state.stack := by
      rw [hstack]
      exact List.mem_cons_self
    exact Or.inl ⟨top, _, .pop hpop, hbounded.stack top htop⟩

theorem isExact_input (hbounded : state.IsBounded) : Expr.input.IsExact state.toBytes := by
  refine ⟨?_, List.forall_mem_nil _⟩
  cases hinput : state.input with
  | nil => exact Or.inr (.input hinput)
  | cons c rest =>
    have hread : state.toBytes.read? = some (c, { state.toBytes with input := rest }) := by
      simp only [State.read?, State.toBytes, hinput]
    have hc : c ∈ state.input := by
      rw [hinput]
      exact List.mem_cons_self
    exact Or.inl ⟨c, _, .input hread, hbounded.input c hc⟩

theorem isExact_wmem (hbounded : state.IsBounded)
    (h : (do return Statement.store (← instruction.address? 0) (← instruction.value? 1))
      = some statement) : statement.IsExact state.toBytes := by
  simp only [Option.bind_eq_bind, Option.bind_eq_some_iff, Option.pure_def,
    Option.some.injEq] at h
  obtain ⟨address, haddress, value, hvalue, rfl⟩ := h
  apply Statement.isExact_of
  · exact List.forall_mem_singleton.2 (isExact_value? hbounded hvalue)
  · exact List.forall_mem_singleton.2 (isWordAddress_address? hbounded haddress)

/-- Of the two places of a branch one is known, whichever comes first. -/
theorem isExact_branch (hbounded : state.IsBounded) {condition : Expr} {target : Target}
    {ifTrue ifFalse : Target} (hcondition : instruction.value? 0 = some condition)
    (htarget : instruction.target? 1 = some target)
    (hexprs : ifTrue.exprs ++ ifFalse.exprs = target.exprs) :
    (Statement.branch condition ifTrue ifFalse).IsExact state.toBytes := by
  apply Statement.isExact_of
  · exact List.forall_mem_singleton.2 (isExact_value? hbounded hcondition)
  · rw [Statement.places, hexprs]
    exact isWordAddress_target? hbounded htarget

/-- The statement of an instruction is exact in every state whose words are numbers. -/
theorem isExact_of_statement? (hbounded : state.IsBounded)
    (hdivisor : instruction.operation = .mod → instruction.valueAt? state 2 ≠ some 0)
    (h : instruction.statement? = some statement) : statement.IsExact state.toBytes := by
  cases hoperation : instruction.operation <;> simp only [statement?, hoperation] at h
  case halt | noop =>
    obtain rfl := Option.some.inj h
    exact Statement.isExact_of_places rfl (List.forall_mem_nil _)
  case ret =>
    obtain rfl := Option.some.inj h
    exact Statement.isExact_of_value rfl rfl (isExact_pop hbounded)
  case set => exact isExact_assign h fun _ hexpr => isExact_value? hbounded hexpr
  case push | output =>
    obtain ⟨value, hvalue, rfl⟩ := Option.map_eq_some_iff.1 h
    exact Statement.isExact_of_value rfl rfl (isExact_value? hbounded hvalue)
  case pop => exact isExact_assign h fun _ hexpr => Option.some.inj hexpr ▸ isExact_pop hbounded
  case input =>
    exact isExact_assign h fun _ hexpr => Option.some.inj hexpr ▸ isExact_input hbounded
  case eq =>
    exact isExact_binary hbounded h (fun _ _ => Word.ofCondition_le _)
      fun b c _ _ _ => Operator.gives_equal b c
  case gt =>
    exact isExact_binary hbounded h (fun _ _ => Word.ofCondition_le _)
      fun b c _ hb hc => Operator.gives_greater hb hc
  case add => exact isExact_wrapped hbounded h fun hleft hright => hleft.sum hright
  case mult => exact isExact_wrapped hbounded h fun hleft hright => hleft.product hright
  case mod =>
    apply isExact_binary (f := fun b c => Word.reduced (b.toNat % c.toNat)) hbounded h
      (fun _ _ => Word.reduced_le _)
    intro b c hc hb _
    have hnonzero : c ≠ 0 := by
      intro hzero
      rw [hzero] at hc
      exact hdivisor hoperation hc
    exact Operator.gives_mod hb hnonzero
  case and =>
    exact isExact_binary hbounded h (fun _ _ => Word.reduced_le _)
      fun b c _ hb _ => Operator.gives_and hb c
  case or =>
    exact isExact_binary hbounded h (fun _ _ => Word.reduced_le _)
      fun b c _ hb hc => Operator.gives_or hb hc
  case not => exact isExact_not hbounded h
  case rmem => exact isExact_rmem hbounded h
  case wmem => exact isExact_wmem hbounded h
  case jmp | call =>
    obtain ⟨target, htarget, rfl⟩ := Option.map_eq_some_iff.1 h
    exact Statement.isExact_of_places rfl (isWordAddress_target? hbounded htarget)
  case jt =>
    simp only [Option.bind_eq_bind, Option.bind_eq_some_iff, Option.pure_def,
      Option.some.injEq] at h
    obtain ⟨condition, hcondition, target, htarget, rfl⟩ := h
    exact isExact_branch hbounded hcondition htarget (List.append_nil _)
  case jf =>
    simp only [Option.bind_eq_bind, Option.bind_eq_some_iff, Option.pure_def,
      Option.some.injEq] at h
    obtain ⟨condition, hcondition, target, htarget, rfl⟩ := h
    exact isExact_branch hbounded hcondition htarget rfl

end Instruction

/-! ## Runs -/

namespace Lifted

/-- Some decoded instruction's lifted statements run from one state to the other. -/
def Steps (before after : State ByteMemory) : Prop :=
  ∃ (image : Image) (address : Address) (instruction : Instruction) (flow : Flow Address),
    image.decode address = .ok instruction
      ∧ run instruction.next instruction.lift.statements before = some (after, flow)

/-- The bytes of a machine's state whose words are all numbers. -/
def IsBoundedView (state : State ByteMemory) : Prop :=
  ∃ words : State WordMemory, words.IsBounded ∧ state = words.toBytes

theorem IsBoundedView.step {before after : State ByteMemory} (hbounded : IsBoundedView before)
    (h : Steps before after) : IsBoundedView after := by
  obtain ⟨words, hwords, rfl⟩ := hbounded
  obtain ⟨image, address, instruction, flow, hdecode, hrun⟩ := h
  obtain ⟨final, stop, hstep, houtcome⟩ := Image.step_of_lift hdecode hwords hrun
  exact ⟨final, Instruction.step?_isBounded hwords hstep, (Prod.mk.inj houtcome).1⟩

theorem IsBoundedView.run {before after : State ByteMemory} (hbounded : IsBoundedView before)
    (h : Relation.ReflTransGen Steps before after) : IsBoundedView after := by
  induction h with
  | refl => exact hbounded
  | tail _ hstep ih => exact ih.step hstep

/--
**Lifted code does not depend on the width of its arithmetic.**

Start in a state of the machine in which every word is a number, and run what lifting gives,
instruction by instruction, from whatever images they are decoded. Every word is a number in
the state that this comes to. There each instruction that lifts at all, and does not divide by
zero, lifts to one statement whose values are the same numbers in sixteen bits and over the
integers, all below 32768, and whose addresses are even and at most 65534.
-/
theorem isExact_of_run {start : State WordMemory} {state : State ByteMemory}
    (hbounded : start.IsBounded) (hrun : Relation.ReflTransGen Steps start.toBytes state) :
    IsBoundedView state
      ∧ ∀ (image : Image) (address : Address) (instruction : Instruction),
        image.decode address = .ok instruction →
        .unimplemented ∉ instruction.lift.statements →
        (instruction.operation = .mod → instruction.valueAt? state 2 ≠ some 0) →
        ∃ statement, instruction.lift.statements = [statement] ∧ statement.IsExact state := by
  obtain ⟨words, hwords, rfl⟩ := IsBoundedView.run ⟨start, hbounded, rfl⟩ hrun
  refine ⟨⟨words, hwords, rfl⟩, ?_⟩
  intro image address instruction _ hlift hdivisor
  obtain ⟨statement, hstatement, hstatements⟩ := Instruction.lift_statements hlift
  exact ⟨statement, hstatements, Instruction.isExact_of_statement? hwords hdivisor hstatement⟩

/-- The greatest product has thirty bits. The state is one that another such product has led to. -/
theorem isExact_of_run_mult :
    ∃ state : State ByteMemory,
      Relation.ReflTransGen Steps (State.toBytes ⟨fun _ => 32767, [], id, [], []⟩) state
        ∧ IsBoundedView state
        ∧ ∃ statement,
          (⟨⟨0⟩, .mult, [⟨0, .register, 32768⟩, ⟨1, .value, 32769⟩, ⟨2, .value, 32769⟩]⟩
            : Instruction).lift.statements = [statement] ∧ statement.IsExact state := by
  have hdecode : Image.decode [10, 0, 0, 128, 1, 128, 1, 128] ⟨0⟩
      = .ok ⟨⟨0⟩, .mult, [⟨0, .register, 32768⟩, ⟨1, .value, 32769⟩, ⟨2, .value, 32769⟩]⟩ := by
    rfl
  have hbounded : State.IsBounded ⟨fun _ => 32767, [], id, [], []⟩ :=
    ⟨fun _ => UInt16.le_refl _, by simp, fun _ h => h, by simp⟩
  have hrun : Relation.ReflTransGen Steps (State.toBytes ⟨fun _ => 32767, [], id, [], []⟩)
      ((State.toBytes ⟨fun _ => 32767, [], id, [], []⟩).setRegister ⟨0⟩ 1) :=
    Relation.ReflTransGen.single ⟨_, _, _, .goto ⟨8⟩, hdecode, rfl⟩
  obtain ⟨hwords, hexact⟩ := isExact_of_run hbounded hrun
  exact ⟨_, hrun, hwords, hexact _ _ _ hdecode (by decide +kernel) (fun h => absurd h (by decide))⟩

end Lifted

end WordMachine
