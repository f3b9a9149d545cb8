import WordMachine.ControlFlow
import WordMachine.Lifting
import WordMachine.Proofs.Decoding
import WordMachine.Proofs.Meaning

/-!
# Edges say what the lifted statement says

The edges of an instruction and its lifted statement are computed apart from each other,
each with its own way to the address that an operand gives. For a decoded instruction they
agree: the statement alone determines the edges and whether execution can go on behind the
instruction. Only the order of the two ways of a branch is not in the statement, and there
the way that the operand gives stands first.

Decoding matters for one thing only. Every operand word then means something, so a
statement that transfers control is never missing.
-/

namespace WordMachine

open Lifted

/-! ## What a statement tells of control -/

/-- The edge to a target. An address that is computed is not known. -/
def Edge.toTarget (kind : EdgeKind) : Target → Edge
  | .label address => .toAddress kind address
  | .indirect _ => .untargeted .unresolvedIndirect

namespace Lifted.Statement

/-- Where the statement may send control. -/
def targets : Statement → List Target
  | jump target | call target => [target]
  | branch _ ifTrue ifFalse => [ifTrue, ifFalse]
  | _ => []

/-- The edges of an instruction with this statement, the true side of a branch first. -/
def edges : Statement → List Edge
  | jump target => [.toTarget .unconditional target]
  | branch _ ifTrue ifFalse => [.toTarget .trueBranch ifTrue, .toTarget .falseBranch ifFalse]
  | call target => [.toTarget .call target]
  | ret _ => [.untargeted .ret]
  | noReturn => [.untargeted .noReturn]
  | _ => []

/-- Whether the statement never lets execution go on behind the instruction. A call does. -/
def leavesForGood : Statement → Bool
  | jump _ | ret _ | noReturn => true
  | _ => false

/-- Every address among the edges is a label of the statement. -/
theorem label_mem_targets {statement : Statement} {edge : Edge} {address : Address}
    (hedge : edge ∈ statement.edges) (haddress : edge.target = some address) :
    .label address ∈ statement.targets := by
  -- an edge has an address only where it is made from a target, and then that is a label
  have key : ∀ (kind : EdgeKind) (target : Target), edge = .toTarget kind target →
      target = .label address := by
    intro kind target h
    cases target with
    | label place =>
      rw [h] at haddress
      exact congrArg Target.label (Option.some.inj haddress)
    | indirect expr =>
      rw [h] at haddress
      exact absurd haddress (by simp [Edge.toTarget, Edge.untargeted])
  cases statement with
  | jump target => exact List.mem_singleton.2 (key _ target (List.mem_singleton.1 hedge)).symm
  | call target => exact List.mem_singleton.2 (key _ target (List.mem_singleton.1 hedge)).symm
  | branch condition ifTrue ifFalse =>
    rcases List.mem_cons.1 hedge with h | h
    · exact List.mem_cons.2 (Or.inl (key _ ifTrue h).symm)
    · have hlabel := (key _ ifFalse (List.mem_singleton.1 h)).symm
      exact List.mem_cons.2 (Or.inr (List.mem_singleton.2 hlabel))
  | ret value =>
    rw [List.mem_singleton.1 hedge] at haddress
    exact absurd haddress (by simp [Edge.untargeted])
  | noReturn =>
    rw [List.mem_singleton.1 hedge] at haddress
    exact absurd haddress (by simp [Edge.untargeted])
  | setReg | push | store | output | nop | unimplemented => exact absurd hedge (by simp [edges])

end Lifted.Statement

/-! ## Operands that say where to go -/

theorem Address.isAligned_ofWordIndex (index : Word) : (ofWordIndex index).isAligned := by
  simp [isAligned, ofWordIndex]

namespace Operand

variable {operand : Operand}

/-- A word that means something is a number or names a register. -/
theorem meaning_of_le_registerMax (h : operand.word ≤ Word.registerMax) :
    operand.meaning = .literal operand.word
      ∨ ∃ register, operand.meaning = .register register := by
  rcases Word.meaning_cases operand.word with ⟨_, hmeaning⟩ | ⟨register, _, hmeaning⟩ | ⟨hmax, _⟩
  · exact Or.inl hmeaning
  · exact Or.inr ⟨register, hmeaning⟩
  · exact absurd h (UInt16.not_le.2 hmax)

theorem exists_value? (h : operand.word ≤ Word.registerMax) :
    ∃ value, operand.value? = some value := by
  rcases meaning_of_le_registerMax h with hmeaning | ⟨register, hmeaning⟩
  · exact ⟨.const operand.word, by rw [value?, hmeaning]⟩
  · exact ⟨.reg register, by rw [value?, hmeaning]⟩

theorem exists_target? (h : operand.word ≤ Word.registerMax) :
    ∃ target, operand.target? = some target := by
  cases hliteral : operand.literalAddress? with
  | some address => exact ⟨.label address, by rw [target?, hliteral]⟩
  | none =>
    rcases meaning_of_le_registerMax h with hmeaning | ⟨register, hmeaning⟩
    · exact ⟨_, by rw [target?, hliteral, address?, hmeaning]; rfl⟩
    · exact ⟨_, by rw [target?, hliteral, address?, hmeaning]; rfl⟩

/-- A number says where to go as a byte address, which is even. -/
theorem isAligned_of_target? {address : Address} (h : operand.target? = some (.label address)) :
    address.isAligned := by
  unfold target? at h
  split at h
  · next place hplace =>
    obtain rfl : place = address := by simpa using h
    unfold literalAddress? at hplace
    split at hplace
    · rw [← Option.some.inj hplace]
      exact Address.isAligned_ofWordIndex operand.word
    · exact absurd hplace (by simp)
  · exact absurd h (by simp)

end Operand

namespace Instruction

variable {instruction : Instruction} {slot : Nat}

/-- **An operand gives the same place to an edge and to a statement.** -/
theorem toOperand_eq_toTarget (kind : EdgeKind) {target : Target}
    (h : instruction.target? slot = some target) :
    Edge.toOperand kind (instruction.operand? slot) = Edge.toTarget kind target := by
  simp only [target?, Option.bind_eq_some_iff] at h
  obtain ⟨operand, hoperand, h⟩ := h
  rw [Edge.toOperand, hoperand, Option.bind_some]
  unfold Operand.target? at h
  cases hliteral : operand.literalAddress? with
  | some address =>
    rw [hliteral] at h
    obtain rfl := Option.some.inj h
    rfl
  | none =>
    rw [hliteral] at h
    obtain ⟨expr, _, rfl⟩ := Option.map_eq_some_iff.1 h
    rfl

theorem isAligned_of_target? {address : Address}
    (h : instruction.target? slot = some (.label address)) : address.isAligned := by
  simp only [target?, Option.bind_eq_some_iff] at h
  obtain ⟨operand, _, h⟩ := h
  exact Operand.isAligned_of_target? h

/-- A well formed instruction has an operand that means something in every slot. -/
theorem WellFormed.exists_operand? (h : instruction.WellFormed) (slot : Nat)
    (hslot : slot < instruction.operation.arity) :
    ∃ operand, instruction.operand? slot = some operand ∧ operand.word ≤ Word.registerMax := by
  have hlength : slot < instruction.operands.length := by rwa [h.length_operands]
  have hget := List.getElem?_eq_getElem hlength
  exact ⟨_, hget, (h.operand slot _ hget).2.2⟩

theorem WellFormed.exists_value? (h : instruction.WellFormed) (slot : Nat)
    (hslot : slot < instruction.operation.arity) :
    ∃ value, instruction.value? slot = some value := by
  obtain ⟨operand, hoperand, hle⟩ := h.exists_operand? slot hslot
  rw [value?, hoperand]
  exact Operand.exists_value? hle

theorem WellFormed.exists_target? (h : instruction.WellFormed) (slot : Nat)
    (hslot : slot < instruction.operation.arity) :
    ∃ target, instruction.target? slot = some target := by
  obtain ⟨operand, hoperand, hle⟩ := h.exists_operand? slot hslot
  rw [target?, hoperand]
  exact Operand.exists_target? hle

/-! ## Agreement -/

/-- The statement and the instruction say the same of where control can go. -/
structure Agrees (instruction : Instruction) (statement : Statement) : Prop where
  /-- The edges are those of the statement, the way given by the operand first, which is the false
  side of a `jf`. -/
  edges : instruction.edges
    = if instruction.operation = .jf then statement.edges.reverse else statement.edges
  /-- One side of a branch is given by the operand, and the other is what comes next. -/
  branch : ∀ condition ifTrue ifFalse, statement = .branch condition ifTrue ifFalse →
    (instruction.operation = .jt ∧ instruction.target? 1 = some ifTrue
        ∧ ifFalse = .label instruction.next)
      ∨ (instruction.operation = .jf ∧ instruction.target? 1 = some ifFalse
        ∧ ifTrue = .label instruction.next)
  /-- Execution goes on behind the instruction unless the statement leaves for good. -/
  fallsThrough : instruction.fallsThrough = !statement.leavesForGood
  /-- Known addresses are even. -/
  isAligned : ∀ address, .label address ∈ statement.targets → address.isAligned

/-- A statement that says nothing of control. -/
def IsQuiet (statement : Statement) : Prop :=
  statement.targets = [] ∧ statement.edges = [] ∧ statement.leavesForGood = false

theorem IsQuiet.agrees {statement : Statement} (hquiet : IsQuiet statement)
    (hedges : instruction.edges = []) (hfalls : instruction.fallsThrough = true) :
    instruction.Agrees statement where
  edges := by rw [hedges, hquiet.2.1, List.reverse_nil, ite_self]
  branch := by
    rintro condition ifTrue ifFalse rfl
    exact absurd hquiet.2.1 (by simp [Statement.edges])
  fallsThrough := by rw [hfalls, hquiet.2.2]; rfl
  isAligned := by
    intro address haddress
    rw [hquiet.1] at haddress
    exact absurd haddress (by simp)

/-- What cannot be expressed says nothing of control either. -/
theorem isQuiet_getD {statement? : Option Statement}
    (h : ∀ statement, statement? = some statement → IsQuiet statement) :
    IsQuiet (statement?.getD .unimplemented) := by
  cases statement? with
  | none => exact ⟨rfl, rfl, rfl⟩
  | some statement => exact h statement rfl

theorem isQuiet_assign? (value : Option Expr) :
    IsQuiet ((instruction.assign? value).getD .unimplemented) := by
  refine isQuiet_getD fun statement hassign => ?_
  simp only [assign?, Option.bind_eq_bind, Option.bind_eq_some_iff, Option.pure_def,
    Option.some.injEq] at hassign
  obtain ⟨register, _, expr, _, rfl⟩ := hassign
  exact ⟨rfl, rfl, rfl⟩

/-- A statement with the one target that the operand in the first slot gives. -/
theorem agrees_of_target? {statement : Statement} {kind : EdgeKind} {target : Target}
    (htarget : instruction.target? 0 = some target)
    (hedges : instruction.edges = [.toOperand kind (instruction.operand? 0)])
    (htold : statement.edges = [.toTarget kind target]) (htargets : statement.targets = [target])
    (hfalls : instruction.fallsThrough = !statement.leavesForGood) :
    instruction.Agrees statement where
  edges := by
    rw [hedges, htold, toOperand_eq_toTarget kind htarget, List.reverse_singleton, ite_self]
  branch := by
    rintro condition ifTrue ifFalse rfl
    exact absurd htold (by simp [Statement.edges])
  fallsThrough := hfalls
  isAligned := by
    intro address haddress
    rw [htargets] at haddress
    rw [← List.mem_singleton.1 haddress] at htarget
    exact isAligned_of_target? htarget

theorem WellFormed.agrees_jmp (h : instruction.WellFormed)
    (hoperation : instruction.operation = .jmp) :
    instruction.Agrees (instruction.statement?.getD .unimplemented) := by
  obtain ⟨target, htarget⟩ := h.exists_target? 0 (by rw [hoperation]; decide)
  have hstatement : instruction.statement? = some (.jump target) := by
    simp only [statement?, hoperation, htarget, Option.map_some]
  rw [hstatement]
  exact agrees_of_target? htarget (by simp only [edges, hoperation]) rfl rfl
    (by simp only [fallsThrough, hoperation]; rfl)

theorem WellFormed.agrees_call (h : instruction.WellFormed)
    (hoperation : instruction.operation = .call) :
    instruction.Agrees (instruction.statement?.getD .unimplemented) := by
  obtain ⟨target, htarget⟩ := h.exists_target? 0 (by rw [hoperation]; decide)
  have hstatement : instruction.statement? = some (.call target) := by
    simp only [statement?, hoperation, htarget, Option.map_some]
  rw [hstatement]
  exact agrees_of_target? htarget (by simp only [edges, hoperation]) rfl rfl
    (by simp only [fallsThrough, hoperation]; rfl)

/-- A branch with one side given by the operand in the second slot, and the other by what comes
next. Which side is which depends on the operation. -/
theorem agrees_of_branch {condition : Expr} {target ifTrue ifFalse : Target}
    (hnext : instruction.next.isAligned) (htarget : instruction.target? 1 = some target)
    (hsides : (instruction.operation = .jt ∧ ifTrue = target ∧ ifFalse = .label instruction.next)
      ∨ (instruction.operation = .jf ∧ ifFalse = target ∧ ifTrue = .label instruction.next)) :
    instruction.Agrees (.branch condition ifTrue ifFalse) where
  edges := by
    rcases hsides with ⟨hoperation, rfl, rfl⟩ | ⟨hoperation, rfl, rfl⟩
    · rw [if_neg (by rw [hoperation]; decide)]
      simp only [edges, hoperation, toOperand_eq_toTarget _ htarget]
      rfl
    · rw [if_pos hoperation]
      simp only [edges, hoperation, toOperand_eq_toTarget _ htarget]
      rfl
  branch := by
    intro value trueSide falseSide hbranch
    obtain ⟨rfl, rfl, rfl⟩ := Statement.branch.inj hbranch
    rcases hsides with ⟨hoperation, rfl, hother⟩ | ⟨hoperation, rfl, hother⟩
    · exact Or.inl ⟨hoperation, htarget, hother⟩
    · exact Or.inr ⟨hoperation, htarget, hother⟩
  fallsThrough := by
    rcases hsides with ⟨hoperation, _⟩ | ⟨hoperation, _⟩
    · simp only [fallsThrough, hoperation]
      rfl
    · simp only [fallsThrough, hoperation]
      rfl
  isAligned := by
    -- whichever side it is, an address comes from the operand or is the next one
    have haddress : ∀ address, Target.label address = target
        ∨ Target.label address = .label instruction.next → address.isAligned := by
      rintro address (rfl | hlabel)
      · exact isAligned_of_target? htarget
      · rwa [Target.label.inj hlabel]
    intro address hmem
    have hside : .label address = ifTrue ∨ .label address = ifFalse := by
      simpa [Statement.targets] using hmem
    rcases hsides with ⟨_, rfl, rfl⟩ | ⟨_, rfl, rfl⟩
    · exact haddress address hside
    · exact haddress address hside.symm

theorem WellFormed.agrees_jt (h : instruction.WellFormed) (hnext : instruction.next.isAligned)
    (hoperation : instruction.operation = .jt) :
    instruction.Agrees (instruction.statement?.getD .unimplemented) := by
  obtain ⟨condition, hcondition⟩ := h.exists_value? 0 (by rw [hoperation]; decide)
  obtain ⟨target, htarget⟩ := h.exists_target? 1 (by rw [hoperation]; decide)
  have hstatement : instruction.statement?
      = some (.branch condition target (.label instruction.next)) := by
    simp only [statement?, hoperation, hcondition, htarget]
    rfl
  rw [hstatement]
  exact agrees_of_branch hnext htarget (Or.inl ⟨hoperation, rfl, rfl⟩)

theorem WellFormed.agrees_jf (h : instruction.WellFormed) (hnext : instruction.next.isAligned)
    (hoperation : instruction.operation = .jf) :
    instruction.Agrees (instruction.statement?.getD .unimplemented) := by
  obtain ⟨condition, hcondition⟩ := h.exists_value? 0 (by rw [hoperation]; decide)
  obtain ⟨target, htarget⟩ := h.exists_target? 1 (by rw [hoperation]; decide)
  have hstatement : instruction.statement?
      = some (.branch condition (.label instruction.next) target) := by
    simp only [statement?, hoperation, hcondition, htarget]
    rfl
  rw [hstatement]
  exact agrees_of_branch hnext htarget (Or.inr ⟨hoperation, rfl, rfl⟩)

/-- **The statement of a decoded instruction agrees with its edges**, operation by operation. -/
theorem WellFormed.agrees (h : instruction.WellFormed) (hnext : instruction.next.isAligned) :
    instruction.Agrees (instruction.statement?.getD .unimplemented) := by
  cases hoperation : instruction.operation with
  | jmp => exact h.agrees_jmp hoperation
  | call => exact h.agrees_call hoperation
  | jt => exact h.agrees_jt hnext hoperation
  | jf => exact h.agrees_jf hnext hoperation
  | halt =>
    simp only [statement?, hoperation]
    exact ⟨by simp [edges, hoperation, Statement.edges], by simp,
      by simp [fallsThrough, hoperation, Statement.leavesForGood], by simp [Statement.targets]⟩
  | ret =>
    simp only [statement?, hoperation]
    exact ⟨by simp [edges, hoperation, Statement.edges], by simp,
      by simp [fallsThrough, hoperation, Statement.leavesForGood], by simp [Statement.targets]⟩
  | set | pop | eq | gt | add | mult | mod | and | or | not | rmem | input =>
    simp only [statement?, hoperation]
    exact (isQuiet_assign? _).agrees (by simp only [edges, hoperation])
      (by simp only [fallsThrough, hoperation])
  | push | output =>
    simp only [statement?, hoperation]
    refine (isQuiet_getD fun statement hstatement => ?_).agrees (by simp only [edges, hoperation])
      (by simp only [fallsThrough, hoperation])
    obtain ⟨value, _, rfl⟩ := Option.map_eq_some_iff.1 hstatement
    exact ⟨rfl, rfl, rfl⟩
  | wmem =>
    simp only [statement?, hoperation]
    refine (isQuiet_getD fun statement hstatement => ?_).agrees (by simp only [edges, hoperation])
      (by simp only [fallsThrough, hoperation])
    simp only [Option.bind_eq_bind, Option.bind_eq_some_iff, Option.pure_def,
      Option.some.injEq] at hstatement
    obtain ⟨address, _, value, _, rfl⟩ := hstatement
    exact ⟨rfl, rfl, rfl⟩
  | noop =>
    simp only [statement?, hoperation]
    exact IsQuiet.agrees ⟨rfl, rfl, rfl⟩ (by simp only [edges, hoperation])
      (by simp only [fallsThrough, hoperation])

/-- The edges of an instruction are edges of the statement it agrees with. -/
theorem Agrees.mem_edges {statement : Statement} (h : instruction.Agrees statement) {edge : Edge}
    (hedge : edge ∈ instruction.edges) : edge ∈ statement.edges := by
  rw [h.edges] at hedge
  split at hedge
  · exact List.mem_reverse.1 hedge
  · exact hedge

end Instruction

namespace Image

/--
**Edges, fall through and the lifted statement agree on control flow.**

A decoded instruction lifts to exactly one statement. A jump has the one edge to its target,
a call likewise, and a target that is computed makes the edge unresolved. A return and the
end of the program have their own edges without a target. A branch has two, one for each
side; one side is what comes next, and the other, which stands first, is what the operand
gives. Any other statement has none. Execution goes on behind the instruction unless the
statement jumps, returns or ends the program. Every known address, among the edges or the
labels, is even.
-/
theorem edges_agree_with_lift {image : Image} {address : Address} {instruction : Instruction}
    (h : image.decode address = .ok instruction) :
    ∃ statement : Statement,
      instruction.lift.statements = [statement]
        ∧ instruction.Agrees statement
        ∧ ∀ edge ∈ instruction.edges, ∀ target ∈ edge.target, target.isAligned := by
  obtain ⟨haligned, rfl, hformed, -⟩ := decode_eq_ok_iff.1 h
  have hagrees := hformed.agrees (Address.isAligned_add_length haligned instruction)
  refine ⟨_, rfl, hagrees, fun edge hedge target htarget => ?_⟩
  exact hagrees.isAligned target (Statement.label_mem_targets (hagrees.mem_edges hedge) htarget)

/-- The two ways out of a `jf`, the false one first, as its operand gives that one. -/
theorem edges_agree_with_lift_jf :
    decode [8, 0, 0, 128, 32, 0] ⟨0⟩ = .ok ⟨⟨0⟩, .jf, [⟨0, .value, 32768⟩, ⟨1, .address, 32⟩]⟩
      ∧ Instruction.edges ⟨⟨0⟩, .jf, [⟨0, .value, 32768⟩, ⟨1, .address, 32⟩]⟩
        = [⟨.falseBranch, some ⟨64⟩⟩, ⟨.trueBranch, some ⟨6⟩⟩] := by
  have hdecode : decode [8, 0, 0, 128, 32, 0] ⟨0⟩
      = .ok ⟨⟨0⟩, .jf, [⟨0, .value, 32768⟩, ⟨1, .address, 32⟩]⟩ := by
    rfl
  refine ⟨hdecode, ?_⟩
  obtain ⟨statement, hlift, hagrees, -⟩ := edges_agree_with_lift hdecode
  obtain rfl := (List.cons.inj hlift).1
  exact hagrees.edges

end Image

end WordMachine
