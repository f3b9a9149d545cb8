import WordMachine.Instruction

/-!
# Control flow

An edge is a way execution can leave an instruction other than by going on to the
next one; a conditional jump reports both of its ways. The target of an edge is
known when the operand that gives it is a number.
-/

namespace WordMachine

/-- Why execution takes an edge. -/
inductive EdgeKind
  | unconditional
  | trueBranch
  | falseBranch
  | call
  | ret
  /-- The target is not known before the program runs. -/
  | unresolvedIndirect
  | noReturn
  deriving DecidableEq, Repr

/-- The name of the kind. -/
def EdgeKind.text : EdgeKind → String
  | unconditional => "Unconditional"
  | trueBranch => "TrueBranch"
  | falseBranch => "FalseBranch"
  | call => "Call"
  | ret => "Return"
  | unresolvedIndirect => "UnresolvedIndirect"
  | noReturn => "NoReturn"

/-- A way out of an instruction. -/
structure Edge where
  kind : EdgeKind
  target : Option Address
  deriving DecidableEq, Repr

namespace Edge

/-- An edge to a known address. -/
def toAddress (kind : EdgeKind) (target : Address) : Edge := ⟨kind, some target⟩

/-- An edge without a known address. -/
def untargeted (kind : EdgeKind) : Edge := ⟨kind, none⟩

/-- An edge to where the operand points, unresolved unless the operand is there and is a number. -/
def toOperand (kind : EdgeKind) (operand : Option Operand) : Edge :=
  match operand.bind Operand.literalAddress? with
  | some target => toAddress kind target
  | none => untargeted .unresolvedIndirect

/-- The kind, and the address if it is known. -/
def text (edge : Edge) : String :=
  match edge.target with
  | some target => edge.kind.text ++ " -> " ++ target.text
  | none => edge.kind.text

end Edge

namespace Instruction

/-- The edges out of an instruction. The way given by an operand stands first. -/
def edges (instruction : Instruction) : List Edge :=
  match instruction.operation with
  | .halt => [.untargeted .noReturn]
  | .jmp => [.toOperand .unconditional (instruction.operand? 0)]
  | .jt =>
    [.toOperand .trueBranch (instruction.operand? 1), .toAddress .falseBranch instruction.next]
  | .jf =>
    [.toOperand .falseBranch (instruction.operand? 1), .toAddress .trueBranch instruction.next]
  | .call => [.toOperand .call (instruction.operand? 0)]
  | .ret => [.untargeted .ret]
  | _ => []

/-- Whether execution can go on at the next instruction. -/
def fallsThrough (instruction : Instruction) : Bool :=
  match instruction.operation with
  | .halt | .jmp | .ret => false
  | _ => true

end Instruction

end WordMachine
