import WordMachine.Address
import WordMachine.Lifted.Expr

/-!
# Lifted statements

What an instruction does, said in the lifted language. Control goes to a byte
address, which is either known or computed when the statement runs.
-/

namespace WordMachine.Lifted

/-- Where control goes. -/
inductive Target
  | label (address : Address)
  | indirect (address : Expr)
  deriving DecidableEq, Repr

/-- The address if it is known, else the expression for it. -/
def Target.text : Target → String
  | label address => address.text
  | indirect address => address.text

/-- One effect of an instruction. -/
inductive Statement
  | setReg (register : Register) (value : Expr)
  | push (value : Expr)
  | store (address value : Expr)
  | jump (target : Target)
  | branch (condition : Expr) (ifTrue ifFalse : Target)
  /-- Pushes the place of the next instruction and goes to the target. -/
  | call (target : Target)
  | ret (value : Expr)
  | noReturn
  | output (value : Expr)
  | nop
  /-- Stands for an instruction that the language cannot express. -/
  | unimplemented
  deriving DecidableEq, Repr

/-- The statement as text. -/
def Statement.text : Statement → String
  | setReg register value => register.text ++ " = " ++ value.text
  | push value => "push(" ++ value.text ++ ")"
  | store address value => "[" ++ address.text ++ "] = " ++ value.text
  | jump target => "jump(" ++ target.text ++ ")"
  | branch condition ifTrue ifFalse =>
    "if (" ++ condition.text ++ ") then " ++ ifTrue.text ++ " else " ++ ifFalse.text
  | call target => "call(" ++ target.text ++ ")"
  | ret value => "return(" ++ value.text ++ ")"
  | noReturn => "no_return"
  | output value => "out(" ++ value.text ++ ")"
  | nop => "nop"
  | unimplemented => "unimplemented"

end WordMachine.Lifted
