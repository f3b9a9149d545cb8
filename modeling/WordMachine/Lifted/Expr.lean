import WordMachine.Register

/-!
# Lifted expressions

The values of the lifted language. It has the registers, the stack, the input and
the memory of the machine, but its arithmetic is on all sixteen bits and its memory
is addressed in bytes, so what the machine does implicitly shows as an operator.
-/

namespace WordMachine.Lifted

/-- The operators on two values. -/
inductive Operator
  | add
  | mult
  /-- The remainder of unsigned division. -/
  | mod
  | and
  | or
  | equal
  /-- Greater as signed numbers. -/
  | greater
  deriving DecidableEq, Repr

/-- The sign of an operator. -/
def Operator.text : Operator → String
  | add => "+"
  | mult => "*"
  | mod => "%u"
  | and => "&"
  | or => "|"
  | equal => "=="
  | greater => "s>"

/-- A value. Only `pop` and `input` have an effect besides. -/
inductive Expr
  | const (value : Word)
  | reg (register : Register)
  /-- Takes the top off the stack. -/
  | pop
  /-- Reads a character. -/
  | input
  /-- The memory word at a byte address. -/
  | load (address : Expr)
  /-- All bits inverted. -/
  | complement (operand : Expr)
  | binary (operator : Operator) (left right : Expr)
  deriving DecidableEq, Repr

namespace Expr

/-- The expression as text. Loads are bracketed, and so is each use of an operator. -/
def text : Expr → String
  | const value => value.text
  | reg register => register.text
  | pop => "pop"
  | input => "in"
  | load address => "[" ++ address.text ++ "]"
  | complement operand => "~" ++ operand.text
  | binary operator left right =>
    "(" ++ left.text ++ " " ++ operator.text ++ " " ++ right.text ++ ")"

end Expr

end WordMachine.Lifted
