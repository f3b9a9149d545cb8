import WordMachine.Lifted.Statement
import WordMachine.Proofs.Machine

/-!
# Running lifted statements

The lifted language has no machine of its own, so its meaning is said here. It runs on
the registers, the stack, the input and the output of the machine, but its memory is
bytes, its arithmetic is on all sixteen bits, and control goes to byte addresses.

Two things are still said in words: a call pushes the word index of the next
instruction, and a return takes one.
-/

namespace WordMachine

/-! ## Memory in bytes -/

/-- Memory as the lifted language numbers it, a byte at each address. -/
abbrev ByteMemory := Word → UInt8

namespace ByteMemory

/-- The word at a byte address, low byte first. -/
def load (memory : ByteMemory) (address : Word) : Word :=
  Word.ofBytes (memory address) (memory (address + 1))

/-- The memory with a word put at a byte address. -/
def store (memory : ByteMemory) (address value : Word) : ByteMemory := fun other =>
  if other = address then UInt8.ofNat (value.toNat % 256)
  else if other = address + 1 then UInt8.ofNat (value.toNat / 256)
  else memory other

end ByteMemory

namespace Lifted

/-! ## Expressions -/

/-- What an operator gives. There is no remainder of a division by zero. -/
def Operator.apply : Operator → Word → Word → Option Word
  | add, left, right => some (left + right)
  | mult, left, right => some (left * right)
  | mod, left, right => if right = 0 then none else some (left % right)
  | and, left, right => some (left &&& right)
  | or, left, right => some (left ||| right)
  | equal, left, right => some (Word.ofCondition (left == right))
  | greater, left, right => some (Word.ofCondition (right.signed < left.signed))

/-- The value of an expression and the state its evaluation leaves. -/
def Expr.eval : Expr → State ByteMemory → Option (Word × State ByteMemory)
  | const value, state => some (value, state)
  | reg register, state => some (state.registers register, state)
  | pop, state => state.pop?
  | input, state => state.read?
  | load address, state => do
    let (address, state) ← address.eval state
    return (state.memory.load address, state)
  | complement operand, state => do
    let (value, state) ← operand.eval state
    return (~~~value, state)
  | binary operator left right, state => do
    let (left, state) ← left.eval state
    let (right, state) ← right.eval state
    return (← operator.apply left right, state)

/-! ## Statements -/

/-- The address of a target and the state its evaluation leaves. -/
def Target.place : Target → State ByteMemory → Option (Address × State ByteMemory)
  | label address, state => some (address, state)
  | indirect address, state => do
    let (address, state) ← address.eval state
    return (⟨address.toNat⟩, state)

/-- Goes to a target. -/
def Target.enter (target : Target) (state : State ByteMemory) :
    Option (State ByteMemory × Option (Flow Address)) := do
  let (address, state) ← target.place state
  return (state, some (.goto address))

/-- Runs one statement. The outcome names no place if control is not transferred. -/
def Statement.run (next : Address) : Statement → State ByteMemory →
    Option (State ByteMemory × Option (Flow Address))
  | setReg register value, state => do
    let (value, state) ← value.eval state
    return (state.setRegister register value, none)
  | push value, state => do
    let (value, state) ← value.eval state
    return (state.push value, none)
  | store address value, state => do
    let (address, state) ← address.eval state
    let (value, state) ← value.eval state
    return ({ state with memory := state.memory.store address value }, none)
  | jump target, state => target.enter state
  | branch condition ifTrue ifFalse, state => do
    let (condition, state) ← condition.eval state
    if condition != 0 then ifTrue.enter state else ifFalse.enter state
  | call target, state => do
    let (address, state) ← target.place state
    return (state.push next.indexWord, some (.goto address))
  | ret value, state => do
    let (index, state) ← value.eval state
    return (state, some (.goto (.ofWordIndex index)))
  | noReturn, state => some (state, some .halt)
  | output value, state => do
    let (c, state) ← value.eval state
    return (state.write c, none)
  | nop, state => some (state, none)
  | unimplemented, _ => none

/-- Runs statements in order until one transfers control. After the last control goes to the
next instruction. -/
def run (next : Address) : List Statement → State ByteMemory →
    Option (State ByteMemory × Flow Address)
  | [], state => some (state, .goto next)
  | statement :: rest, state => do
    match ← statement.run next state with
    | (state, none) => run next rest state
    | (state, some flow) => return (state, flow)

end Lifted

end WordMachine
