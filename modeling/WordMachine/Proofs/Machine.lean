import WordMachine.Decoding

/-!
# The machine

What an instruction does to a running machine. Registers, stack, memory, input and
output hold words, and arithmetic is that of numbers below 32768. Memory is numbered by
words, and so are the places control goes to: a jump, a call and a return all name the
index of a word.

A step has no result where the machine has none either: nothing is on the stack that an
instruction pops, a divisor is zero, the input is used up, or an operand means nothing
in its slot.
-/

namespace WordMachine

/-! ## States -/

/-- A running machine, over some form of memory. -/
structure State (Memory : Type) where
  registers : Register → Word
  stack : List Word
  memory : Memory
  /-- What is still to be read. -/
  input : List Word
  /-- What has been written. -/
  output : List Word

/-- Memory as the machine numbers it, a word at each index. -/
abbrev WordMemory := Word → Word

/-- Where control goes: to a place, or nowhere any more. -/
inductive Flow (Place : Type)
  | goto (place : Place)
  | halt

namespace State

variable {Memory : Type}

/-- The state with a register set. -/
def setRegister (state : State Memory) (register : Register) (value : Word) : State Memory :=
  { state with registers := fun other => if other = register then value else state.registers other }

/-- The state with a word pushed on the stack. -/
def push (state : State Memory) (value : Word) : State Memory :=
  { state with stack := value :: state.stack }

/-- The top of the stack and the state without it. -/
def pop? (state : State Memory) : Option (Word × State Memory) :=
  match state.stack with
  | [] => none
  | top :: rest => some (top, { state with stack := rest })

/-- The next character of the input and the state that has read it. -/
def read? (state : State Memory) : Option (Word × State Memory) :=
  match state.input with
  | [] => none
  | c :: rest => some (c, { state with input := rest })

/-- The state with a character written. -/
def write (state : State Memory) (c : Word) : State Memory :=
  { state with output := state.output ++ [c] }

/-- The state with a word of memory replaced. -/
def storeAt (state : State WordMemory) (index value : Word) : State WordMemory :=
  { state with memory := fun other => if other = index then value else state.memory other }

/-- Every word of the state is a number. -/
structure IsBounded (state : State WordMemory) : Prop where
  registers : ∀ register, state.registers register ≤ Word.literalMax
  stack : ∀ word ∈ state.stack, word ≤ Word.literalMax
  memory : ∀ index, index ≤ Word.literalMax → state.memory index ≤ Word.literalMax
  input : ∀ word ∈ state.input, word ≤ Word.literalMax

end State

/-! ## Arithmetic -/

namespace Word

/-- The word for a number, modulo 32768. -/
def reduced (number : Nat) : Word := UInt16.ofNat (number % 32768)

/-- The number that a word stands for in two's complement. -/
def signed (word : Word) : Int :=
  if word.toNat < 32768 then word.toNat else word.toNat - 65536

/-- One if the condition holds, else zero. -/
def ofCondition (condition : Bool) : Word := if condition then 1 else 0

end Word

/-- The word that stands for an address on the stack: its word index, in fifteen bits. The reduction
matters at or behind 65536 only, where the machine has no memory. Every address before that has a
word index that is a number already. -/
def Address.indexWord (address : Address) : Word := Word.reduced address.wordIndex

/-- Inside the machine's memory, going where the word says comes back to the address. -/
theorem Address.ofWordIndex_indexWord {address : Address} (haligned : address.isAligned)
    (h : address.offset < 65536) : ofWordIndex address.indexWord = address := by
  obtain ⟨offset⟩ := address
  have heven : offset % 2 = 0 := of_decide_eq_true haligned
  have hword : (indexWord ⟨offset⟩).toNat * Word.size = offset := by
    simp only [indexWord, Word.reduced, wordIndex, Word.size, UInt16.toNat_ofNat'] at h ⊢
    omega
  rw [ofWordIndex, hword]

/-! ## Steps -/

namespace Instruction

variable {Memory : Type}

/-- The register that a slot names. -/
def registerAt? (instruction : Instruction) (slot : Nat) : Option Register := do
  (← instruction.operand? slot).register?

/-- The number that a slot gives: the operand itself, or what is in the register it names. -/
def valueAt? (instruction : Instruction) (state : State Memory) (slot : Nat) : Option Word := do
  match (← instruction.operand? slot).meaning with
  | .literal value => some value
  | .register register => some (state.registers register)
  | .invalid _ => none

/-- Where the machine goes on if the instruction does not say so. -/
def onward (instruction : Instruction) : Flow Nat := .goto instruction.next.wordIndex

/-- Sets the register in the first slot. -/
def setting (instruction : Instruction) (state : State WordMemory) (value : Word) :
    Option (State WordMemory × Flow Nat) := do
  return (state.setRegister (← instruction.registerAt? 0) value, instruction.onward)

/-- Sets the register in the first slot to a function of the numbers in the other two. -/
def combining (instruction : Instruction) (state : State WordMemory) (f : Word → Word → Word) :
    Option (State WordMemory × Flow Nat) := do
  let b ← instruction.valueAt? state 1
  let c ← instruction.valueAt? state 2
  instruction.setting state (f b c)

/-- Goes to the word index in a slot if the condition holds, else on to the next instruction. -/
def jumping (instruction : Instruction) (state : State WordMemory) (slot : Nat)
    (condition : Bool) : Option (State WordMemory × Flow Nat) := do
  let index ← instruction.valueAt? state slot
  return (state, if condition then .goto index.toNat else instruction.onward)

/-- **What the machine does at an instruction.** -/
def step? (instruction : Instruction) (state : State WordMemory) :
    Option (State WordMemory × Flow Nat) :=
  match instruction.operation with
  | .halt => some (state, .halt)
  | .set => do instruction.setting state (← instruction.valueAt? state 1)
  | .push => do return (state.push (← instruction.valueAt? state 0), instruction.onward)
  | .pop => do
    let (top, state) ← state.pop?
    instruction.setting state top
  | .eq => instruction.combining state fun b c => Word.ofCondition (b == c)
  | .gt => instruction.combining state fun b c => Word.ofCondition (c.signed < b.signed)
  | .jmp => instruction.jumping state 0 true
  | .jt => do
    let a ← instruction.valueAt? state 0
    instruction.jumping state 1 (a != 0)
  | .jf => do
    let a ← instruction.valueAt? state 0
    instruction.jumping state 1 (a == 0)
  | .add => instruction.combining state fun b c => Word.reduced (b.toNat + c.toNat)
  | .mult => instruction.combining state fun b c => Word.reduced (b.toNat * c.toNat)
  | .mod => do
    let b ← instruction.valueAt? state 1
    let c ← instruction.valueAt? state 2
    if c = 0 then none else instruction.setting state (Word.reduced (b.toNat % c.toNat))
  | .and => instruction.combining state fun b c => Word.reduced (b.toNat &&& c.toNat)
  | .or => instruction.combining state fun b c => Word.reduced (b.toNat ||| c.toNat)
  | .not => do
    let b ← instruction.valueAt? state 1
    instruction.setting state (Word.reduced (Word.literalMax.toNat - b.toNat))
  | .rmem => do
    let index ← instruction.valueAt? state 1
    instruction.setting state (state.memory index)
  | .wmem => do
    let index ← instruction.valueAt? state 0
    let value ← instruction.valueAt? state 1
    return (state.storeAt index value, instruction.onward)
  | .call => do
    let index ← instruction.valueAt? state 0
    return (state.push instruction.next.indexWord, .goto index.toNat)
  | .ret =>
    match state.pop? with
    | none => some (state, .halt)
    | some (index, state) => some (state, .goto index.toNat)
  | .output => do return (state.write (← instruction.valueAt? state 0), instruction.onward)
  | .input => do
    let (c, state) ← state.read?
    instruction.setting state c
  | .noop => some (state, instruction.onward)

/-- **A return comes back behind the call**, if the machine has memory there. What the call has
pushed is gone from the stack then. -/
theorem step?_ret_of_step?_call {call ret : Instruction} {state after : State WordMemory}
    {flow : Flow Nat} (hcall : call.operation = .call) (hret : ret.operation = .ret)
    (haligned : call.next.isAligned) (hinside : call.next.offset < 65536)
    (hstep : call.step? state = some (after, flow)) :
    ∃ index : Nat, ret.step? after = some (state, .goto index)
      ∧ Address.mk (index * Word.size) = call.next := by
  simp only [step?, hcall] at hstep
  obtain ⟨index, -, houtcome⟩ := Option.bind_eq_some_iff.1 hstep
  obtain ⟨rfl, -⟩ := Prod.mk.inj (Option.some.inj houtcome)
  refine ⟨call.next.indexWord.toNat, ?_, Address.ofWordIndex_indexWord haligned hinside⟩
  simp only [step?, hret]
  rfl

end Instruction

end WordMachine
