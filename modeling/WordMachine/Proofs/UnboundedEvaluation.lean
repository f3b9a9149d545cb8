import Mathlib.Data.Int.Bitwise
import WordMachine.Lifting
import WordMachine.Proofs.ByteView

/-!
# Evaluation over the integers

The lifted language computes in sixteen bits. Here its expressions get their values once
more over the integers, where nothing wraps around: sums and products are exact, the
bitwise operators act on two's complement without an end, and numbers are compared as
numbers. Memory keeps its addresses, so a load from anything else has no value.

On words below 32768 the operators give the same number both ways, all but two of them. A
sum or a product may be cut off at sixteen bits, and a complement is negative over the
integers. Each of these agrees again behind the operator that brings it below 32768.
-/

namespace WordMachine

/-- The word at an address that is any number. Both its bytes must have addresses. -/
def ByteMemory.loadAt? (memory : ByteMemory) : Int → Option Word
  | .ofNat offset =>
    if offset + 1 < 65536 then some (memory.load (UInt16.ofNat offset)) else none
  | .negSucc _ => none

theorem ByteMemory.loadAt?_of_even (memory : ByteMemory) {address : Word}
    (heven : address % 2 = 0) : memory.loadAt? address.toNat = some (memory.load address) := by
  have hbound := address.toNat_lt
  have hparity : address.toNat % 2 = 0 := by
    have hmod := UInt16.toNat_mod address 2
    rw [heven] at hmod
    exact hmod.symm
  have hrange : address.toNat + 1 < 65536 := by omega
  show (if address.toNat + 1 < 65536 then some (memory.load (UInt16.ofNat address.toNat)) else none)
    = some (memory.load address)
  rw [if_pos hrange, UInt16.ofNat_toNat]

namespace Lifted

/-! ## Values without a width -/

/-- What an operator gives on numbers of any size. -/
def Operator.applyInt : Operator → Int → Int → Option Int
  | add, left, right => some (left + right)
  | mult, left, right => some (left * right)
  | mod, left, right => if right = 0 then none else some (left % right)
  | and, left, right => some (Int.land left right)
  | or, left, right => some (Int.lor left right)
  | equal, left, right => some (if left = right then 1 else 0)
  | greater, left, right => some (if right < left then 1 else 0)

/-- The value of an expression as an integer, and the state its evaluation leaves. -/
def Expr.evalInt : Expr → State ByteMemory → Option (Int × State ByteMemory)
  | const value, state => some (value.toNat, state)
  | reg register, state => some ((state.registers register).toNat, state)
  | pop, state => do
    let (top, state) ← state.pop?
    return (top.toNat, state)
  | input, state => do
    let (c, state) ← state.read?
    return (c.toNat, state)
  | load address, state => do
    let (address, state) ← address.evalInt state
    return ((← state.memory.loadAt? address).toNat, state)
  | complement operand, state => do
    let (value, state) ← operand.evalInt state
    return (Int.lnot value, state)
  | binary operator left right, state => do
    let (left, state) ← left.evalInt state
    let (right, state) ← right.evalInt state
    return (← operator.applyInt left right, state)

/-- In sixteen bits and over the integers the expression has this number, and its evaluation leaves
the same state. -/
structure Expr.Denotes (expr : Expr) (before : State ByteMemory) (number : Word)
    (after : State ByteMemory) : Prop where
  eval : expr.eval before = some (number, after)
  evalInt : expr.evalInt before = some ((number.toNat : Int), after)

/-! ## Operators that agree as they are -/

/-- The operator gives this word both ways. -/
def Operator.Gives (operator : Operator) (b c result : Word) : Prop :=
  operator.apply b c = some result ∧ operator.applyInt b.toNat c.toNat = some (result.toNat : Int)

namespace Operator

variable {b c : Word}

theorem gives_mod (hb : b ≤ Word.literalMax) (hc : c ≠ 0) :
    mod.Gives b c (Word.reduced (b.toNat % c.toNat)) := by
  have hnonzero : (c.toNat : Int) ≠ 0 := by
    intro hzero
    exact hc (UInt16.toNat_inj.1 (Int.ofNat_inj.1 hzero))
  rw [← Word.mod_eq_reduced hb c]
  refine ⟨if_neg hc, ?_⟩
  rw [applyInt, if_neg hnonzero, UInt16.toNat_mod, Int.natCast_mod]

theorem gives_and (hb : b ≤ Word.literalMax) (c : Word) :
    and.Gives b c (Word.reduced (b.toNat &&& c.toNat)) := by
  rw [← Word.and_eq_reduced hb c]
  refine ⟨rfl, ?_⟩
  rw [UInt16.toNat_and]
  rfl

theorem gives_or (hb : b ≤ Word.literalMax) (hc : c ≤ Word.literalMax) :
    or.Gives b c (Word.reduced (b.toNat ||| c.toNat)) := by
  rw [← Word.or_eq_reduced hb hc]
  refine ⟨rfl, ?_⟩
  rw [UInt16.toNat_or]
  rfl

/-- A condition is one or zero in every width. -/
theorem toNat_ofCondition (condition : Bool) :
    ((Word.ofCondition condition).toNat : Int) = if condition then 1 else 0 := by
  cases condition <;> rfl

theorem gives_equal (b c : Word) : equal.Gives b c (Word.ofCondition (b == c)) := by
  refine ⟨rfl, ?_⟩
  rw [toNat_ofCondition, applyInt]
  by_cases h : b = c
  · simp [h]
  · have hne : b.toNat ≠ c.toNat := fun heq => h (UInt16.toNat_inj.1 heq)
    simp [h, hne]

/-- The sign is not seen on words below 32768. -/
theorem gives_greater (hb : b ≤ Word.literalMax) (hc : c ≤ Word.literalMax) :
    greater.Gives b c (Word.ofCondition (c.signed < b.signed)) := by
  have hb := Word.le_literalMax_iff.1 hb
  have hc := Word.le_literalMax_iff.1 hc
  refine ⟨rfl, ?_⟩
  rw [toNat_ofCondition, applyInt, Word.signed, if_pos hc, Word.signed, if_pos hb]
  simp

end Operator

/-! ## Expressions -/

namespace Expr.Denotes

variable {left right operand address : Expr} {before between after : State ByteMemory}
  {b c result place : Word}

theorem const (value : Word) (state : State ByteMemory) :
    (Expr.const value).Denotes state value state := ⟨rfl, rfl⟩

theorem reg (register : Register) (state : State ByteMemory) :
    (Expr.reg register).Denotes state (state.registers register) state := ⟨rfl, rfl⟩

theorem pop (h : before.pop? = some (b, after)) : Expr.pop.Denotes before b after := by
  refine ⟨h, ?_⟩
  rw [Expr.evalInt, h]
  rfl

theorem input (h : before.read? = some (c, after)) : Expr.input.Denotes before c after := by
  refine ⟨h, ?_⟩
  rw [Expr.evalInt, h]
  rfl

theorem binary {operator : Operator} (hleft : left.Denotes before b between)
    (hright : right.Denotes between c after) (hgives : operator.Gives b c result) :
    (Expr.binary operator left right).Denotes before result after := by
  constructor
  · simp only [Expr.eval, hleft.eval, hright.eval, hgives.1, Option.bind_eq_bind,
      Option.bind_some, Option.pure_def]
  · simp only [Expr.evalInt, hleft.evalInt, hright.evalInt, hgives.2, Option.bind_eq_bind,
      Option.bind_some, Option.pure_def]

/-- An even address has both its bytes below 65536, so it is the same address both ways. -/
theorem load (h : address.Denotes before place after) (heven : place % 2 = 0) :
    (Expr.load address).Denotes before (after.memory.load place) after := by
  have hload := ByteMemory.loadAt?_of_even after.memory heven
  constructor
  · simp only [Expr.eval, h.eval, Option.bind_eq_bind, Option.bind_some, Option.pure_def]
  · simp only [Expr.evalInt, h.evalInt, hload, Option.bind_eq_bind, Option.bind_some,
      Option.pure_def]

/-- Doubling a word index gives its byte address, which still fits. -/
theorem double (h : operand.Denotes before b after) (hb : b ≤ Word.literalMax) :
    (Expr.binary .mult operand (.const 2)).Denotes before (b * 2) after := by
  refine binary h (const 2 after) ⟨rfl, ?_⟩
  rw [Word.toNat_double hb, Int.natCast_mul]
  rfl

/-! ## Operators that agree once their result is brought below 32768 -/

/-- What an operator gives may be cut off at sixteen bits, if that does not change the remainder. -/
theorem remainder {operator : Operator} {cut : Word} {exact : Nat}
    (hleft : left.Denotes before b between) (hright : right.Denotes between c after)
    (hword : operator.apply b c = some cut)
    (hint : operator.applyInt b.toNat c.toNat = some (exact : Int))
    (hcut : cut % Word.literalModulo = Word.reduced exact) :
    (Instruction.wrapped (.binary operator left right)).Denotes before (Word.reduced exact)
      after := by
  have hmod : Operator.mod.apply cut Word.literalModulo = some (Word.reduced exact) := by
    rw [← hcut]
    rfl
  have hmodInt : Operator.mod.applyInt exact Word.literalModulo.toNat
      = some ((Word.reduced exact).toNat : Int) := by
    rw [Word.toNat_reduced, Int.natCast_mod]
    rfl
  constructor
  · simp only [Instruction.wrapped, Expr.eval, hleft.eval, hright.eval, hword, hmod,
      Option.bind_eq_bind, Option.bind_some, Option.pure_def]
  · simp only [Instruction.wrapped, Expr.evalInt, hleft.evalInt, hright.evalInt, hint, hmodInt,
      Option.bind_eq_bind, Option.bind_some, Option.pure_def]

theorem sum (hleft : left.Denotes before b between) (hright : right.Denotes between c after) :
    (Instruction.wrapped (.binary .add left right)).Denotes before
      (Word.reduced (b.toNat + c.toNat)) after :=
  remainder hleft hright rfl (congrArg some (Int.natCast_add _ _).symm)
    (Word.add_mod_literalModulo b c)

theorem product (hleft : left.Denotes before b between) (hright : right.Denotes between c after) :
    (Instruction.wrapped (.binary .mult left right)).Denotes before
      (Word.reduced (b.toNat * c.toNat)) after :=
  remainder hleft hright rfl (congrArg some (Int.natCast_mul _ _).symm)
    (Word.mul_mod_literalModulo b c)

/-- Fifteen bits of a complement are the same whether sixteen of them are inverted or all. -/
theorem masked (h : operand.Denotes before b after) (hb : b ≤ Word.literalMax) :
    (Expr.binary .and (.complement operand) (.const Word.literalMax)).Denotes before
      (Word.reduced (Word.literalMax.toNat - b.toNat)) after := by
  have hbound := Word.le_literalMax_iff.1 hb
  have hdiff : Nat.ldiff 32767 b.toNat = 32767 - b.toNat := by
    have hmask : (32767 : Nat) = 2 ^ 15 - 1 := rfl
    have hrest : 32767 - b.toNat = 2 ^ 15 - (b.toNat + 1) := by omega
    refine Nat.eq_of_testBit_eq fun i => ?_
    rw [Nat.testBit_ldiff, hrest, Nat.testBit_two_pow_sub_succ hbound, hmask,
      Nat.testBit_two_pow_sub_one]
  have hint : Int.land (Int.lnot b.toNat) (Word.literalMax.toNat : Int)
      = ((Word.reduced (Word.literalMax.toNat - b.toNat)).toNat : Int) := by
    have hsmall : Word.literalMax.toNat - b.toNat < 32768 :=
      Nat.lt_of_le_of_lt (Nat.sub_le _ _) (by decide)
    rw [Word.toNat_reduced, Nat.mod_eq_of_lt hsmall]
    exact congrArg Int.ofNat hdiff
  constructor
  · simp only [Expr.eval, Operator.apply, h.eval, Word.complement_and_literalMax hb,
      Option.bind_eq_bind, Option.bind_some, Option.pure_def]
  · simp only [Expr.evalInt, Operator.applyInt, h.evalInt, hint, Option.bind_eq_bind,
      Option.bind_some, Option.pure_def]

end Expr.Denotes

end Lifted

end WordMachine
