import WordMachine.Proofs.Boundedness
import WordMachine.Proofs.Evaluation

/-!
# The machine's words seen as bytes

`State.toBytes` lays the memory of the machine out in bytes, the word at index `i` at
the addresses `2 * i` and `2 * i + 1`. Sixteen bits address exactly the words whose index
is a number, so a read or a write of a word is that of its two bytes whenever the index
is a number, and doubling the index never wraps around.

The other half of the module is the same for arithmetic: on numbers below 32768 what the
machine computes is what sixteen bits give, once the result is brought back into range.
-/

namespace WordMachine

/-! ## Memory -/

namespace Word

/-- Doubling a number does not wrap around. -/
theorem toNat_double {index : Word} (h : index ≤ literalMax) :
    (index * 2).toNat = index.toNat * Word.size := by
  have hindex := le_literalMax_iff.1 h
  simp only [UInt16.toNat_mul, UInt16.reduceToNat, size]
  omega

end Word

namespace State

/-- The state with its memory laid out in bytes. -/
def toBytes (state : State WordMemory) : State ByteMemory :=
  { state with
    memory := fun address =>
      let word := state.memory (address / 2)
      if address % 2 = 0 then UInt8.ofNat (word.toNat % 256) else UInt8.ofNat (word.toNat / 256) }

variable {state : State WordMemory}

/-- The word at an index is the word at twice that address. -/
theorem load_toBytes {index : Word} (h : index ≤ Word.literalMax) :
    state.toBytes.memory.load (index * 2) = state.memory index := by
  have hdouble := Word.toNat_double h
  have hindex := Word.le_literalMax_iff.1 h
  have hlow : index * 2 / 2 = index ∧ index * 2 % 2 = 0 := by
    constructor <;> apply UInt16.toNat_inj.1 <;>
      simp only [UInt16.toNat_div, UInt16.toNat_mod, UInt16.reduceToNat, hdouble, Word.size] <;>
        omega
  have hhigh : (index * 2 + 1) / 2 = index ∧ (index * 2 + 1) % 2 = 1 := by
    constructor <;> apply UInt16.toNat_inj.1 <;>
      simp only [UInt16.toNat_div, UInt16.toNat_mod, UInt16.toNat_add, UInt16.reduceToNat, hdouble,
        Word.size] <;> omega
  simp only [ByteMemory.load, toBytes, hlow, hhigh]
  exact Word.ofBytes_bytes _

/-- Replacing the word at an index replaces its two bytes. -/
theorem storeAt_toBytes {index : Word} (h : index ≤ Word.literalMax) (value : Word) :
    (state.storeAt index value).toBytes
      = { state.toBytes with memory := state.toBytes.memory.store (index * 2) value } := by
  have hdouble := Word.toNat_double h
  have hindex := Word.le_literalMax_iff.1 h
  simp only [toBytes, storeAt, State.mk.injEq, true_and, and_true]
  funext address
  have hbound := address.toNat_lt
  -- quotient and parity tell the two bytes of the word from all others
  have hlow : address = index * 2 ↔ address / 2 = index ∧ address % 2 = 0 := by
    simp only [← UInt16.toNat_inj, UInt16.toNat_div, UInt16.toNat_mod, UInt16.reduceToNat, hdouble,
      Word.size]
    omega
  have hhigh : address = index * 2 + 1 ↔ address / 2 = index ∧ address % 2 ≠ 0 := by
    simp only [ne_eq, ← UInt16.toNat_inj, UInt16.toNat_div, UInt16.toNat_mod, UInt16.toNat_add,
      UInt16.reduceToNat, hdouble, Word.size]
    omega
  simp only [ByteMemory.store, hlow, hhigh]
  by_cases hword : address / 2 = index
  · by_cases hparity : address % 2 = 0
    · simp [hword, hparity]
    · simp [hword, hparity]
  · simp [hword]

end State

/-! ## Arithmetic -/

namespace Word

/-- A number is its own remainder. -/
theorem eq_reduced_of_toNat_eq {word : Word} {number : Nat} (hword : word.toNat = number)
    (hnumber : number < 32768) : word = reduced number := by
  apply UInt16.toNat_inj.1
  rw [toNat_reduced, Nat.mod_eq_of_lt hnumber, hword]

/-- A sum in sixteen bits has the right remainder. -/
theorem add_mod_literalModulo (b c : Word) :
    (b + c) % literalModulo = reduced (b.toNat + c.toNat) := by
  apply UInt16.toNat_inj.1
  simp only [toNat_reduced, UInt16.toNat_mod, UInt16.toNat_add, literalModulo, UInt16.reduceToNat]
  omega

/-- A product in sixteen bits has the right remainder. -/
theorem mul_mod_literalModulo (b c : Word) :
    (b * c) % literalModulo = reduced (b.toNat * c.toNat) := by
  apply UInt16.toNat_inj.1
  simp only [toNat_reduced, UInt16.toNat_mod, UInt16.toNat_mul, literalModulo, UInt16.reduceToNat]
  omega

theorem mod_eq_reduced {b : Word} (hb : b ≤ literalMax) (c : Word) :
    b % c = reduced (b.toNat % c.toNat) := by
  have hbound := Nat.lt_of_le_of_lt (Nat.mod_le b.toNat c.toNat) (le_literalMax_iff.1 hb)
  exact eq_reduced_of_toNat_eq (UInt16.toNat_mod b c) hbound

theorem and_eq_reduced {b : Word} (hb : b ≤ literalMax) (c : Word) :
    b &&& c = reduced (b.toNat &&& c.toNat) := by
  have hbound := Nat.lt_of_le_of_lt (Nat.and_le_left (m := c.toNat)) (le_literalMax_iff.1 hb)
  exact eq_reduced_of_toNat_eq (UInt16.toNat_and b c) hbound

theorem or_eq_reduced {b c : Word} (hb : b ≤ literalMax) (hc : c ≤ literalMax) :
    b ||| c = reduced (b.toNat ||| c.toNat) := by
  have hbound : b.toNat ||| c.toNat < 2 ^ 15 :=
    Nat.or_lt_two_pow (le_literalMax_iff.1 hb) (le_literalMax_iff.1 hc)
  exact eq_reduced_of_toNat_eq (UInt16.toNat_or b c) hbound

/-- Inverting all sixteen bits and dropping the highest inverts the fifteen bits of a number. -/
theorem complement_and_literalMax {b : Word} (hb : b ≤ literalMax) :
    ~~~b &&& literalMax = reduced (literalMax.toNat - b.toNat) := by
  have hbound := le_literalMax_iff.1 hb
  have hmask : ∀ number : Nat, number &&& 32767 = number % 32768 := fun number =>
    Nat.and_two_pow_sub_one_eq_mod number 15
  apply UInt16.toNat_inj.1
  simp only [toNat_reduced, UInt16.toNat_and, UInt16.toNat_not, literalMax, UInt16.reduceToNat,
    hmask, UInt16.size]
  omega

end Word

end WordMachine
