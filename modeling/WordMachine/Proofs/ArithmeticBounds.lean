import Mathlib.Algebra.Group.Nat.Defs
import WordMachine.ControlFlow
import WordMachine.Lifting
import WordMachine.Proofs.DecodingInPlace
import WordMachine.Proofs.Resuming

/-!
# Addresses and word indices stay in range

Addresses have 64 bits on a real machine, and words have 16. Only where a word is read is the
end of it checked not to run over; the other sums and the doublings of word indices are made
without a check. Here they are made under watch: they have the fixed width and wrap around,
and they stop with a fault where the number without bounds is greater than a limit. A word
that is missing behind the check of the length is a fault, too.

Nothing done under watch ever stops with a fault, and what comes out is what comes out with
numbers without bounds. What keeps the sums small is known in other places: for a slot the
check of the length, for the end of an instruction that it was decoded, for the step over what
is no instruction that the sweep has not come to the end. Only literals are doubled.
-/

namespace WordMachine

open Lifted

/-- Why a computation under watch stops. -/
inductive Fault
  /-- The end of so many bytes is beyond the limit. -/
  | beyond (place : UInt64) (bytes : Nat)
  /-- Twice the word index is beyond the addresses that literals stand for. -/
  | tooGreat (index : Word)
  /-- A word is missing that the length has room for. -/
  | missing (slot : Nat)
  deriving DecidableEq, Repr

/-! ## Sums and doublings -/

/-- The end of so many bytes from a place on. The sum wraps around. -/
def watchedEnd (limit : Nat) (place : UInt64) (bytes : Nat) : Except Fault UInt64 :=
  if place.toNat + bytes ≤ limit then .ok (place + UInt64.ofNat bytes)
  else .error (.beyond place bytes)

/-- The greatest address that a literal stands for. -/
def scaledMax : Nat := 65534

/-- Twice a word index, as a word. -/
def watchedDouble (index : Word) : Except Fault Word :=
  if index.toNat * Word.size ≤ scaledMax then .ok (index * 2) else .error (.tooGreat index)

/-- Twice a word index, as an address. -/
def watchedByteAddress (index : Word) : Except Fault UInt64 :=
  if index.toNat * Word.size ≤ scaledMax then .ok (index.toUInt64 * 2)
  else .error (.tooGreat index)

theorem watchedEnd_eq_ok {limit bytes : Nat} {place : UInt64} (hlimit : limit < UInt64.size)
    (hle : place.toNat + bytes ≤ limit) :
    ∃ sum : UInt64, watchedEnd limit place bytes = .ok sum ∧ sum.toNat = place.toNat + bytes := by
  refine ⟨place + UInt64.ofNat bytes, if_pos hle, ?_⟩
  rw [UInt64.toNat_add, UInt64.toNat_ofNat', Nat.add_mod_mod]
  exact Nat.mod_eq_of_lt (Nat.lt_of_le_of_lt hle hlimit)

theorem mul_size_le_scaledMax {index : Word} (h : index ≤ Word.literalMax) :
    index.toNat * Word.size ≤ scaledMax := by
  have hle : index.toNat ≤ 32767 := UInt16.le_iff_toNat_le.1 h
  simp only [Word.size, scaledMax]
  omega

theorem watchedByteAddress_eq_ok {index : Word} (h : index ≤ Word.literalMax) :
    ∃ place : UInt64, watchedByteAddress index = .ok place
      ∧ (⟨place.toNat⟩ : Address) = Address.ofWordIndex index := by
  have hle := mul_size_le_scaledMax h
  refine ⟨index.toUInt64 * 2, if_pos hle, congrArg Address.mk ?_⟩
  rw [UInt64.toNat_mul, UInt16.toNat_toUInt64]
  exact Nat.mod_eq_of_lt (Nat.lt_of_le_of_lt hle (by decide))

/-! ## Decoding under watch -/

namespace Image

/-- The word in a slot of the instruction at a place. -/
def watchedWord (image : Image) (limit : Nat) (place : UInt64) (slot : Nat) :
    Except Fault Word := do
  match image.fixedWordAt? (← watchedEnd limit place (Word.size * (slot + 1))) with
  | some word => return word
  | none => throw (.missing slot)

/-- The operands for slots of these kinds, or the first word that means nothing. -/
def watchedOperands (image : Image) (limit : Nat) (place : UInt64) (slot : Nat) :
    List SlotKind → Except Fault (Except OperandFault (List Operand))
  | [] => return .ok []
  | kind :: kinds => do
    let word ← image.watchedWord limit place slot
    match word.meaning with
    | .invalid word => return .error (.invalid slot word)
    | _ =>
      let operands ← image.watchedOperands limit place (slot + 1) kinds
      return operands.map (⟨slot, kind, word⟩ :: ·)

/-- The instruction at a place. -/
def watchedDecode (image : Image) (limit : Nat) (place : UInt64) :
    Except Fault (Except DecodeError Instruction) :=
  let address : Address := ⟨place.toNat⟩
  let available := image.remaining address
  if !address.isAligned then return .error (.misaligned address)
  else
    match image.fixedWordAt? place with
    | none => return .error (.noOpcode address)
    | some word =>
      match Operation.ofOpcode? word with
      | none => return .error (.unknownOpcode address word)
      | some operation =>
        if available < operation.length then
          return .error (.truncated address operation.length available)
        else do
          match ← image.watchedOperands limit place 0 operation.slots with
          | .error .missing => return .error (.truncated address operation.length available)
          | .error (.invalid slot word) => return .error (.invalidOperand address slot word)
          | .ok operands => return .ok ⟨address, operation, operands⟩

variable {image : Image} {limit : Nat} {place : UInt64}

/-- Inside the image the word in a slot is found, at an address that is in range. -/
theorem watchedWord_eq_ok {slot : Nat} {word : Word} (hlimit : limit < UInt64.size)
    (hlength : image.length ≤ limit)
    (hword : image.operandWordAt? ⟨place.toNat⟩ slot = some word) :
    image.watchedWord limit place slot = .ok word := by
  have hinside : place.toNat + Word.size * (slot + 1) + Word.size ≤ image.length := by
    refine Nat.le_of_not_lt fun hlt => ?_
    have hnone : image.operandWordAt? ⟨place.toNat⟩ slot = none := wordAt?_eq_none_iff.2 hlt
    exact absurd (hnone.symm.trans hword) (by simp)
  have hle : place.toNat + Word.size * (slot + 1) ≤ limit := by omega
  obtain ⟨sum, hsum, htoNat⟩ := watchedEnd_eq_ok hlimit hle
  have hread : image.fixedWordAt? sum = some word := by
    rw [fixedWordAt?_eq (Nat.lt_of_le_of_lt hlength hlimit), htoNat]
    exact hword
  simp only [watchedWord, hsum, bind, Except.bind, hread]
  rfl

/-- Where the words of all slots are there, the loop over the slots makes no fault. -/
theorem watchedOperands_eq_ok {slot : Nat} {kinds : List SlotKind} (hlimit : limit < UInt64.size)
    (hlength : image.length ≤ limit)
    (hwords : ∀ k, slot ≤ k → k < slot + kinds.length →
      ∃ word, image.operandWordAt? ⟨place.toNat⟩ k = some word) :
    image.watchedOperands limit place slot kinds
      = .ok (readOperands (image.operandWordAt? ⟨place.toNat⟩) slot kinds) := by
  induction kinds generalizing slot with
  | nil => rfl
  | cons kind kinds ih =>
    rw [List.length_cons] at hwords
    obtain ⟨word, hword⟩ := hwords slot (Nat.le_refl _) (by omega)
    have htail : image.watchedOperands limit place (slot + 1) kinds = _ :=
      ih fun k hle hlt => hwords k (by omega) (by omega)
    rw [watchedOperands, watchedWord_eq_ok hlimit hlength hword, readOperands, hword]
    cases hmeaning : word.meaning with
    | literal _ | register _ =>
      simp only [htail, hmeaning, bind, Except.bind]
      rfl
    | invalid _ =>
      simp only [hmeaning, bind, Except.bind]
      rfl

/-- **Decoding makes no fault**, and finds what is found with addresses without bounds. -/
theorem watchedDecode_eq_ok (hlimit : limit < UInt64.size) (hlength : image.length ≤ limit)
    (place : UInt64) : image.watchedDecode limit place = .ok (image.decode ⟨place.toNat⟩) := by
  have hread := fixedWordAt?_eq (Nat.lt_of_le_of_lt hlength hlimit) place
  rw [← decodeInPlace_eq_decode]
  unfold watchedDecode decodeInPlace decodeWords
  rw [hread]
  dsimp only
  split
  · rfl
  · cases hword : image.wordAt? ⟨place.toNat⟩ with
    | none => rfl
    | some word =>
      cases hoperation : Operation.ofOpcode? word with
      | none => simp only [hoperation]; rfl
      | some operation =>
        simp only [hoperation]
        split
        · rfl
        · next hfits =>
          rw [operation.length_eq, Nat.not_lt] at hfits
          have hwords : image.watchedOperands limit place 0 operation.slots = _ :=
            watchedOperands_eq_ok hlimit hlength fun k _ hlt =>
              exists_operandWordAt? hfits (by rwa [Nat.zero_add] at hlt)
          rw [hwords]
          cases readOperands (image.operandWordAt? ⟨place.toNat⟩) 0 operation.slots with
          | error fault => cases fault <;> rfl
          | ok operands => rfl

/-! ## Sweeping under watch -/

/-- One call of a sweep: the item met at the place and where the sweep goes on, unless the place is
behind the last byte. -/
def watchedCall (image : Image) (limit : Nat) (place : UInt64) :
    Except Fault (Option (Item × UInt64)) :=
  if image.length ≤ place.toNat then return none
  else do
    let item : Item := ⟨⟨place.toNat⟩, ← image.watchedDecode limit place⟩
    return some (item, ← watchedEnd limit place item.length)

/-- The items met in so many calls. -/
def watchedItems (image : Image) (limit : Nat) : Nat → UInt64 → Except Fault (List Item)
  | 0, _ => return []
  | calls + 1, place => do
    match ← image.watchedCall limit place with
    | none => return []
    | some (item, onward) => return item :: (← image.watchedItems limit calls onward)

/-- Behind what is met at a place the sweep meets what it would meet if it started there. -/
theorem sweep_eq_cons {address : Address} (h : address.offset < image.length) :
    image.sweep address = ⟨address, image.decode address⟩
      :: image.sweep (Item.next ⟨address, image.decode address⟩) := by
  have hlies := Sweep.liesIn_start image address
  have hahead := hlies.ahead_ne_nil_iff.2 h
  have hstart := hlies.advance.eq_start
  rw [sweep, Sweep.items_of_ahead_ne_nil hahead, hstart]
  rfl

/-- An item ends inside the image, or one byte behind it. -/
theorem next_le_of_decode {address : Address} (h : address.offset < image.length) :
    address.offset + Item.length ⟨address, image.decode address⟩ ≤ image.length + 1 := by
  cases hresult : image.decode address with
  | ok instruction =>
    have hle := le_length_of_decode_eq_ok hresult
    exact Nat.le_succ_of_le hle
  | error error =>
    change address.offset + 2 ≤ image.length + 1
    omega

/-- **A call makes no fault**, and the sweep goes on where it goes on without bounds. -/
theorem watchedCall_eq_ok (hlength : image.length + 1 < UInt64.size)
    (hplace : place.toNat < image.length) :
    ∃ onward : UInt64, image.watchedCall (image.length + 1) place
          = .ok (some (⟨⟨place.toNat⟩, image.decode ⟨place.toNat⟩⟩, onward))
        ∧ (⟨onward.toNat⟩ : Address)
          = Item.next ⟨⟨place.toNat⟩, image.decode ⟨place.toNat⟩⟩ := by
  have hdecode := watchedDecode_eq_ok hlength (Nat.le_succ image.length) place
  have hstart : (⟨place.toNat⟩ : Address).offset < image.length := hplace
  obtain ⟨onward, honward, htoNat⟩ := watchedEnd_eq_ok hlength (next_le_of_decode hstart)
  refine ⟨onward, ?_, congrArg Address.mk htoNat⟩
  simp only [watchedCall, if_neg (Nat.not_le.2 hplace), hdecode, bind, Except.bind, honward]
  rfl

/-- **So a whole sweep makes no fault**, and meets what it meets without bounds. -/
theorem watchedItems_eq_ok (hlength : image.length + 1 < UInt64.size) (calls : Nat)
    (place : UInt64) :
    image.watchedItems (image.length + 1) calls place
      = .ok ((image.sweep ⟨place.toNat⟩).take calls) := by
  -- along the calls, each of which leaves a place that the next one may be made at
  induction calls generalizing place with
  | zero => rfl
  | succ calls ih =>
    rcases Nat.lt_or_ge place.toNat image.length with hinside | hbehind
    · obtain ⟨onward, hcall, hnext⟩ := watchedCall_eq_ok hlength hinside
      have hstart : (⟨place.toNat⟩ : Address).offset < image.length := hinside
      rw [sweep_eq_cons hstart, List.take_succ_cons, ← hnext, watchedItems, hcall]
      simp only [bind, Except.bind, ih onward]
      rfl
    · have hnil : image.sweep ⟨place.toNat⟩ = [] := sweep_eq_nil_iff.2 hbehind
      rw [hnil, watchedItems, watchedCall, if_pos hbehind]
      rfl

end Image

/-! ## Control flow and lifting under watch -/

namespace Operand

/-- The operand, a word index, as a byte address. -/
def watchedAddress? (operand : Operand) : Except Fault (Option Expr) :=
  match operand.meaning with
  | .literal value => do return some (.const (← watchedDouble value))
  | .register register => return some (.binary .mult (.reg register) (.const 2))
  | .invalid _ => return none

/-- The address a number stands for. -/
def watchedLiteralAddress? (operand : Operand) : Except Fault (Option Address) :=
  if operand.isLiteral then do return some ⟨(← watchedByteAddress operand.word).toNat⟩
  else return none

/-- The operand, a word index, as a place to go to. -/
def watchedTarget? (operand : Operand) : Except Fault (Option Target) := do
  match ← operand.watchedLiteralAddress? with
  | some address => return some (.label address)
  | none => return (← operand.watchedAddress?).map .indirect

variable {operand : Operand}

theorem watchedAddress?_eq_ok (operand : Operand) :
    operand.watchedAddress? = .ok operand.address? := by
  unfold watchedAddress? address?
  rcases Word.meaning_cases operand.word with ⟨hle, hmeaning⟩ | ⟨_, _, hmeaning⟩ | ⟨_, hmeaning⟩
  · have hdouble : watchedDouble operand.word = .ok (operand.word * 2) :=
      if_pos (mul_size_le_scaledMax hle)
    simp only [meaning, hmeaning, hdouble]
    rfl
  · simp only [meaning, hmeaning]
    rfl
  · simp only [meaning, hmeaning]
    rfl

theorem watchedLiteralAddress?_eq_ok (operand : Operand) :
    operand.watchedLiteralAddress? = .ok operand.literalAddress? := by
  unfold watchedLiteralAddress? literalAddress?
  split
  · next hliteral =>
    obtain ⟨place, hplace, haddress⟩ := watchedByteAddress_eq_ok (isLiteral_iff.1 hliteral)
    rw [hplace, ← haddress]
    rfl
  · rfl

theorem watchedTarget?_eq_ok (operand : Operand) :
    operand.watchedTarget? = .ok operand.target? := by
  rw [watchedTarget?, target?, watchedLiteralAddress?_eq_ok, watchedAddress?_eq_ok]
  cases operand.literalAddress? <;> rfl

end Operand

namespace Instruction

variable {instruction : Instruction}

/-- What is made of the operand in a slot, if there is one. -/
def watchedSlot {α : Type} (instruction : Instruction) (slot : Nat)
    (read : Operand → Except Fault (Option α)) : Except Fault (Option α) :=
  match instruction.operand? slot with
  | none => return none
  | some operand => read operand

/-- The address just after the instruction. -/
def watchedNext (instruction : Instruction) (limit : Nat) : Except Fault Address := do
  let place := UInt64.ofNat instruction.address.offset
  return ⟨(← watchedEnd limit place instruction.length).toNat⟩

/-- An edge to where the operand in a slot points. -/
def watchedEdge (instruction : Instruction) (kind : EdgeKind) (slot : Nat) :
    Except Fault Edge := do
  match ← instruction.watchedSlot slot Operand.watchedLiteralAddress? with
  | some target => return .toAddress kind target
  | none => return .untargeted .unresolvedIndirect

/-- The edges out of the instruction. Where none of them has an address there is nothing to
compute. -/
def watchedEdges (instruction : Instruction) (limit : Nat) : Except Fault (List Edge) := do
  match instruction.operation with
  | .jmp => return [← instruction.watchedEdge .unconditional 0]
  | .jt =>
    return [← instruction.watchedEdge .trueBranch 1,
      .toAddress .falseBranch (← instruction.watchedNext limit)]
  | .jf =>
    return [← instruction.watchedEdge .falseBranch 1,
      .toAddress .trueBranch (← instruction.watchedNext limit)]
  | .call => return [← instruction.watchedEdge .call 0]
  | _ => return instruction.edges

/-- What the instruction does, given the address just after it. Most operations do nothing with
addresses. -/
def watchedStatement? (instruction : Instruction) (next : Address) :
    Except Fault (Option Statement) := do
  match instruction.operation with
  | .jmp => return (← instruction.watchedSlot 0 Operand.watchedTarget?).map .jump
  | .jt =>
    let target? ← instruction.watchedSlot 1 Operand.watchedTarget?
    return do return .branch (← instruction.value? 0) (← target?) (.label next)
  | .jf =>
    let target? ← instruction.watchedSlot 1 Operand.watchedTarget?
    return do return .branch (← instruction.value? 0) (.label next) (← target?)
  | .rmem =>
    let address? ← instruction.watchedSlot 1 Operand.watchedAddress?
    return instruction.assign? (address?.map .load)
  | .wmem =>
    let address? ← instruction.watchedSlot 0 Operand.watchedAddress?
    return do return .store (← address?) (← instruction.value? 1)
  | .call => return (← instruction.watchedSlot 0 Operand.watchedTarget?).map .call
  | _ => return instruction.statement?

/-- Lifts the instruction. The address just after it is computed whether it is used or not. -/
def watchedLift (instruction : Instruction) (limit : Nat) : Except Fault Lifting := do
  let next ← instruction.watchedNext limit
  let statement? ← instruction.watchedStatement? next
  return ⟨[statement?.getD .unimplemented], instruction.length⟩

theorem watchedSlot_eq_ok {α : Type} {read : Operand → Except Fault (Option α)}
    {given : Operand → Option α} (h : ∀ operand, read operand = .ok (given operand))
    (instruction : Instruction) (slot : Nat) :
    instruction.watchedSlot slot read = .ok ((instruction.operand? slot).bind given) := by
  unfold watchedSlot
  cases instruction.operand? slot with
  | none => rfl
  | some operand => exact h operand

theorem watchedEdge_eq_ok (instruction : Instruction) (kind : EdgeKind) (slot : Nat) :
    instruction.watchedEdge kind slot = .ok (.toOperand kind (instruction.operand? slot)) := by
  rw [watchedEdge, watchedSlot_eq_ok Operand.watchedLiteralAddress?_eq_ok, Edge.toOperand]
  cases (instruction.operand? slot).bind Operand.literalAddress? <;> rfl

/-- Where the instruction ends in range, so do the ways out of it. -/
theorem watchedEdges_eq_ok {limit : Nat}
    (hnext : instruction.watchedNext limit = .ok instruction.next) :
    instruction.watchedEdges limit = .ok instruction.edges := by
  cases hoperation : instruction.operation <;>
    simp only [watchedEdges, edges, hoperation, watchedEdge_eq_ok, hnext] <;> rfl

theorem watchedStatement?_eq_ok (instruction : Instruction) :
    instruction.watchedStatement? instruction.next = .ok instruction.statement? := by
  have htarget := watchedSlot_eq_ok Operand.watchedTarget?_eq_ok instruction
  have haddress := watchedSlot_eq_ok Operand.watchedAddress?_eq_ok instruction
  cases hoperation : instruction.operation <;>
    simp only [watchedStatement?, statement?, hoperation, htarget, haddress] <;> rfl

/-- Lifting makes no fault where the instruction ends in range. -/
theorem watchedLift_eq_ok {limit : Nat}
    (hnext : instruction.watchedNext limit = .ok instruction.next) :
    instruction.watchedLift limit = .ok instruction.lift := by
  simp only [watchedLift, hnext, bind, Except.bind, watchedStatement?_eq_ok]
  rfl

/-- A decoded instruction ends in range. -/
theorem watchedNext_eq_ok {image : Image} {place : UInt64} {limit : Nat}
    (hlimit : limit < UInt64.size) (hlength : image.length ≤ limit)
    (h : image.decode ⟨place.toNat⟩ = .ok instruction) :
    instruction.watchedNext limit = .ok instruction.next := by
  have haddress : instruction.address = ⟨place.toNat⟩ := (Image.decode_eq_ok_iff.1 h).2.1
  have hend := Image.le_length_of_decode_eq_ok h
  obtain ⟨sum, hsum, htoNat⟩ := watchedEnd_eq_ok hlimit (Nat.le_trans hend hlength)
  rw [watchedNext, next, haddress, UInt64.ofNat_toNat, hsum]
  exact congrArg (fun offset => Except.ok (Address.mk offset)) htoNat

end Instruction

namespace Image

/-- A word whose end has no address is not read. -/
theorem fixedWordAt?_eq_none {image : Image} {place : UInt64} (h : 2 ^ 64 - 2 ≤ place.toNat) :
    image.fixedWordAt? place = none := by
  refine if_neg fun hlt => ?_
  simp only [Word.size, UInt64.size] at hlt
  omega

/--
**Address and word arithmetic never runs over.**

From every place that 64 bits can count, decoding, every step of a whole sweep, and the end,
the edges and the lifting of the instruction found keep each sum to at most one more than the
length of the image and each doubled word index to an address that a literal stands for, and
miss no word. So they give what they give with numbers that have no bounds.
-/
theorem arithmetic_stays_in_range (image : Image) (hlength : image.length < 2 ^ 63)
    (place : UInt64) :
    image.watchedDecode (image.length + 1) place = .ok (image.decode ⟨place.toNat⟩)
      ∧ (∀ calls, image.watchedItems (image.length + 1) calls place
          = .ok ((image.sweep ⟨place.toNat⟩).take calls))
      ∧ (∀ instruction : Instruction, image.decode ⟨place.toNat⟩ = .ok instruction →
          instruction.watchedNext (image.length + 1) = .ok instruction.next
            ∧ instruction.watchedEdges (image.length + 1) = .ok instruction.edges
            ∧ instruction.watchedLift (image.length + 1) = .ok instruction.lift)
      ∧ image.fixedWordAt? place = image.wordAt? ⟨place.toNat⟩
      ∧ (2 ^ 64 - 2 ≤ place.toNat → image.fixedWordAt? place = none) := by
  have hlimit : image.length + 1 < UInt64.size := by
    simp only [UInt64.size]
    omega
  refine ⟨watchedDecode_eq_ok hlimit (Nat.le_succ _) place,
    fun calls => watchedItems_eq_ok hlimit calls place, fun instruction h => ?_,
    fixedWordAt?_eq (Nat.lt_of_succ_lt hlimit) place, fixedWordAt?_eq_none⟩
  have hnext := Instruction.watchedNext_eq_ok hlimit (Nat.le_succ _) h
  exact ⟨hnext, Instruction.watchedEdges_eq_ok hnext, Instruction.watchedLift_eq_ok hnext⟩

/-- A jump to the greatest address, and a byte that is no word behind it. -/
theorem arithmetic_stays_in_range_odd_end :
    watchedItems [7, 0, 0, 128, 255, 127, 9] 8 3 0
        = .ok ((sweep [7, 0, 0, 128, 255, 127, 9] ⟨0⟩).take 3)
      ∧ (Instruction.mk ⟨0⟩ .jt (Operand.fill Operation.jt.slots [32768, 32767])).watchedLift 8
        = .ok ⟨[.branch (.reg ⟨0⟩) (.label ⟨65534⟩) (.label ⟨6⟩)], 6⟩
      ∧ fixedWordAt? [7, 0, 0, 128, 255, 127, 9] 0xFFFFFFFFFFFFFFFF = none := by
  obtain ⟨-, hitems, hinstruction, -⟩ :=
    arithmetic_stays_in_range [7, 0, 0, 128, 255, 127, 9] (by decide) 0
  obtain ⟨-, -, -, -, htop⟩ :=
    arithmetic_stays_in_range [7, 0, 0, 128, 255, 127, 9] (by decide) 0xFFFFFFFFFFFFFFFF
  exact ⟨hitems 3, (hinstruction _ rfl).2.2, htop (by decide)⟩

-- One byte less is not enough: the sweep steps over the last byte as if it were a word.
example : (watchedItems [7, 0, 0, 128, 255, 127, 9] 7 3 0).toOption = none := by decide +kernel

end Image

end WordMachine
