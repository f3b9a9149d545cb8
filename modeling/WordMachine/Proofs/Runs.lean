import WordMachine.Proofs.Simulation

/-!
# Whole runs

An image is run by decoding the instruction at the place control has gone to and carrying
it out, again and again. `runWords` lets the machine do that, and `runBytes` does it with
what lifting gives. The image itself is fixed: a run writes to memory only.

Whatever a run in bytes comes to, the run in words comes to as well. This is the direction
that an analysis of lifted code relies on, and it asks nothing of the states on the way.
A lifted statement that has an outcome at all is not `unimplemented`, and has found what it
pops, reads and divides by. That every word is a number holds at the start and is kept.
-/

namespace WordMachine

open Lifted

namespace Instruction

variable {instruction : Instruction} {state : State WordMemory} {statement : Statement}
  {outcome : State ByteMemory × Flow Address}

/-- A statement that has an outcome has found what it pops and divides by. -/
theorem isReady_of_run (h : instruction.statement? = some statement)
    (hrun : Lifted.run instruction.next [statement] state.toBytes = some outcome) :
    instruction.IsReady state := by
  constructor
  · rintro (hoperation | hoperation) hstack
    · simp only [statement?, hoperation] at h
      have hnone := run_assign_eq_none state.toBytes h fun expr hexpr => by
        obtain rfl := Option.some.inj hexpr
        simp only [Expr.eval, State.pop?, State.toBytes, hstack]
      rw [hnone] at hrun
      exact absurd hrun (by simp)
    · simp only [statement?, hoperation, Option.some.injEq] at h
      subst h
      simp [Lifted.run, Statement.run, Expr.eval, State.pop?, State.toBytes, hstack] at hrun
  · intro hoperation hdivisor
    simp only [statement?, hoperation] at h
    have hnone := run_assign_eq_none state.toBytes h fun expr hexpr => by
      obtain ⟨b, c, _, hc, heval⟩ := eval_binary? state hexpr
      obtain rfl : c = 0 := Option.some.inj (hc.symm.trans hdivisor)
      rw [heval]
      rfl
    rw [hnone] at hrun
    exact absurd hrun (by simp)

/-- What cannot be expressed has no outcome. -/
theorem unimplemented_notMem_of_run
    (hrun : Lifted.run instruction.next instruction.lift.statements state.toBytes = some outcome) :
    .unimplemented ∉ instruction.lift.statements := by
  intro hmem
  have hstatements : instruction.lift.statements = [.unimplemented] :=
    congrArg (fun statement => [statement]) (List.mem_singleton.1 hmem).symm
  rw [hstatements] at hrun
  exact absurd hrun (by simp [Lifted.run, Statement.run])

end Instruction

/-! ## Runs -/

namespace Image

variable {image : Image} {state : State WordMemory}

/-- At most `count` steps of the machine from where control is. -/
def runWords (image : Image) : Nat → State WordMemory → Flow Nat →
    Option (State WordMemory × Flow Nat)
  | 0, state, flow => some (state, flow)
  | _ + 1, state, .halt => some (state, .halt)
  | count + 1, state, .goto index => do
    let instruction ← (image.decode ⟨index * Word.size⟩).toOption
    let (state, flow) ← instruction.step? state
    runWords image count state flow

/-- The same with what lifting gives. -/
def runBytes (image : Image) : Nat → State ByteMemory → Flow Address →
    Option (State ByteMemory × Flow Address)
  | 0, state, flow => some (state, flow)
  | _ + 1, state, .halt => some (state, .halt)
  | count + 1, state, .goto address => do
    let instruction ← (image.decode address).toOption
    let (state, flow) ← Lifted.run instruction.next instruction.lift.statements state
    runBytes image count state flow

theorem runWords_goto {count index : Nat} {instruction : Instruction}
    (hdecode : image.decode ⟨index * Word.size⟩ = .ok instruction) :
    image.runWords (count + 1) state (.goto index)
      = (instruction.step? state).bind fun (state, flow) => image.runWords count state flow := by
  rw [runWords, hdecode]
  rfl

theorem runBytes_goto {count : Nat} {address : Address} {instruction : Instruction}
    {state : State ByteMemory} (hdecode : image.decode address = .ok instruction) :
    image.runBytes (count + 1) state (.goto address)
      = (Lifted.run instruction.next instruction.lift.statements state).bind
          fun (state, flow) => image.runBytes count state flow := by
  rw [runBytes, hdecode]
  rfl

/-- What the lifted statements of an instruction do, the machine does. -/
theorem step_of_lift {address : Address} {instruction : Instruction}
    {outcome : State ByteMemory × Flow Address} (hdecode : image.decode address = .ok instruction)
    (hbounded : state.IsBounded)
    (hrun : Lifted.run instruction.next instruction.lift.statements state.toBytes = some outcome) :
    ∃ after flow, instruction.step? state = some (after, flow)
      ∧ outcome = (after.toBytes, flow.toBytes) := by
  have hlift := Instruction.unimplemented_notMem_of_run hrun
  obtain ⟨haligned, rfl, _⟩ := decode_eq_ok_iff.1 hdecode
  obtain ⟨statement, hstatement, hstatements⟩ := Instruction.lift_statements hlift
  rw [hstatements] at hrun
  have hready := Instruction.isReady_of_run hstatement hrun
  have hinput : instruction.operation = .input → state.input ≠ [] := fun hoperation hnil => by
    have hnone := Instruction.outcomes_eq_none_of_input_eq_nil hstatement hoperation hnil
    exact absurd (hnone.2.symm.trans hrun) (by simp)
  obtain ⟨after, flow, hstep, hsame⟩ :=
    Instruction.sameOutcome_of_statement? haligned hstatement hbounded hready hinput
  exact ⟨after, flow, hstep, Option.some.inj (hrun.symm.trans hsame)⟩

/--
**Whatever lifted code comes to, the machine comes to.**

From a state in which every word is a number, a run of the lifted statements that has an
outcome is a run of the machine, instruction by instruction, to the same state and place.
-/
theorem runBytes_sound {count : Nat} {flow : Flow Nat} {after : State ByteMemory}
    {place : Flow Address} (hbounded : state.IsBounded)
    (hrun : image.runBytes count state.toBytes flow.toBytes = some (after, place)) :
    ∃ final stop, image.runWords count state flow = some (final, stop)
      ∧ after = final.toBytes ∧ place = stop.toBytes := by
  induction count generalizing state flow with
  | zero =>
    obtain ⟨rfl, rfl⟩ := Prod.mk.inj (Option.some.inj hrun)
    exact ⟨state, flow, rfl, rfl, rfl⟩
  | succ count ih =>
    cases flow with
    | halt =>
      obtain ⟨rfl, rfl⟩ := Prod.mk.inj (Option.some.inj hrun)
      exact ⟨state, .halt, rfl, rfl, rfl⟩
    | goto index =>
      cases hdecode : image.decode ⟨index * Word.size⟩ with
      | error error =>
        rw [Flow.toBytes, runBytes, hdecode] at hrun
        exact absurd hrun (by simp [Except.toOption])
      | ok instruction =>
        rw [Flow.toBytes, runBytes_goto hdecode] at hrun
        obtain ⟨outcome, hlift, hrest⟩ := Option.bind_eq_some_iff.1 hrun
        obtain ⟨next, flow, hstep, rfl⟩ := step_of_lift hdecode hbounded hlift
        -- boundedness is what carries the induction from one state to the next
        have hnext := Instruction.step?_isBounded hbounded hstep
        obtain ⟨final, stop, hwords, hafter, hplace⟩ := ih hnext hrest
        refine ⟨final, stop, ?_, hafter, hplace⟩
        rw [runWords_goto hdecode, hstep]
        exact hwords

end Image

end WordMachine
