import WordMachine.Listing
import WordMachine.Proofs.Assembling
import WordMachine.Proofs.SweepLayout
import WordMachine.Proofs.Tiling

/-!
# Listings round trip

From bytes to text and back: the listing of any image assembles to the encodings of its
instructions, or fails on the line of the first number that stands where only a register
can. From text to bytes and back: an assembled image is swept instruction by instruction,
one for each line that counts, and its listing assembles to the image again.

Both rest on the same two facts. A sweep over encodings meets the encoded instructions,
and the text of an instruction that assembly can produce assembles to its encoding.
-/

namespace WordMachine

/-! ## The instructions of an image -/

namespace Image

theorem wellFormed_of_mem_instructions {image : Image} {instruction : Instruction}
    (h : instruction ∈ image.instructions) : instruction.WellFormed := by
  obtain ⟨item, hitem, hinstruction⟩ := List.mem_filterMap.1 h
  rw [Item.instruction?, (of_mem_sweep hitem).1] at hinstruction
  cases hdecode : image.decode item.address with
  | error error =>
    rw [hdecode] at hinstruction
    exact absurd hinstruction (by simp [Except.toOption])
  | ok found =>
    rw [hdecode] at hinstruction
    obtain rfl := Option.some.inj hinstruction
    exact (decode_eq_ok_iff.1 hdecode).2.2.1

/-- What a sweep finds can be written in assembly if no number is misplaced. -/
theorem isAssemblable_of_mem_instructions {image : Image} {instruction : Instruction}
    (h : instruction ∈ image.instructions) (hplaced : ¬ instruction.MisplacesNumber) :
    instruction.IsAssemblable :=
  Instruction.isAssemblable_iff.2 ⟨wellFormed_of_mem_instructions h, hplaced⟩

/-- The instructions of an image that consists of encodings are those encoded. -/
theorem instructions_flatMap_encode {instructions : List Instruction}
    (h : ∀ instruction ∈ instructions, instruction.WellFormed) :
    Image.instructions (instructions.flatMap Instruction.encode)
      = Instruction.layOut ⟨0⟩ instructions := by
  rw [Image.instructions, sweep_flatMap_encode h, List.filterMap_map]
  exact List.filterMap_some

/-- An image of encodings that assembly can produce assembles to itself. -/
theorem reassemble_flatMap_encode {instructions : List Instruction}
    (h : ∀ instruction ∈ instructions, instruction.IsAssemblable) :
    Image.reassemble (instructions.flatMap Instruction.encode)
      = .ok (instructions.flatMap Instruction.encode) := by
  have hformed : ∀ instruction ∈ instructions, instruction.WellFormed :=
    fun instruction hmem => (h instruction hmem).wellFormed
  have htexts : (Instruction.layOut ⟨0⟩ instructions).map Instruction.text
      = instructions.map Instruction.text :=
    Instruction.map_layOut (fun _ _ => rfl) _ _
  rw [reassemble, listing, instructions_flatMap_encode hformed, htexts,
    Instruction.assembleProgram_texts, Instruction.assembleLines_texts h]

end Image

/-! ## From bytes to text and back -/

namespace Instruction

/-- The operation and the operand words, which are all that an encoding keeps. -/
def content (instruction : Instruction) : Operation × List Word :=
  (instruction.operation, instruction.operands.map Operand.word)

end Instruction

namespace Image

/-- Where nothing is misplaced, the listing assembles to the encodings of the instructions. -/
theorem reassemble_of_placed {image : Image}
    (h : ∀ instruction ∈ image.instructions, ¬ instruction.MisplacesNumber) :
    image.reassemble = .ok (image.instructions.flatMap Instruction.encode) := by
  have hassemblable : ∀ instruction ∈ image.instructions, instruction.IsAssemblable :=
    fun instruction hmem => isAssemblable_of_mem_instructions hmem (h instruction hmem)
  rw [reassemble, listing, Instruction.assembleProgram_texts,
    Instruction.assembleLines_texts hassemblable]

/--
**The listing of any image round trips.**

If no instruction that the sweep finds has a number where only a register can stand,
the listing assembles to the encodings of the instructions. Sweeping these finds no
error and the same operations with the same operand words, and their listing assembles
to the same bytes once more. Otherwise the listing is refused on the line of the first
instruction that has one, and the error shows the number as the listing does.
-/
theorem reassemble_listing (image : Image) :
    ((∀ instruction ∈ image.instructions, ¬ instruction.MisplacesNumber) →
      ∃ bytes : Image,
        bytes = image.instructions.flatMap Instruction.encode
          ∧ image.reassemble = .ok bytes
          ∧ (bytes.sweep ⟨0⟩).map (fun item => item.result.map Instruction.content)
              = image.instructions.map (fun instruction => .ok instruction.content)
          ∧ bytes.reassemble = .ok bytes)
    ∧ ((∃ instruction ∈ image.instructions, instruction.MisplacesNumber) →
      ∃ (before after : List Instruction) (instruction : Instruction) (operand : Operand),
        image.instructions = before ++ instruction :: after
          ∧ (∀ earlier ∈ before, ¬ earlier.MisplacesNumber)
          ∧ instruction.MisplacesNumber
          ∧ instruction.operand? 0 = some operand
          ∧ operand.token = ⟨.integer, operand.word.text⟩
          ∧ image.reassemble
              = .error ⟨before.length + 1, .expectedRegister 0 operand.word.text⟩) := by
  have hformed : ∀ instruction ∈ image.instructions, instruction.WellFormed :=
    fun instruction => wellFormed_of_mem_instructions
  constructor
  · intro hplaced
    have hassemblable : ∀ instruction ∈ image.instructions, instruction.IsAssemblable :=
      fun instruction hmem => isAssemblable_of_mem_instructions hmem (hplaced instruction hmem)
    refine ⟨_, rfl, reassemble_of_placed hplaced, ?_, reassemble_flatMap_encode hassemblable⟩
    rw [sweep_flatMap_encode hformed, List.map_map]
    exact Instruction.map_layOut (fun _ _ => rfl) _ _
  · intro hmisplaced
    have hsome : (image.instructions.find? (decide <| Instruction.MisplacesNumber ·)).isSome := by
      simpa using hmisplaced
    obtain ⟨instruction, hfind⟩ := Option.isSome_iff_exists.1 hsome
    obtain ⟨hinstruction, before, after, hsplit, hbefore⟩ := List.find?_eq_some_iff_append.1 hfind
    have hinstruction : instruction.MisplacesNumber := of_decide_eq_true hinstruction
    have hbefore : ∀ earlier ∈ before, ¬ earlier.MisplacesNumber := by simpa using hbefore
    have hmem : instruction ∈ image.instructions := by simp [hsplit]
    obtain ⟨operand, hoperand, hkind, hliteral, hcause⟩ :=
      (hformed instruction hmem).assembleLine_text_of_misplacesNumber hinstruction
    have hassemblable : ∀ earlier ∈ before, earlier.IsAssemblable := by
      intro earlier hearlier
      have hfound : earlier ∈ image.instructions := by simp [hsplit, hearlier]
      exact isAssemblable_of_mem_instructions hfound (hbefore earlier hearlier)
    refine ⟨before, after, instruction, operand, hsplit, hbefore, hinstruction, hoperand, ?_, ?_⟩
    · exact Operand.token_of_misplaced hliteral hkind
    · rw [reassemble, listing, Instruction.assembleProgram_texts, hsplit,
        Instruction.assembleLines_texts_of_misplacesNumber hassemblable hcause, Nat.add_comm]

/-- A bad word between two instructions is dropped, and nothing else is lost. A number in a
register slot is refused. -/
theorem reassemble_listing_bad_word :
    Image.reassemble [21, 0, 119, 119, 19, 0, 65, 0] = .ok [21, 0, 19, 0, 65, 0]
      ∧ ∃ line text, Image.reassemble [3, 0, 5, 0] = .error ⟨line, .expectedRegister 0 text⟩ := by
  constructor
  · have hinstructions : Image.instructions [21, 0, 119, 119, 19, 0, 65, 0]
        = [⟨⟨0⟩, .noop, []⟩, ⟨⟨4⟩, .output, [⟨0, .char, 65⟩]⟩] := by decide +kernel
    have hplaced : ∀ instruction ∈ Image.instructions [21, 0, 119, 119, 19, 0, 65, 0],
        ¬ instruction.MisplacesNumber := by
      rw [hinstructions]
      decide
    obtain ⟨bytes, rfl, hreassemble, _⟩ := (reassemble_listing _).1 hplaced
    rw [hinstructions] at hreassemble
    exact hreassemble
  · have hmisplaced : ∃ instruction ∈ Image.instructions [3, 0, 5, 0],
        instruction.MisplacesNumber := by
      have hinstructions : Image.instructions [3, 0, 5, 0]
          = [⟨⟨0⟩, .pop, [⟨0, .register, 5⟩]⟩] := by decide +kernel
      rw [hinstructions]
      exact ⟨_, List.mem_singleton_self _, by decide⟩
    obtain ⟨before, _, _, operand, _, _, _, _, _, herror⟩ := (reassemble_listing _).2 hmisplaced
    exact ⟨before.length + 1, operand.word.text, herror⟩

end Image

/-! ## From text to bytes and back -/

namespace Assembly

/-- The lines of a listing that are neither blank nor only a comment. -/
def contentLines (text : String) : List String :=
  ((Text.lines text).filter (!isPassedOver ·)).map String.ofList

/-- An accepted listing is made of instructions that assembly can produce, one for each line that
counts. -/
theorem assembleProgram_eq_ok {text : String} {image : Image}
    (h : assembleProgram text = .ok image) :
    ∃ instructions : List Instruction,
      (∀ instruction ∈ instructions, instruction.IsAssemblable)
        ∧ (contentLines text).map assemble = instructions.map (.ok ·.encode)
        ∧ image = instructions.flatMap Instruction.encode := by
  obtain ⟨instructions, hassemblable, hlines, himage⟩ := assembleLines_eq_ok h
  refine ⟨instructions, hassemblable, ?_, himage⟩
  have hassemble : assemble ∘ String.ofList = assembleLine := by
    funext line
    rw [Function.comp_apply, assemble, String.toList_ofList]
  rw [contentLines, List.map_map, hassemble, hlines]

/--
**An assembled listing disassembles line for line.**

Every line that counts is accepted on its own, and the image is what these lines
assemble to, one behind the other. A sweep of the image meets one instruction for each
of them, at the place where its bytes lie, and never an error. The instruction encodes
to the bytes of its line and is well formed, with registers where only registers can
stand. The listing of the image assembles to the image again.
-/
theorem sweep_assembleProgram {text : String} {image : Image}
    (h : assembleProgram text = .ok image) :
    ∃ chunks : List Image,
      (contentLines text).map assemble = chunks.map .ok
        ∧ image = chunks.flatten
        ∧ (image.sweep ⟨0⟩).length = chunks.length
        ∧ (∀ (k : Nat) (chunk : Image), chunks[k]? = some chunk →
            ∃ instruction : Instruction,
              (image.sweep ⟨0⟩)[k]? = some ⟨⟨(chunks.take k).flatten.length⟩, .ok instruction⟩
                ∧ instruction.encode = chunk
                ∧ instruction.WellFormed
                ∧ ∀ operand ∈ instruction.operands,
                    operand.word ≤ Word.registerMax
                      ∧ (operand.kind = .register → operand.isRegister))
        ∧ image.reassemble = .ok image := by
  obtain ⟨instructions, hassemblable, hlines, rfl⟩ := assembleProgram_eq_ok h
  have hformed : ∀ instruction ∈ instructions, instruction.WellFormed :=
    fun instruction hmem => (hassemblable instruction hmem).wellFormed
  have hsweep := Image.sweep_flatMap_encode hformed
  refine ⟨instructions.map Instruction.encode, ?_, List.flatMap_def, ?_, ?_,
    Image.reassemble_flatMap_encode hassemblable⟩
  · rw [hlines, List.map_map]
    rfl
  · have hlength := congrArg List.length
      (Instruction.map_layOut (f := Instruction.content) (fun _ _ => rfl) ⟨0⟩ instructions)
    rw [hsweep, List.length_map, List.length_map]
    simpa using hlength
  · intro k chunk hchunk
    rw [List.getElem?_map, Option.map_eq_some_iff] at hchunk
    obtain ⟨instruction, hinstruction, rfl⟩ := hchunk
    have hmem := List.mem_of_getElem? hinstruction
    refine ⟨instruction.moveTo ⟨(((instructions.map Instruction.encode).take k).flatten).length⟩,
      ?_, rfl, (hformed instruction hmem).moveTo _, fun operand hoperand => ⟨?_, ?_⟩⟩
    · rw [hsweep, List.getElem?_map, Instruction.getElem?_layOut hformed, hinstruction,
        ← List.map_take, ← List.flatMap_def]
      exact congrArg (fun offset => some (Item.mk ⟨offset⟩ (.ok (instruction.moveTo ⟨offset⟩))))
        (Nat.zero_add _)
    · exact (hformed instruction hmem).word_le hoperand
    · exact (hassemblable instruction hmem).isRegister hoperand

/-- Two lines that count, between them a comment and a blank line. -/
theorem sweep_assembleProgram_comment :
    assembleProgram "21 ; skip\n\n  out ';'" = .ok [21, 0, 19, 0, 59, 0]
      ∧ (Image.sweep [21, 0, 19, 0, 59, 0] ⟨0⟩).length = 2
      ∧ Image.reassemble [21, 0, 19, 0, 59, 0] = .ok [21, 0, 19, 0, 59, 0] := by
  have hprogram : assembleProgram "21 ; skip\n\n  out ';'" = .ok [21, 0, 19, 0, 59, 0] := by
    with_unfolding_all rfl
  have hcount : (contentLines "21 ; skip\n\n  out ';'").length = 2 := by
    with_unfolding_all rfl
  obtain ⟨chunks, hlines, _, hlength, _, hreassemble⟩ := sweep_assembleProgram hprogram
  have hchunks := congrArg List.length hlines
  rw [List.length_map, List.length_map, hcount] at hchunks
  exact ⟨hprogram, hlength.trans hchunks.symm, hreassemble⟩

end Assembly

end WordMachine
