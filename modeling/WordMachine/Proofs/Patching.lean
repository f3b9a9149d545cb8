import WordMachine.Proofs.DecodingInPlace
import WordMachine.Proofs.Relocation
import WordMachine.Proofs.Resuming

/-!
# Patching with `noop`

Words that are replaced by `noop` instructions leave the bytes outside their range alone.
From the range on, a sweep meets the `noop` instructions and then goes on behind the range
as if it had started there, whatever stood in the range before.

What a sweep meets in front of the range may look into it. An instruction that is met ends
before the range begins, if the sweep comes to the place at all. A word that is no opcode is
told by this word alone, and an instruction that is cut off by its opcode and the length of
the image. Only an operand that means nothing can lie in the range while the item, which
takes one word, ends in front of it. So where no such operand is met before the range,
patching changes nothing there.
-/

namespace WordMachine

/-- The answer is that an operand word means nothing. -/
def Decoded.IsInvalidOperand (answer : Decoded) : Prop :=
  ∃ place index word, answer = .error (.invalidOperand place index word)

/-! ## Rows of `noop` instructions -/

/-- The `noop` instruction at an address. -/
def Instruction.noop (address : Address) : Instruction := ⟨address, .noop, []⟩

namespace Instruction

theorem wellFormed_noop (address : Address) : (noop address).WellFormed := by
  refine ⟨rfl, fun slot operand hoperand => ?_⟩
  exact absurd hoperand (by simp [noop])

/-- The instructions of a row lie two bytes apart. -/
theorem layOut_replicate_noop (address : Address) (count : Nat) :
    layOut address (List.replicate count (noop ⟨0⟩))
      = (List.range count).map fun index => noop (address + 2 * index) := by
  induction count generalizing address with
  | zero => rfl
  | succ count ih =>
    rw [List.replicate_succ, layOut, ih, List.range_succ_eq_map, List.map_cons, List.map_map]
    refine List.cons_eq_cons.2 ⟨rfl, List.map_congr_left fun index _ => ?_⟩
    have hplace : address.offset + 2 + 2 * index = address.offset + 2 * (index + 1) := by omega
    exact congrArg (fun offset => noop ⟨offset⟩) hplace

end Instruction

namespace Image

variable {image other : Image} {place length : Nat}

theorem noops_eq_flatMap (bytes : Image) :
    noops bytes
      = (List.replicate (bytes.length / 2) (Instruction.noop ⟨0⟩)).flatMap Instruction.encode := by
  show ofWords (List.replicate (bytes.length / 2) Operation.noop.opcode) = _
  induction bytes.length / 2 with
  | zero => rfl
  | succ count ih =>
    rw [List.replicate_succ, List.replicate_succ, ofWords_cons, ih, List.flatMap_cons]
    rfl

/-- A byte that makes no word is dropped. -/
theorem length_noops (bytes : Image) : (noops bytes).length = 2 * (bytes.length / 2) := by
  rw [noops, length_ofWords, List.length_replicate]
  rfl

/-! ## The bytes of a patched image -/

theorem length_slice (hfits : place + length ≤ image.length) :
    List.length (image.slice place length) = length := by
  rw [slice, List.length_take, List.length_drop]
  omega

theorem length_noops_slice (heven : length % 2 = 0) (hfits : place + length ≤ image.length) :
    (noops (image.slice place length)).length = length := by
  rw [length_noops, length_slice hfits]
  omega

/-- A range of whole words inside the image is replaced as a whole. -/
theorem blankOut_eq (heven : length % 2 = 0) (hfits : place + length ≤ image.length) :
    image.blankOut place length
      = image.take place ++ (noops (image.slice place length) ++ image.drop (place + length)) := by
  rw [blankOut, overwrite, length_noops_slice heven hfits, List.append_assoc]

/-- Both images are of one length and hold the same bytes in front of a place. -/
structure SameBefore (place : Nat) (image other : Image) : Prop where
  length : other.length = image.length
  byte : ∀ offset < place, other[offset]? = image[offset]?

/-- **No byte outside the range is changed.** -/
theorem getElem?_blankOut (heven : length % 2 = 0) (hfits : place + length ≤ image.length)
    {offset : Nat} (houtside : offset < place ∨ place + length ≤ offset) :
    (image.blankOut place length)[offset]? = image[offset]? := by
  have hfront : (image.take place).length = place := List.length_take_of_le (by omega)
  have hrange := length_noops_slice heven hfits
  rw [blankOut_eq heven hfits]
  rcases houtside with hbefore | hbehind
  · rw [List.getElem?_append_left (by omega), List.getElem?_take_of_lt hbefore]
  · rw [List.getElem?_append_right (by omega), List.getElem?_append_right (by omega),
      List.getElem?_drop, hfront, hrange]
    congr 1
    omega

theorem sameBefore_blankOut (heven : length % 2 = 0) (hfits : place + length ≤ image.length) :
    SameBefore place image (image.blankOut place length) where
  length := by
    rw [blankOut_eq heven hfits, List.length_append, List.length_append,
      length_noops_slice heven hfits, List.length_take, List.length_drop]
    omega
  byte := fun offset hoffset => getElem?_blankOut heven hfits (Or.inl hoffset)

theorem suffix_blankOut (heven : length % 2 = 0) (hfits : place + length ≤ image.length) :
    (image.blankOut place length).suffix ⟨place⟩
      = noops (image.slice place length) ++ image.suffix ⟨place + length⟩ := by
  have hfront : (image.take place).length = place := List.length_take_of_le (by omega)
  rw [blankOut_eq heven hfits, suffix, List.drop_left' hfront]
  rfl

/-! ## From the range on -/

/-- **The range is met as `noop` instructions**, and the sweep goes on behind it. -/
theorem sweep_blankOut (hplace : place % 2 = 0) (heven : length % 2 = 0)
    (hfits : place + length ≤ image.length) :
    (image.blankOut place length).sweep ⟨place⟩
      = ((List.range (length / 2)).map fun index =>
          ⟨⟨place + 2 * index⟩, .ok (Instruction.noop ⟨place + 2 * index⟩)⟩)
        ++ image.sweep ⟨place + length⟩ := by
  have haligned : Address.isAligned ⟨place⟩ := beq_iff_eq.2 hplace
  have hwellFormed : ∀ instruction ∈ List.replicate (length / 2) (Instruction.noop ⟨0⟩),
      instruction.WellFormed := by
    intro instruction hmem
    rw [List.eq_of_mem_replicate hmem]
    exact Instruction.wellFormed_noop ⟨0⟩
  have hitems := Sweep.items_flatMap_encode hwellFormed ⟨place⟩ haligned
    (image.suffix ⟨place + length⟩)
  have hrow : (List.replicate (length / 2) (Instruction.noop ⟨0⟩)).flatMap Instruction.encode
      = noops (image.slice place length) := by
    rw [noops_eq_flatMap, length_slice hfits]
  rw [hrow, length_noops_slice heven hfits, Instruction.layOut_replicate_noop,
    List.map_map] at hitems
  rw [sweep, Sweep.start, suffix_blankOut heven hfits, hitems]
  rfl

/-! ## In front of the range -/

/-- A word in front of the place is the same in both images. -/
theorem SameBefore.wordAt? (h : SameBefore place image other) {address : Address}
    (hword : address.offset + 2 ≤ place) : other.wordAt? address = image.wordAt? address := by
  rw [wordAt?_eq_getElem?, wordAt?_eq_getElem?, h.byte _ (by omega), h.byte _ (by omega)]

/-- **An item that ends in front of the place is met in both images**, unless it is on an operand
that means nothing. -/
theorem SameBefore.shows (h : SameBefore place image other) {address : Address} {answer : Decoded}
    (hshows : image.Shows address answer) (hvalid : ¬ Decoded.IsInvalidOperand answer)
    (hend : (Item.mk address answer).next.offset ≤ place) : other.Shows address answer := by
  cases hshows with
  | misaligned hodd => exact .misaligned hodd
  | noOpcode haligned hshort => exact .noOpcode haligned (by rwa [h.length])
  | unknownOpcode haligned hread hlarge =>
    refine .unknownOpcode haligned ?_ hlarge
    rw [h.wordAt? hend, hread]
  | truncated haligned hopcode hshort =>
    rw [← h.length] at hshort ⊢
    refine .truncated haligned ?_ hshort
    rw [h.wordAt? hend, hopcode]
  | invalidOperand => exact absurd ⟨_, _, _, rfl⟩ hvalid
  | @instruction operation words haligned hopcode hfits hlength hwords hmeaning =>
    have htaken : address.offset + (2 + 2 * operation.arity) ≤ place := by
      rw [← operation.length_eq]
      exact hend
    refine .instruction haligned ?_ (by rwa [h.length]) hlength (fun slot hslot => ?_) hmeaning
    · rw [h.wordAt? (by omega), hopcode]
    · rw [← hwords slot hslot]
      refine h.wordAt? ?_
      show address.offset + 2 * (slot + 1) + 2 ≤ place
      omega

end Image

namespace Sweep

variable {image other : Image} {place : Nat}

/-- A sweep does not go back. -/
theorem position_le_of_mem_items {sweep : Sweep} {item : Item} (h : item ∈ sweep.items) :
    sweep.position.offset ≤ item.address.offset := by
  obtain ⟨-, last, -, -, htiles⟩ :=
    items_keep (P := fun _ => True) (fun _ _ _ => trivial) (trivial : (fun _ => True) sweep)
  exact (htiles.le_and_le.2 item h).1

/-- One step: an item that ends in front of the place is met in both images, and both sweeps go on
behind it. -/
theorem items_start_of_sameBefore (h : Image.SameBefore place image other) {sweep : Sweep}
    (hlies : LiesIn image sweep) (hne : sweep.ahead ≠ [])
    (hend : sweep.item.next.offset ≤ place)
    (hvalid : ¬ Decoded.IsInvalidOperand sweep.item.result) :
    (start other sweep.position).items
      = sweep.item :: (start other sweep.advance.position).items := by
  have hother := liesIn_start other sweep.position
  have hahead : (start other sweep.position).ahead ≠ [] := by
    rw [hother.ahead_ne_nil_iff, h.length]
    exact hlies.ahead_ne_nil_iff.1 hne
  have hitem : (start other sweep.position).item = sweep.item := by
    rw [hlies.item_eq] at hend hvalid ⊢
    have hshows := h.shows (Image.shows_decode image sweep.position) hvalid hend
    rw [hother.item_eq]
    exact congrArg (Item.mk sweep.position) (Image.shows_iff.1 hshows)
  have hadvance : (start other sweep.position).advance = start other sweep.advance.position := by
    rw [hother.advance.eq_start]
    show start other (start other sweep.position).item.next = _
    rw [hitem]
    rfl
  rw [items_of_ahead_ne_nil hahead, hitem, hadvance]

/-- **Sweeps of images that agree in front of a place** meet the same items up to it, if one of them
comes to the place. -/
theorem items_of_sameBefore (h : Image.SameBefore place image other) {sweep : Sweep}
    (hlies : LiesIn image sweep) (hvisited : ∃ item ∈ sweep.items, item.address = ⟨place⟩)
    (hvalid : ∀ item ∈ sweep.items, item.address.offset < place →
      ¬ Decoded.IsInvalidOperand item.result) :
    (start other sweep.position).items
      = sweep.items.filter (·.address.offset < place) ++ (start other ⟨place⟩).items := by
  -- along the sweep of `image`: the sweep of `other` stands at the same position
  induction sweep using along with
  | finished sweep hnil =>
    rw [items_of_ahead_eq_nil hnil] at hvisited
    exact absurd hvisited (by simp)
  | onward sweep hne ih =>
    by_cases hposition : sweep.position = ⟨place⟩
    · -- the place itself, and nothing that is still to come lies in front of it
      have hnone : sweep.items.filter (·.address.offset < place) = [] := by
        refine List.filter_eq_nil_iff.2 fun item hitem => ?_
        have hle := position_le_of_mem_items hitem
        rw [hposition] at hle
        simpa using hle
      rw [hnone, hposition, List.nil_append]
    · rw [items_of_ahead_ne_nil hne] at hvisited hvalid ⊢
      obtain ⟨hfirst, hrest⟩ := List.forall_mem_cons.1 hvalid
      obtain ⟨item, hmem, hplace⟩ := hvisited
      have hlater : item ∈ sweep.advance.items := by
        rcases List.mem_cons.1 hmem with rfl | hlater
        · exact absurd hplace hposition
        · exact hlater
      -- the sweep comes to the place behind this item, so the item ends in front of it
      have hend : sweep.item.next.offset ≤ place := by
        have hle := position_le_of_mem_items hlater
        rw [hplace] at hle
        exact hle
      have hbefore : sweep.item.address.offset < place :=
        Nat.lt_of_lt_of_le sweep.item.offset_lt_next hend
      have hkept : (sweep.item :: sweep.advance.items).filter (·.address.offset < place)
          = sweep.item :: sweep.advance.items.filter (·.address.offset < place) :=
        List.filter_cons_of_pos (decide_eq_true hbefore)
      rw [items_start_of_sameBefore h hlies hne hend (hfirst hbefore),
        ih hlies.advance ⟨item, hlater, hplace⟩ hrest, hkept, List.cons_append]

end Sweep

/--
**Patching with `noop` is local and is swept as intended.**

A range of whole words inside the image is replaced as a whole. The image keeps its length
and every byte outside the range. A sweep from the range on meets one `noop` instruction for
each of its words and then exactly what the sweep of the old image meets from behind the
range. If the sweep of the old image comes to the start of the range, and in front of it
meets no operand that means nothing, the sweep of the new image from the start meets the
same items there and then goes on as from the range. The bytes that replace a range of any
length are as many as there are in its whole words.
-/
theorem Image.sweep_blankOut_frame :
    (∀ (image : Image) (place length : Nat), place % 2 = 0 → length % 2 = 0 →
      place + length ≤ image.length →
        image.blankOut place length
            = image.take place ++ (noops (image.slice place length) ++ image.drop (place + length))
          ∧ (image.blankOut place length).length = image.length
          ∧ (∀ offset, offset < place ∨ place + length ≤ offset →
              (image.blankOut place length)[offset]? = image[offset]?)
          ∧ (image.blankOut place length).sweep ⟨place⟩
            = ((List.range (length / 2)).map fun index =>
                ⟨⟨place + 2 * index⟩, .ok (Instruction.noop ⟨place + 2 * index⟩)⟩)
              ++ image.sweep ⟨place + length⟩
          ∧ ((∃ item ∈ image.sweep ⟨0⟩, item.address = ⟨place⟩) →
              (∀ item ∈ image.sweep ⟨0⟩, item.address.offset < place →
                ¬ Decoded.IsInvalidOperand item.result) →
              (image.blankOut place length).sweep ⟨0⟩
                = (image.sweep ⟨0⟩).filter (·.address.offset < place)
                  ++ (image.blankOut place length).sweep ⟨place⟩))
      ∧ ∀ bytes : Image, (noops bytes).length = 2 * (bytes.length / 2) := by
  refine ⟨fun image place length hplace heven hfits => ?_, length_noops⟩
  have hsame := sameBefore_blankOut heven hfits
  refine ⟨blankOut_eq heven hfits, hsame.length, ?_, sweep_blankOut hplace heven hfits, ?_⟩
  · intro offset houtside
    exact getElem?_blankOut heven hfits houtside
  · intro hvisited hvalid
    exact Sweep.items_of_sameBefore hsame (Sweep.liesIn_start image ⟨0⟩) hvisited hvalid

/-- A word that is no opcode in front of the range, and an instruction in it that becomes two. -/
theorem Image.sweep_blankOut_frame_bad_word :
    Image.sweep (Image.blankOut [119, 119, 19, 0, 65, 0, 0, 0] 2 4) ⟨0⟩
        = [⟨⟨0⟩, .error (.unknownOpcode ⟨0⟩ 30583)⟩, ⟨⟨2⟩, .ok ⟨⟨2⟩, .noop, []⟩⟩,
          ⟨⟨4⟩, .ok ⟨⟨4⟩, .noop, []⟩⟩, ⟨⟨6⟩, .ok ⟨⟨6⟩, .halt, []⟩⟩]
      ∧ (noops [1, 2, 3]).length = 2 := by
  have hsweep : Image.sweep [119, 119, 19, 0, 65, 0, 0, 0] ⟨0⟩
      = [⟨⟨0⟩, .error (.unknownOpcode ⟨0⟩ 30583)⟩, ⟨⟨2⟩, .ok ⟨⟨2⟩, .output, [⟨0, .char, 65⟩]⟩⟩,
          ⟨⟨6⟩, .ok ⟨⟨6⟩, .halt, []⟩⟩] := by
    with_unfolding_all rfl
  have hbehind : Image.sweep [119, 119, 19, 0, 65, 0, 0, 0] ⟨6⟩
      = [⟨⟨6⟩, .ok ⟨⟨6⟩, .halt, []⟩⟩] := by
    with_unfolding_all rfl
  obtain ⟨hframe, hlength⟩ := sweep_blankOut_frame
  obtain ⟨-, -, -, hrange, hwhole⟩ :=
    hframe [119, 119, 19, 0, 65, 0, 0, 0] 2 4 (by decide) (by decide) (by decide)
  rw [hsweep] at hwhole
  have hitems := hwhole ⟨_, List.mem_cons_of_mem _ List.mem_cons_self, rfl⟩
    (by simp [Decoded.IsInvalidOperand])
  rw [hitems, hrange, hbehind]
  exact ⟨rfl, hlength [1, 2, 3]⟩

/-- The operand that means nothing lies in the range, and what replaces it means something. -/
example : Image.sweep (Image.blankOut [2, 0, 255, 255] 2 2) ⟨0⟩
    = [⟨⟨0⟩, .ok ⟨⟨0⟩, .push, [⟨0, .value, 21⟩]⟩⟩] := by
  with_unfolding_all rfl

end WordMachine
