import WordMachine.Proofs.DecodingInPlace
import WordMachine.Proofs.SweepLayout
import WordMachine.Proofs.Tiling

/-!
# Decoding and sweeping do not depend on the place

An answer of decoding names the address it was asked about, and beyond that says nothing of
where it was. It comes from the bytes of the window alone, so the window decoded on its own
gives the same answer with another address in it.

A sweep inherits this. Behind more bytes it meets the same items, each as much further on.
And it inherits a second fact: bytes added at the end of an image change only the answers
that come from its end. So where nothing is cut off at the end of one image, the sweep goes
on into the next as if that one stood alone.
-/

namespace WordMachine

/-! ## Answers at another address -/

/-- The same reason at another address. -/
def DecodeError.moveTo (error : DecodeError) (address : Address) : DecodeError :=
  match error with
  | misaligned _ => misaligned address
  | noOpcode _ => noOpcode address
  | unknownOpcode _ word => unknownOpcode address word
  | truncated _ needed available => truncated address needed available
  | invalidOperand _ index word => invalidOperand address index word

/-- What decoding answers. -/
abbrev Decoded := Except DecodeError Instruction

namespace Decoded

/-- The address an answer names. -/
def address : Decoded → Address
  | .ok instruction => instruction.address
  | .error error => error.address

/-- The answer is that the image ends inside the instruction. -/
def IsTruncated (answer : Decoded) : Prop :=
  ∃ place needed available, answer = .error (.truncated place needed available)

/-- The same answer at another address. -/
def moveTo (answer : Decoded) (address : Address) : Decoded :=
  match answer with
  | .ok instruction => .ok (instruction.moveTo address)
  | .error error => .error (error.moveTo address)

theorem address_moveTo (answer : Decoded) (place : Address) :
    address (moveTo answer place) = place := by
  cases answer with
  | ok instruction => rfl
  | error error => cases error <;> rfl

end Decoded

namespace Instruction

theorem ofOperandWords_moveTo (address place : Address) (operation : Operation)
    (words : List Word) :
    ofOperandWords address operation words
      = Decoded.moveTo (ofOperandWords place operation words) address := by
  simp only [ofOperandWords]
  split <;> rfl

theorem ofWindow_moveTo (address place : Address) (bytes : Image) :
    ofWindow address bytes = Decoded.moveTo (ofWindow place bytes) address := by
  unfold ofWindow
  split
  · rfl
  · split
    · rfl
    · split
      · rfl
      · exact ofOperandWords_moveTo address place _ _

/-- Only the parity of the address matters to decoding. -/
theorem ofBytes_moveTo {address place : Address} (h : address.isAligned = place.isAligned)
    (bytes : Image) : ofBytes address bytes = Decoded.moveTo (ofBytes place bytes) address := by
  unfold ofBytes
  rw [h]
  split
  · exact ofWindow_moveTo address place _
  · rfl

theorem address_ofBytes (address : Address) (bytes : Image) :
    Decoded.address (ofBytes address bytes) = address := by
  rw [ofBytes_moveTo rfl]
  exact Decoded.address_moveTo _ _

/-- At an aligned address bytes decode as they do on their own. -/
theorem ofBytes_eq_moveTo_decode {address : Address} (haligned : address.isAligned)
    (bytes : Image) : ofBytes address bytes = Decoded.moveTo (bytes.decode ⟨0⟩) address := by
  have hparity : address.isAligned = Address.isAligned ⟨0⟩ := haligned
  exact ofBytes_moveTo hparity bytes

end Instruction

/-! ## The window -/

namespace Image

/-- Where two images have the same bytes in a window, they have the same window. -/
theorem window_congr {image other : Image} {address : Address}
    (h : ∀ offset, address.offset ≤ offset → offset < address.offset + Operation.maxLength →
      other[offset]? = image[offset]?) :
    Instruction.window (other.suffix address) = Instruction.window (image.suffix address) := by
  refine List.ext_getElem? fun index => ?_
  simp only [Instruction.window, suffix, List.getElem?_take, List.getElem?_drop]
  split
  · next hindex => exact h _ (Nat.le_add_right _ _) (Nat.add_lt_add_left hindex _)
  · rfl

/-- Decoding sees nothing but the window. -/
theorem decode_congr {image other : Image} {address : Address}
    (h : Instruction.window (other.suffix address) = Instruction.window (image.suffix address)) :
    other.decode address = image.decode address := by
  rw [decode, decode, Instruction.ofBytes, Instruction.ofBytes, h]

/-- The window decoded on its own gives the same answer, but for the address in it. -/
theorem decode_eq_moveTo (image : Image) {address : Address} (haligned : address.isAligned) :
    image.decode address
      = Decoded.moveTo (Image.decode (image.slice address.offset Operation.maxLength) ⟨0⟩)
          address := by
  have hwindow : Instruction.window (image.suffix address)
      = Instruction.window (image.slice address.offset Operation.maxLength) := by
    rw [slice, Instruction.window, Instruction.window, List.take_take, Nat.min_self]
    rfl
  rw [decode, Instruction.ofBytes_eq_moveTo_decode haligned]
  exact congrArg (Decoded.moveTo · address) (decode_congr hwindow)

/--
**Decoding sees a window of eight bytes and does not depend on its place.**

At an aligned address, inside the image or behind its end, decoding answers as it does for
the window alone, decoded at the start, but for the address in the answer. So does the
decoder that reads the words of the whole image in place with addresses of 64 bits. Hence no
byte outside the window has any influence on the answer: images that agree inside it, and on
whether they end there, decode alike.
-/
theorem decode_sees_window (image : Image) (address : Address) (haligned : address.isAligned) :
    image.decode address
        = Decoded.moveTo (Image.decode (image.slice address.offset 8) ⟨0⟩) address
      ∧ (image.length < UInt64.size → ∀ place : UInt64, address = ⟨place.toNat⟩ →
          image.decodeFixed place
            = Decoded.moveTo (Image.decodeFixed (image.slice address.offset 8) 0) address)
      ∧ ∀ other : Image,
          (∀ offset, address.offset ≤ offset → offset < address.offset + 8 →
            other[offset]? = image[offset]?) →
          other.decode address = image.decode address
            ∧ other.decodeInPlace address = image.decodeInPlace address := by
  have hmoved := decode_eq_moveTo image haligned
  refine ⟨hmoved, fun hlength place hplace => ?_, fun other hother => ?_⟩
  · have hwindow : List.length (image.slice address.offset 8) < UInt64.size :=
      Nat.lt_of_le_of_lt (List.length_take_le _ _) (by decide)
    subst hplace
    rw [decodeFixed_eq_decode hlength, decodeFixed_eq_decode hwindow]
    exact hmoved
  · have hsame := decode_congr (window_congr hother)
    rw [decodeInPlace_eq_decode, decodeInPlace_eq_decode]
    exact ⟨hsame, hsame⟩

/-- Three bytes of a longer instruction, deep in one image and at the end of another, an instruction
with operands that is decoded behind other bytes, and the greatest aligned address of 64 bits. -/
theorem decode_sees_window_end :
    Image.decode [1, 2, 3, 4, 9, 0, 7] ⟨4⟩ = .error (.truncated ⟨4⟩ 8 3)
      ∧ Image.decode [9, 9, 9, 9, 9, 0, 7] ⟨4⟩ = Image.decode [1, 2, 3, 4, 9, 0, 7] ⟨4⟩
      ∧ Image.decode [3, 0, 7, 0, 1, 0, 2, 128, 5, 0, 9] ⟨4⟩
        = .ok ⟨⟨4⟩, .set, [⟨0, .register, 32770⟩, ⟨1, .value, 5⟩]⟩
      ∧ Image.decodeFixed [21, 0] 0xFFFFFFFFFFFFFFFE
        = .error (.noOpcode ⟨0xFFFFFFFFFFFFFFFE⟩) := by
  obtain ⟨hmoved, -, hother⟩ := decode_sees_window [1, 2, 3, 4, 9, 0, 7] ⟨4⟩ rfl
  obtain ⟨hset, -, -⟩ := decode_sees_window [3, 0, 7, 0, 1, 0, 2, 128, 5, 0, 9] ⟨4⟩ rfl
  obtain ⟨-, hfixed, -⟩ := decode_sees_window [21, 0] ⟨0xFFFFFFFFFFFFFFFE⟩ rfl
  refine ⟨hmoved, (hother _ fun offset hle hlt => ?_).1, hset, hfixed (by decide) _ rfl⟩
  match offset with
  | 4 | 5 | 6 | 7 | 8 | 9 | 10 | 11 => rfl

end Image

/-! ## Sweeps behind more bytes -/

/-- The same item in an image that has this many more bytes in front: every address in it is that
much greater. -/
def Item.shift (item : Item) (count : Nat) : Item :=
  ⟨item.address + count, Decoded.moveTo item.result (Decoded.address item.result + count)⟩

@[simp] theorem Item.length_shift (item : Item) (count : Nat) :
    (item.shift count).length = item.length := by
  obtain ⟨address, result⟩ := item
  cases result <;> rfl

theorem Item.next_shift (item : Item) (count : Nat) :
    (item.shift count).next = item.next + count := by
  rw [next, next, length_shift]
  exact congrArg Address.mk (Nat.add_right_comm _ _ _)

namespace Sweep

/-- The same sweep in an image that has this many more bytes in front. -/
def shift (sweep : Sweep) (count : Nat) : Sweep := ⟨sweep.position + count, sweep.ahead⟩

variable {sweep : Sweep} {count : Nat}

theorem item_shift (heven : count % 2 = 0) : (sweep.shift count).item = sweep.item.shift count := by
  have hparity : (sweep.position + count).isAligned = sweep.position.isAligned := by
    simp only [Address.isAligned, Address.offset_add, Word.size, Nat.add_mod, heven, Nat.add_zero,
      Nat.mod_mod]
  rw [item, shift, Instruction.ofBytes_moveTo hparity, item, Item.shift,
    Instruction.address_ofBytes]

theorem advance_shift (heven : count % 2 = 0) :
    (sweep.shift count).advance = sweep.advance.shift count := by
  rw [advance, item_shift heven, Item.next_shift, Item.length_shift]
  rfl

/-- **A sweep behind more bytes** meets the same items further on. -/
theorem items_shift (sweep : Sweep) (heven : count % 2 = 0) :
    (sweep.shift count).items = sweep.items.map (·.shift count) := by
  -- the bytes ahead are the same in both, so both runs end together
  induction sweep using along with
  | finished sweep hnil =>
    have hshifted : (sweep.shift count).ahead = [] := hnil
    rw [items_of_ahead_eq_nil hnil, items_of_ahead_eq_nil hshifted]
    rfl
  | onward sweep hne ih =>
    have hshifted : (sweep.shift count).ahead ≠ [] := hne
    rw [items_of_ahead_ne_nil hne, items_of_ahead_ne_nil hshifted, item_shift heven,
      advance_shift heven, ih]
    rfl

end Sweep

/-! ## Bytes behind an image -/

namespace Image

variable {image : Image} {address : Address}

theorem wordAt?_append {word : Word} (h : image.wordAt? address = some word) (rest : Image) :
    (image ++ rest).wordAt? address = some word := by
  have hfits : address.offset + Word.size ≤ image.length := by
    refine Nat.le_of_not_lt fun hlt => ?_
    rw [wordAt?_eq_none_iff.2 hlt] at h
    exact absurd h (by simp)
  rw [wordAt?, suffix, List.drop_append_of_le_length (Nat.le_of_add_right_le hfits)]
  unfold wordAt? at h
  split at h
  · next low high tail hsuffix =>
    rw [suffix] at hsuffix
    rw [hsuffix]
    exact h
  · exact absurd h (by simp)

/-- Bytes added behind the words of an instruction leave these words as they are. -/
theorem operandWordAt?_append {arity slot : Nat}
    (hfits : 2 + 2 * arity ≤ image.length - address.offset) (hslot : slot < arity) (rest : Image) :
    (image ++ rest).operandWordAt? address slot = image.operandWordAt? address slot := by
  obtain ⟨word, hword⟩ := exists_operandWordAt? hfits hslot
  rw [hword]
  exact wordAt?_append hword rest

/-- An answer that does not come from the end of the image is not changed by bytes added there. -/
theorem Shows.append {answer : Decoded} (h : image.Shows address answer)
    (hword : address.offset + 2 ≤ image.length) (hwhole : ¬ Decoded.IsTruncated answer)
    (rest : Image) : (image ++ rest).Shows address answer := by
  have hmore : image.length - address.offset ≤ (image ++ rest).length - address.offset := by
    rw [List.length_append]
    omega
  cases h with
  | misaligned hodd => exact .misaligned hodd
  | noOpcode haligned hshort => exact absurd hshort (Nat.not_lt.2 hword)
  | unknownOpcode haligned hread hlarge =>
    exact .unknownOpcode haligned (wordAt?_append hread rest) hlarge
  | truncated haligned hopcode hshort => exact absurd ⟨_, _, _, rfl⟩ hwhole
  | invalidOperand haligned hopcode hfits hslot hread hinvalid hbefore =>
    refine .invalidOperand haligned (wordAt?_append hopcode rest) (Nat.le_trans hfits hmore) hslot
      (wordAt?_append hread rest) hinvalid fun earlier hearlier => ?_
    rw [operandWordAt?_append hfits (Nat.lt_trans hearlier hslot)]
    exact hbefore earlier hearlier
  | instruction haligned hopcode hfits hlength hwords hvalid =>
    refine .instruction haligned (wordAt?_append hopcode rest) (Nat.le_trans hfits hmore) hlength
      (fun slot hslot => ?_) hvalid
    rw [operandWordAt?_append hfits hslot]
    exact hwords slot hslot

end Image

namespace Sweep

variable {sweep : Sweep}

/-- Bytes far ahead do not change the item that is met. -/
theorem item_append (haligned : sweep.position.isAligned) (hword : 2 ≤ sweep.ahead.length)
    (hwhole : ¬ Decoded.IsTruncated sweep.item.result) (rest : Image) :
    (Sweep.mk sweep.position (sweep.ahead ++ rest)).item = sweep.item := by
  have hmoved := Instruction.ofBytes_eq_moveTo_decode haligned
  have halone : ¬ Decoded.IsTruncated (sweep.ahead.decode ⟨0⟩) := by
    rintro ⟨place, needed, available, htruncated⟩
    refine hwhole ⟨sweep.position, needed, available, ?_⟩
    rw [item, hmoved, htruncated]
    rfl
  have hfits : (Address.mk 0).offset + 2 ≤ sweep.ahead.length := by rwa [Nat.zero_add]
  have hsame : (sweep.ahead ++ rest).decode ⟨0⟩ = sweep.ahead.decode ⟨0⟩ :=
    Image.shows_iff.1 ((Image.shows_decode _ _).append hfits halone rest)
  rw [item, item, hmoved, hmoved, hsame]

/-- An item that is not cut off lies inside the bytes ahead. -/
theorem length_item_le (hword : 2 ≤ sweep.ahead.length) :
    sweep.item.length ≤ sweep.ahead.length := by
  rw [Item.length]
  split
  · next instruction hok =>
    obtain ⟨-, -, hformed, hprefix⟩ := Instruction.ofBytes_eq_ok_iff.1 hok
    rw [← hformed.length_encode]
    exact hprefix.length_le
  · exact hword

/-- A step takes whole words from what is ahead. -/
theorem length_ahead_advance_mod (hle : sweep.item.length ≤ sweep.ahead.length) :
    sweep.advance.ahead.length % 2 = sweep.ahead.length % 2 := by
  have hlength := sweep.item.length_mod_size
  rw [Word.size] at hlength
  rw [advance, List.length_drop]
  omega

/-- What is ahead ends at the same place behind the item as in front of it. -/
theorem end_advance (hle : sweep.item.length ≤ sweep.ahead.length) :
    sweep.advance.position + sweep.advance.ahead.length
      = sweep.position + sweep.ahead.length := by
  refine congrArg Address.mk ?_
  rw [advance, List.length_drop]
  change sweep.position.offset + sweep.item.length + _ = _
  rw [Nat.add_assoc, Nat.add_sub_cancel' hle]

theorem advance_append {rest : Image}
    (hitem : (Sweep.mk sweep.position (sweep.ahead ++ rest)).item = sweep.item)
    (hle : sweep.item.length ≤ sweep.ahead.length) :
    (Sweep.mk sweep.position (sweep.ahead ++ rest)).advance
      = ⟨sweep.advance.position, sweep.advance.ahead ++ rest⟩ := by
  rw [advance, hitem, List.drop_append_of_le_length hle]
  rfl

/-- **A sweep goes on into the bytes behind**, where nothing is cut off before them. -/
theorem items_append (sweep : Sweep) (haligned : sweep.position.isAligned)
    (heven : sweep.ahead.length % 2 = 0)
    (hwhole : ∀ item ∈ sweep.items, ¬ Decoded.IsTruncated item.result) (rest : Image) :
    (Sweep.mk sweep.position (sweep.ahead ++ rest)).items
      = sweep.items ++ (Sweep.mk (sweep.position + sweep.ahead.length) rest).items := by
  -- along the first image: the bytes behind stay as they are, and so does the place they start at
  induction sweep using along with
  | finished sweep hnil =>
    rw [items_of_ahead_eq_nil hnil, hnil]
    rfl
  | onward sweep hne ih =>
    have hpos := List.length_pos_iff.2 hne
    have hword : 2 ≤ sweep.ahead.length := by omega
    rw [items_of_ahead_ne_nil hne] at hwhole ⊢
    obtain ⟨hfirst, hrest⟩ := List.forall_mem_cons.1 hwhole
    have hle := length_item_le hword
    have hitem := item_append haligned hword hfirst rest
    have hahead' : (Sweep.mk sweep.position (sweep.ahead ++ rest)).ahead ≠ [] :=
      List.append_ne_nil_of_left_ne_nil hne rest
    have htail := ih (sweep.item.isAligned_next.trans haligned)
      ((length_ahead_advance_mod hle).trans heven) hrest
    rw [items_of_ahead_ne_nil hahead', hitem, advance_append hitem hle, htail, end_advance hle]
    rfl

end Sweep

/--
**A sweep of two images joined is a sweep of the one and then of the other.**

If the first image has even length and none of its items is cut off by its end, the sweep
meets its items and after them those of the second image. In these the address of the item
and the address its answer names are greater by the length of the first image, and nothing
else is different. Words that are no opcodes and operands that mean nothing may occur in
either.
-/
theorem Image.sweep_append {image : Image} (heven : image.length % 2 = 0)
    (hwhole : ∀ item ∈ image.sweep ⟨0⟩, ¬ Decoded.IsTruncated item.result) (rest : Image) :
    Image.sweep (image ++ rest) ⟨0⟩
      = image.sweep ⟨0⟩ ++ (rest.sweep ⟨0⟩).map (·.shift image.length) := by
  have happend : Image.sweep (image ++ rest) ⟨0⟩
      = image.sweep ⟨0⟩ ++ (Sweep.mk (Address.mk 0 + image.length) rest).items :=
    Sweep.items_append (Sweep.start image ⟨0⟩) rfl heven hwhole rest
  have hshift : (Sweep.mk (Address.mk 0 + image.length) rest).items
      = (rest.sweep ⟨0⟩).map (·.shift image.length) :=
    Sweep.items_shift (Sweep.start rest ⟨0⟩) heven
  rw [happend, hshift]

/-- A word that is no opcode and an operand that means nothing end the first image. The second
begins with an instruction that has operands and breaks off inside another. -/
theorem Image.sweep_append_bad_word :
    Image.sweep ([119, 119, 3, 0, 255, 255] ++ [1, 0, 2, 128, 5, 0, 9, 0, 7]) ⟨0⟩
      = [⟨⟨0⟩, .error (.unknownOpcode ⟨0⟩ 30583)⟩, ⟨⟨2⟩, .error (.invalidOperand ⟨2⟩ 0 65535)⟩,
          ⟨⟨4⟩, .error (.unknownOpcode ⟨4⟩ 65535)⟩]
        ++ [⟨⟨6⟩, .ok ⟨⟨6⟩, .set, [⟨0, .register, 32770⟩, ⟨1, .value, 5⟩]⟩⟩,
          ⟨⟨12⟩, .error (.truncated ⟨12⟩ 8 3)⟩, ⟨⟨14⟩, .error (.noOpcode ⟨14⟩)⟩] := by
  have hfirst : Image.sweep [119, 119, 3, 0, 255, 255] ⟨0⟩
      = [⟨⟨0⟩, .error (.unknownOpcode ⟨0⟩ 30583)⟩, ⟨⟨2⟩, .error (.invalidOperand ⟨2⟩ 0 65535)⟩,
          ⟨⟨4⟩, .error (.unknownOpcode ⟨4⟩ 65535)⟩] := by
    with_unfolding_all rfl
  have hsecond : Image.sweep [1, 0, 2, 128, 5, 0, 9, 0, 7] ⟨0⟩
      = [⟨⟨0⟩, .ok ⟨⟨0⟩, .set, [⟨0, .register, 32770⟩, ⟨1, .value, 5⟩]⟩⟩,
          ⟨⟨6⟩, .error (.truncated ⟨6⟩ 8 3)⟩, ⟨⟨8⟩, .error (.noOpcode ⟨8⟩)⟩] := by
    with_unfolding_all rfl
  have hwhole : ∀ item ∈ Image.sweep [119, 119, 3, 0, 255, 255] ⟨0⟩,
      ¬ Decoded.IsTruncated item.result := by
    rw [hfirst]
    simp [Decoded.IsTruncated]
  rw [Image.sweep_append rfl hwhole, hfirst, hsecond]
  rfl

end WordMachine
