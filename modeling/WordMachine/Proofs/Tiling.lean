import Mathlib.Logic.ExistsUnique
import WordMachine.Proofs.Decoding
import WordMachine.Sweep

/-!
# A sweep tiles its image

The items of a sweep lie one behind the other: the first at the start, each next one where
the one before it ends, until no byte is left. What one step keeps is `OnGrid`. From an
aligned address a sweep comes to aligned addresses only, and it never leaves the image but
for the odd byte that an image may end in. That byte is met last and makes no word, which
is the one item that reaches over the end.

From an odd address the sweep comes to odd addresses only, and decoding refuses them all.
-/

namespace WordMachine

/-! ## Items side by side -/

namespace Item

/-- The offset is one of the bytes that the item takes. -/
def Covers (item : Item) (offset : Nat) : Prop :=
  item.address.offset ≤ offset ∧ offset < item.next.offset

/-- The items begin at the first address, each where the one before it ends, and end at the
second address. -/
inductive Tiles : Address → List Item → Address → Prop
  | nil (address : Address) : Tiles address [] address
  | cons {start stop : Address} {item : Item} {items : List Item} :
      item.address = start → Tiles item.next items stop → Tiles start (item :: items) stop

variable {start stop : Address} {items : List Item}

theorem offset_lt_next (item : Item) : item.address.offset < item.next.offset :=
  Nat.lt_add_of_pos_right item.length_pos

/-- Items that tile a range lie inside it. -/
theorem Tiles.le_and_le (h : Tiles start items stop) :
    start.offset ≤ stop.offset
      ∧ ∀ item ∈ items, start.offset ≤ item.address.offset ∧ item.next.offset ≤ stop.offset := by
  induction h with
  | nil address => exact ⟨Nat.le_refl _, by simp⟩
  | @cons start stop item items haddress _ ih =>
    obtain ⟨hle, hitems⟩ := ih
    subst haddress
    have hlt := item.offset_lt_next
    refine ⟨by omega, fun later hlater => ?_⟩
    rcases List.mem_cons.1 hlater with rfl | hlater
    · exact ⟨Nat.le_refl _, hle⟩
    · obtain ⟨hstart, hstop⟩ := hitems later hlater
      exact ⟨by omega, hstop⟩

/-- **No gap and no overlap.** Each byte of a tiled range belongs to exactly one of the items. -/
theorem Tiles.existsUnique_covers (h : Tiles start items stop) {offset : Nat}
    (hstart : start.offset ≤ offset) (hstop : offset < stop.offset) :
    ∃! k : Nat, ∃ item : Item, items[k]? = some item ∧ item.Covers offset := by
  induction h with
  | nil address => omega
  | @cons start stop item items haddress htiles ih =>
    subst haddress
    by_cases hnext : offset < item.next.offset
    · -- the items behind the first one begin too late
      refine ⟨0, ⟨item, rfl, hstart, hnext⟩, fun k hk => ?_⟩
      obtain ⟨other, hother, hcovers⟩ := hk
      cases k with
      | zero => rfl
      | succ k =>
        have hlater := (htiles.le_and_le.2 other (List.mem_of_getElem? hother)).1
        have hbegin := hcovers.1
        omega
    · obtain ⟨k, hk, hunique⟩ := ih (Nat.le_of_not_lt hnext) hstop
      refine ⟨k + 1, hk, fun j hj => ?_⟩
      obtain ⟨other, hother, hcovers⟩ := hj
      cases j with
      | zero =>
        obtain rfl := Option.some.inj hother
        exact absurd hcovers.2 hnext
      | succ j => rw [hunique j ⟨other, hother, hcovers⟩]

/-- The last item ends where the range ends, and the others tile what is in front of it. -/
theorem Tiles.of_concat {last : Item} (h : Tiles start (items ++ [last]) stop) :
    Tiles start items last.address ∧ last.next = stop := by
  induction items generalizing start with
  | nil =>
    cases h with
    | cons haddress hrest =>
      cases hrest with
      | nil => exact ⟨haddress ▸ Tiles.nil _, rfl⟩
  | cons item items ih =>
    cases h with
    | cons haddress hrest => exact ⟨Tiles.cons haddress (ih hrest).1, (ih hrest).2⟩

/-- An item begins where the one before it ends. -/
theorem Tiles.address_eq_next (h : Tiles start items stop) {k : Nat} {item following : Item}
    (hitem : items[k]? = some item) (hfollowing : items[k + 1]? = some following) :
    following.address = item.next := by
  induction h generalizing k with
  | nil address => exact absurd hitem (by simp)
  | @cons start stop first items haddress htiles ih =>
    rw [List.getElem?_cons_succ] at hfollowing
    cases k with
    | zero =>
      obtain rfl := Option.some.inj hitem
      cases htiles with
      | nil => exact absurd hfollowing (by simp)
      | cons hnext _ =>
        obtain rfl := Option.some.inj hfollowing
        exact hnext
    | succ k =>
      rw [List.getElem?_cons_succ] at hitem
      exact ih hitem hfollowing

/-- An item takes whole words. -/
theorem length_mod_size (item : Item) : item.length % Word.size = 0 := by
  unfold length
  split
  · exact Nat.mul_mod_right _ _
  · rfl

/-- So the sweep stays on even or on odd addresses. -/
theorem isAligned_next (item : Item) : item.next.isAligned = item.address.isAligned := by
  rw [next, Address.isAligned, Address.isAligned, Address.offset_add, Nat.add_mod,
    item.length_mod_size, Nat.add_zero, Nat.mod_mod]

end Item

/-! ## Runs -/

namespace Sweep

variable {image : Image} {sweep : Sweep}

/-- **What every step keeps.** It holds of the places at which a run meets its items, and of the
place with nothing ahead at which the run ends. The items tile the way there. -/
theorem items_keep {P : Sweep → Prop}
    (hstep : ∀ place : Sweep, P place → place.ahead ≠ [] → P place.advance) (hstart : P sweep) :
    (∀ item ∈ sweep.items, ∃ place : Sweep, P place ∧ place.ahead ≠ [] ∧ item = place.item)
      ∧ ∃ place : Sweep, P place ∧ place.ahead = []
          ∧ Item.Tiles sweep.position sweep.items place.position := by
  -- along the run: `P` at a place is handed on to the place behind the item met there
  induction sweep using along with
  | finished sweep hnil =>
    rw [items_of_ahead_eq_nil hnil]
    exact ⟨by simp, sweep, hstart, hnil, Item.Tiles.nil _⟩
  | onward sweep hne ih =>
    obtain ⟨hitems, place, hplace, hnil, htiles⟩ := ih (hstep sweep hstart hne)
    rw [items_of_ahead_ne_nil hne]
    refine ⟨fun item hitem => ?_, place, hplace, hnil, Item.Tiles.cons rfl htiles⟩
    rcases List.mem_cons.1 hitem with rfl | hlater
    · exact ⟨sweep, hstart, hne, rfl⟩
    · exact hitems item hlater

/-- What one call answers, and the sweep that is left. A sweep with nothing ahead stays as it is. -/
def call (sweep : Sweep) : Option Item × Sweep :=
  match sweep.next? with
  | none => (none, sweep)
  | some (item, rest) => (some item, rest)

/-- What a call answers after this many earlier ones. -/
def answer (sweep : Sweep) : Nat → Option Item
  | 0 => sweep.call.1
  | calls + 1 => sweep.call.2.answer calls

theorem call_of_ahead_eq_nil (h : sweep.ahead = []) : sweep.call = (none, sweep) := by
  rw [call, next?, if_pos (by simpa using h)]

theorem call_of_ahead_ne_nil (h : sweep.ahead ≠ []) :
    sweep.call = (some sweep.item, sweep.advance) := by
  rw [call, next?, if_neg (by simpa using h)]

/-- A call answers with the first item. -/
theorem fst_call (sweep : Sweep) : sweep.call.1 = sweep.items.head? := by
  by_cases h : sweep.ahead = []
  · rw [call_of_ahead_eq_nil h, items_of_ahead_eq_nil h, List.head?_nil]
  · rw [call_of_ahead_ne_nil h, items_of_ahead_ne_nil h, List.head?_cons]

/-- It leaves the others. With nothing ahead it leaves the sweep as it is. -/
theorem items_call (sweep : Sweep) : sweep.call.2.items = sweep.items.tail := by
  by_cases h : sweep.ahead = []
  · rw [call_of_ahead_eq_nil h, items_of_ahead_eq_nil h, List.tail_nil]
  · rw [call_of_ahead_ne_nil h, items_of_ahead_ne_nil h, List.tail_cons]

/-- Calls answer with the items in order, and with nothing ever after. -/
theorem answer_eq_getElem? (sweep : Sweep) (calls : Nat) :
    sweep.answer calls = sweep.items[calls]? := by
  induction calls generalizing sweep with
  | zero => rw [answer, fst_call, List.head?_eq_getElem?]
  | succ calls ih => rw [answer, ih, items_call, List.getElem?_tail]

/-! ## Places in an image -/

/-- What is ahead is what the image holds from the position on. -/
def LiesIn (image : Image) (sweep : Sweep) : Prop := sweep.ahead = image.suffix sweep.position

theorem liesIn_start (image : Image) (address : Address) : LiesIn image (start image address) := rfl

theorem LiesIn.advance (h : LiesIn image sweep) : LiesIn image sweep.advance := by
  change sweep.ahead.drop sweep.item.length = image.drop (sweep.position.offset + sweep.item.length)
  rw [h, Image.suffix, List.drop_drop]

/-- The item met is what the image holds at the position. -/
theorem LiesIn.item_eq (h : LiesIn image sweep) :
    sweep.item = ⟨sweep.position, image.decode sweep.position⟩ := by
  rw [item, Image.decode, ← h]

theorem LiesIn.ahead_ne_nil_iff (h : LiesIn image sweep) :
    sweep.ahead ≠ [] ↔ sweep.position.offset < image.length := by
  rw [h, Image.suffix, Ne, List.drop_eq_nil_iff, Nat.not_le]

/-- The place is aligned, and lies inside the image or behind its last word, counting an odd last
byte as a word. -/
structure OnGrid (image : Image) (sweep : Sweep) : Prop where
  liesIn : LiesIn image sweep
  isAligned : sweep.position.isAligned
  le : sweep.position.offset ≤ image.length + image.length % Word.size

/-- On the grid an item ends inside the image, unless all that is left is one byte. -/
theorem OnGrid.item_next_le (h : OnGrid image sweep) (hahead : sweep.ahead ≠ []) :
    sweep.item.next.offset ≤ image.length
      ∨ (sweep.position.offset + 1 = image.length
        ∧ sweep.item = ⟨sweep.position, .error (.noOpcode sweep.position)⟩) := by
  have hlt := h.liesIn.ahead_ne_nil_iff.1 hahead
  cases hresult : image.decode sweep.position with
  | ok instruction =>
    left
    rw [h.liesIn.item_eq, hresult]
    exact Image.le_length_of_decode_eq_ok hresult
  | error error =>
    by_cases hword : sweep.position.offset + Word.size ≤ image.length
    · left
      rw [h.liesIn.item_eq, hresult]
      exact hword
    · have hnone : image.decode sweep.position = .error (.noOpcode sweep.position) :=
        Image.decode_eq_noOpcode_iff.2 ⟨rfl, h.isAligned, Nat.lt_of_not_le hword⟩
      refine Or.inr ⟨?_, by rw [h.liesIn.item_eq, hnone]⟩
      simp only [Word.size] at hword
      omega

/-- **A step stays on the grid.** -/
theorem OnGrid.advance (h : OnGrid image sweep) (hahead : sweep.ahead ≠ []) :
    OnGrid image sweep.advance := by
  refine ⟨h.liesIn.advance, sweep.item.isAligned_next.trans h.isAligned, ?_⟩
  change sweep.item.next.offset ≤ _
  rcases h.item_next_le hahead with hle | ⟨hlast, hitem⟩
  · omega
  · have haligned := h.isAligned
    have hnext : sweep.item.next.offset = sweep.position.offset + Word.size := by rw [hitem]; rfl
    simp only [Address.isAligned, Word.size, beq_iff_eq] at haligned hnext ⊢
    omega

end Sweep

/-! ## Sweeps of an image -/

namespace Image

variable {image : Image} {start : Address}

/-- What a sweep meets is what the image holds there, inside the image. -/
theorem of_mem_sweep {item : Item} (h : item ∈ image.sweep start) :
    item.result = image.decode item.address ∧ item.address.offset < image.length
      ∧ item.address.isAligned = start.isAligned := by
  obtain ⟨hitems, -⟩ := Sweep.items_keep
    (P := fun place => place.LiesIn image ∧ place.position.isAligned = start.isAligned)
    (fun place hplace _ => ⟨hplace.1.advance, place.item.isAligned_next.trans hplace.2⟩)
    ⟨Sweep.liesIn_start image start, rfl⟩
  obtain ⟨place, ⟨hlies, haligned⟩, hahead, rfl⟩ := hitems item h
  refine ⟨?_, hlies.ahead_ne_nil_iff.1 hahead, haligned⟩
  rw [hlies.item_eq]

/-- No item is misaligned if the start is aligned. -/
theorem not_misaligned_of_mem_sweep (haligned : start.isAligned) {item : Item}
    (h : item ∈ image.sweep start) (place : Address) :
    item.result ≠ .error (.misaligned place) := by
  obtain ⟨hdecode, -, hparity⟩ := of_mem_sweep h
  intro hresult
  rw [hdecode] at hresult
  exact (decode_eq_misaligned_iff.1 hresult).2 (hparity.trans haligned)

theorem sweep_eq_nil_iff : image.sweep start = [] ↔ image.length ≤ start.offset := by
  have hahead : (Sweep.start image start).ahead ≠ [] ↔ start.offset < image.length :=
    (Sweep.liesIn_start image start).ahead_ne_nil_iff
  rw [sweep]
  by_cases h : (Sweep.start image start).ahead = []
  · have hle := Nat.le_of_not_lt (mt hahead.2 (not_not_intro h))
    simp only [Sweep.items_of_ahead_eq_nil h, hle]
  · have hlt := Nat.not_le.2 (hahead.1 h)
    simp only [Sweep.items_of_ahead_ne_nil h, hlt, reduceCtorEq]

theorem onGrid_start (haligned : start.isAligned) (hstart : start.offset < image.length) :
    Sweep.OnGrid image (Sweep.start image start) :=
  ⟨Sweep.liesIn_start image start, haligned,
    Nat.le_trans (Nat.le_of_lt hstart) (Nat.le_add_right _ _)⟩

/-- From an aligned address on, the items tile the image, an odd last byte counted as a word. -/
theorem tiles_sweep (haligned : start.isAligned) (hstart : start.offset < image.length) :
    Item.Tiles start (image.sweep start) ⟨image.length + image.length % Word.size⟩ := by
  obtain ⟨-, place, hplace, hahead, htiles⟩ := Sweep.items_keep
    (fun _ hplace hahead => Sweep.OnGrid.advance hplace hahead) (onGrid_start haligned hstart)
  have hposition : place.position = ⟨image.length + image.length % Word.size⟩ := by
    have hend : image.length ≤ place.position.offset :=
      Nat.le_of_not_lt fun hlt => hplace.liesIn.ahead_ne_nil_iff.2 hlt hahead
    have hle := hplace.le
    have hgrid := hplace.isAligned
    simp only [Address.isAligned, Word.size, beq_iff_eq] at hgrid hle
    have hoffset : place.position.offset = image.length + image.length % Word.size := by
      simp only [Word.size]
      omega
    exact congrArg Address.mk hoffset
  rwa [hposition] at htiles

/-- Only the odd last byte of an image is met as an item that reaches over the end. -/
theorem next_le_of_mem_sweep (haligned : start.isAligned) (hstart : start.offset < image.length)
    {item : Item} (h : item ∈ image.sweep start) :
    item.next.offset ≤ image.length
      ∨ item = ⟨⟨image.length - 1⟩, .error (.noOpcode ⟨image.length - 1⟩)⟩ := by
  obtain ⟨hitems, -⟩ := Sweep.items_keep
    (fun _ hplace hahead => Sweep.OnGrid.advance hplace hahead) (onGrid_start haligned hstart)
  obtain ⟨place, hplace, hahead, rfl⟩ := hitems item h
  refine (hplace.item_next_le hahead).imp_right fun hlast => ?_
  have hposition : place.position = ⟨image.length - 1⟩ :=
    congrArg Address.mk (Nat.eq_sub_of_add_eq hlast.1)
  rw [hlast.2, hposition]

/-- In an image of odd length the last byte is met last, and nothing before it lacks an opcode. -/
theorem sweep_eq_concat_noOpcode (haligned : start.isAligned) (hstart : start.offset < image.length)
    (hodd : image.length % Word.size = 1) :
    ∃ before : List Item,
      image.sweep start
          = before ++ [⟨⟨image.length - 1⟩, .error (.noOpcode ⟨image.length - 1⟩)⟩]
        ∧ Item.Tiles start before ⟨image.length - 1⟩
        ∧ ∀ item ∈ before, item.next.offset ≤ image.length
            ∧ ∀ place, item.result ≠ .error (.noOpcode place) := by
  have htiles := tiles_sweep haligned hstart
  rw [hodd] at htiles
  rcases List.eq_nil_or_concat (image.sweep start) with hnil | ⟨before, last, hconcat⟩
  · exact absurd (sweep_eq_nil_iff.1 hnil) (Nat.not_le.2 hstart)
  · rw [List.concat_eq_append] at hconcat
    rw [hconcat] at htiles
    obtain ⟨hbefore, hnext⟩ := htiles.of_concat
    have hlast : last = ⟨⟨image.length - 1⟩, .error (.noOpcode ⟨image.length - 1⟩)⟩ := by
      refine (next_le_of_mem_sweep haligned hstart (by simp [hconcat])).resolve_left fun hle => ?_
      rw [hnext] at hle
      exact absurd hle (Nat.not_succ_le_self _)
    subst hlast
    refine ⟨before, hconcat, hbefore, fun item hitem => ?_⟩
    have hend : item.next.offset ≤ image.length - 1 := (hbefore.le_and_le.2 item hitem).2
    refine ⟨Nat.le_trans hend (Nat.sub_le _ _), fun place hresult => ?_⟩
    -- an item without an opcode begins at the last byte, and no item in front of it ends there
    have hmem : item ∈ image.sweep start := by simp [hconcat, hitem]
    rw [(of_mem_sweep hmem).1] at hresult
    obtain ⟨-, -, hshort⟩ := decode_eq_noOpcode_iff.1 hresult
    have hlt := item.offset_lt_next
    simp only [Word.size] at hshort
    omega

/--
**A sweep tiles its image.**

Calls answer with finitely many items and then with nothing for ever. There are none if
the start is not inside the image. Otherwise the first item is at the start, each next one
begins where the one before it ends, and every byte from the start to the end of the image
belongs to exactly one of them. An item shows what decoding gives at its address; it takes
the bytes of the instruction, which lie inside the image, or a word if there is none.

From an aligned address no item is misaligned. The items then end where an image of even
length ends. In one of odd length the last item is the last byte, where there is no opcode;
it is the only one of its kind, and the others end inside the image. From an odd address
every item is misaligned.
-/
theorem sweep_tiles (image : Image) (start : Address) :
    (∀ calls : Nat, (Sweep.start image start).answer calls = (image.sweep start)[calls]?)
    ∧ (image.sweep start = [] ↔ image.length ≤ start.offset)
    ∧ (∃ stop : Address, Item.Tiles start (image.sweep start) stop)
    ∧ (∀ offset : Nat, start.offset ≤ offset → offset < image.length →
        ∃! k : Nat, ∃ item : Item, (image.sweep start)[k]? = some item ∧ item.Covers offset)
    ∧ (∀ item ∈ image.sweep start, item.result = image.decode item.address
        ∧ (∀ instruction, item.result = .ok instruction →
            item.next = item.address + instruction.length ∧ item.next.offset ≤ image.length)
        ∧ ∀ error, item.result = .error error → item.next = item.address + Word.size)
    ∧ (start.isAligned → start.offset < image.length →
        (∀ item ∈ image.sweep start, ∀ place, item.result ≠ .error (.misaligned place))
          ∧ (image.length % 2 = 0 → Item.Tiles start (image.sweep start) ⟨image.length⟩)
          ∧ (image.length % 2 = 1 →
              ∃ before : List Item,
                image.sweep start
                    = before ++ [⟨⟨image.length - 1⟩, .error (.noOpcode ⟨image.length - 1⟩)⟩]
                  ∧ Item.Tiles start before ⟨image.length - 1⟩
                  ∧ ∀ item ∈ before, item.next.offset ≤ image.length
                      ∧ ∀ place, item.result ≠ .error (.noOpcode place)))
    ∧ (¬ start.isAligned →
        ∀ item ∈ image.sweep start, item.result = .error (.misaligned item.address)) := by
  -- from any address, odd ones included, the run ends at a place with nothing ahead
  obtain ⟨-, place, hlies, hahead, htiles⟩ := Sweep.items_keep
    (fun _ hplace _ => Sweep.LiesIn.advance hplace) (Sweep.liesIn_start image start)
  have hend : image.length ≤ place.position.offset :=
    Nat.le_of_not_lt fun hlt => hlies.ahead_ne_nil_iff.2 hlt hahead
  refine ⟨Sweep.answer_eq_getElem? _, sweep_eq_nil_iff, ⟨_, htiles⟩, ?_, ?_, ?_, ?_⟩
  · intro offset hstart hoffset
    exact htiles.existsUnique_covers hstart (Nat.lt_of_lt_of_le hoffset hend)
  · intro item hitem
    have hresult := (of_mem_sweep hitem).1
    refine ⟨hresult, fun instruction hok => ?_, fun error herror => ?_⟩
    · have hnext : item.next = item.address + instruction.length := by
        rw [Item.next, Item.length, hok]
      rw [hresult] at hok
      exact ⟨hnext, hnext ▸ le_length_of_decode_eq_ok hok⟩
    · rw [Item.next, Item.length, herror]
  · intro haligned hstart
    refine ⟨fun item hitem => ?_, fun heven => ?_, fun hodd => ?_⟩
    · exact not_misaligned_of_mem_sweep haligned hitem
    · have htiles := tiles_sweep haligned hstart
      rwa [Word.size, heven] at htiles
    · exact sweep_eq_concat_noOpcode haligned hstart hodd
  · intro hodd item hitem
    obtain ⟨hdecode, -, hparity⟩ := of_mem_sweep hitem
    rw [hdecode]
    exact decode_eq_misaligned_iff.2 ⟨rfl, fun haligned => hodd (hparity.symm.trans haligned)⟩

/-- An image that ends in an odd byte, swept from its start and from inside its first word. -/
theorem sweep_tiles_odd :
    (∃ before : List Item,
      Image.sweep [21, 0, 119, 119, 7] ⟨0⟩ = before ++ [⟨⟨4⟩, .error (.noOpcode ⟨4⟩)⟩])
      ∧ ∀ item ∈ Image.sweep [21, 0, 119, 119, 7] ⟨1⟩,
          item.result = .error (.misaligned item.address) := by
  obtain ⟨-, -, -, -, -, haligned, -⟩ := sweep_tiles [21, 0, 119, 119, 7] ⟨0⟩
  obtain ⟨before, hsweep, -⟩ := (haligned rfl (by decide)).2.2 rfl
  obtain ⟨-, -, -, -, -, -, hodd⟩ := sweep_tiles [21, 0, 119, 119, 7] ⟨1⟩
  exact ⟨⟨before, hsweep⟩, hodd (by decide)⟩

end Image

end WordMachine
