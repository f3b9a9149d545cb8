import WordMachine.Proofs.OperandWord
import WordMachine.Proofs.Reports

/-!
# What the options of a report denote

The texts that the options for the start and the count may have, and what they denote,
described without the readers of these texts. A start is a number in hexadecimal behind
`0x` and in decimal otherwise, and a count is a number in decimal. Both are below the limit
of the options, and a start is aligned besides. What is not given is zero for the start, and
no bound for the count.

A report on an image is made for texts that denote a range. Others are refused.
-/

namespace WordMachine

namespace Numeral

variable {base limit n : Nat} {text : List Char}

/-- The text is a number in the base: its digits, behind a plus sign or on their own. -/
def IsNumber (base : Nat) (text : List Char) (n : Nat) : Prop :=
  ∃ digits : List Char, (text = digits ∨ text = '+' :: digits) ∧ digits ≠ []
    ∧ (∀ c ∈ digits, (digitValue? base c).isSome) ∧ denoted base digits = n

theorem digitValue?_plus (base : Nat) : digitValue? base '+' = none := by
  have hhex : hexValue? '+' = none := by decide
  rw [digitValue?, hhex]
  rfl

/-- But for a plus sign a number has digits only. -/
theorem IsNumber.isSome_of_mem (h : IsNumber base text n) {c : Char} (hc : c ∈ text)
    (hplus : c ≠ '+') : (digitValue? base c).isSome := by
  obtain ⟨digits, rfl | rfl, -, hdigits, -⟩ := h
  · exact hdigits c hc
  · exact hdigits c ((List.mem_cons.1 hc).resolve_left hplus)

/-- The sign is no digit, so the digits are those behind it. -/
theorem isNumber_plus_iff {digits : List Char} :
    IsNumber base ('+' :: digits) n
      ↔ digits ≠ [] ∧ (∀ c ∈ digits, (digitValue? base c).isSome) ∧ denoted base digits = n := by
  constructor
  · rintro ⟨found, rfl | hfound, hne, hdigits, hdenoted⟩
    · exact absurd (hdigits '+' List.mem_cons_self) (by rw [digitValue?_plus]; simp)
    · obtain rfl : digits = found := List.tail_eq_of_cons_eq hfound
      exact ⟨hne, hdigits, hdenoted⟩
  · exact fun h => ⟨digits, Or.inr rfl, h⟩

theorem isNumber_iff_of_ne_plus (hsign : text.head? ≠ some '+') :
    IsNumber base text n
      ↔ text ≠ [] ∧ (∀ c ∈ text, (digitValue? base c).isSome) ∧ denoted base text = n := by
  constructor
  · rintro ⟨digits, rfl | rfl, h⟩
    · exact h
    · exact absurd rfl hsign
  · exact fun h => ⟨text, Or.inl rfl, h⟩

/-- A text that is read is a number below the limit. -/
theorem read_eq_ok_iff_isNumber (hbase : 0 < base) (hlimit : 0 < limit) :
    read base limit text = .ok n ↔ IsNumber base text n ∧ n < limit := by
  by_cases hsign : text.head? = some '+'
  · obtain ⟨digits, rfl⟩ := List.head?_eq_some_iff.1 hsign
    rw [isNumber_plus_iff]
    cases digits with
    | nil => simp [read]
    | cons c digits =>
      rw [read, readDigits_eq_ok_iff hbase hlimit]
      · simp only [denoted, ne_eq, reduceCtorEq, not_false_eq_true, true_and, and_assoc]
      · simp
  · rw [read_eq_ok_iff hbase hlimit hsign, isNumber_iff_of_ne_plus hsign]
    simp only [and_assoc]

end Numeral

namespace CommandLine

open Assembly (bind_eq_ok_iff)
open Numeral (IsNumber)

/-! ## Texts of the options -/

/-- The text denotes the offset, in hexadecimal behind `0x` and in decimal otherwise. -/
inductive DenotesOffset : List Char → Nat → Prop
  | hexadecimal {digits : List Char} {n : Nat} : IsNumber 16 digits n →
      DenotesOffset ('0' :: 'x' :: digits) n
  | decimal {text : List Char} {n : Nat} : IsNumber 10 text n → DenotesOffset text n

/-- The start that is asked for. -/
def StartsAt : Option String → Address → Prop
  | none, start => start = ⟨0⟩
  | some text, start =>
    DenotesOffset text.toList start.offset ∧ start.offset < sizeLimit ∧ start.isAligned

/-- The bound on the items that is asked for. -/
def StopsAfter : Option String → Option Nat → Prop
  | none, bound => bound = none
  | some text, bound =>
    ∃ count, bound = some count ∧ IsNumber 10 text.toList count ∧ count < sizeLimit

/-- The options with these texts ask for the range. -/
structure Range.AskedFor (start count : Option String) (range : Range) : Prop where
  startsAt : StartsAt start range.start
  stopsAfter : StopsAfter count range.count

/-! ## Readers of the options -/

theorem zero_lt_sizeLimit : 0 < sizeLimit := by decide

theorem readOffset_eq_ok_iff {text : String} {n : Nat} :
    readOffset text = .ok n ↔ DenotesOffset text.toList n ∧ n < sizeLimit := by
  unfold readOffset
  split
  · next digits htext =>
    rw [Numeral.read_eq_ok_iff_isNumber (by decide) zero_lt_sizeLimit, htext]
    refine and_congr_left fun _ => ⟨.hexadecimal, ?_⟩
    intro h
    cases h with
    | hexadecimal h => exact h
    | decimal h => exact absurd (h.isSome_of_mem (c := 'x') (by simp) (by decide)) (by decide)
  · next hdecimal =>
    rw [Numeral.read_eq_ok_iff_isNumber (by decide) zero_lt_sizeLimit]
    refine and_congr_left fun _ => ⟨.decimal, ?_⟩
    generalize text.toList = cs at hdecimal ⊢
    intro h
    cases h with
    | hexadecimal h => exact absurd rfl (hdecimal _)
    | decimal h => exact h

theorem readStart_eq_ok_iff {text : String} {start : Address} :
    readStart text = .ok start
      ↔ DenotesOffset text.toList start.offset ∧ start.offset < sizeLimit ∧ start.isAligned := by
  rw [← and_assoc, ← readOffset_eq_ok_iff, readStart]
  cases readOffset text with
  | error error => simp
  | ok offset =>
    dsimp only
    rw [Except.ok.injEq]
    split
    · next haligned =>
      rw [Except.ok.injEq]
      constructor
      · rintro rfl
        exact ⟨rfl, haligned⟩
      · rintro ⟨rfl, -⟩
        rfl
    · next hodd =>
      refine ⟨fun h => absurd h (by simp), ?_⟩
      rintro ⟨rfl, haligned⟩
      exact absurd haligned hodd

/-- What an option is read as is put into a wrapping, and so is the reason if it cannot be read. -/
theorem map_mapError_eq_ok_iff {ε δ α β : Type} {x : Except ε α} {wrap : ε → δ} {f : α → β}
    {b : β} : (x.mapError wrap).map f = .ok b ↔ ∃ a, x = .ok a ∧ f a = b := by
  cases x with
  | error error =>
    change (.error (wrap error) : Except δ β) = .ok b ↔ _
    simp
  | ok a =>
    change (.ok (f a) : Except δ β) = .ok b ↔ _
    simp

theorem readFirst_eq_ok_iff {start : Option String} {address : Address} :
    (∃ first, readFirst start = .ok first ∧ first.getD ⟨0⟩ = address)
      ↔ StartsAt start address := by
  cases start with
  | none =>
    constructor
    · rintro ⟨first, hfirst, rfl⟩
      obtain rfl := Except.ok.inj hfirst
      rfl
    · rintro rfl
      exact ⟨none, rfl, rfl⟩
  | some text =>
    simp only [StartsAt, ← readStart_eq_ok_iff, readFirst, map_mapError_eq_ok_iff]
    constructor
    · rintro ⟨first, ⟨found, hfound, rfl⟩, rfl⟩
      exact hfound
    · exact fun hread => ⟨some address, ⟨address, hread, rfl⟩, rfl⟩

theorem readBound_eq_ok_iff {count : Option String} {bound : Option Nat} :
    readBound count = .ok bound ↔ StopsAfter count bound := by
  cases count with
  | none =>
    rw [readBound, StopsAfter, Except.ok.injEq]
    exact eq_comm
  | some text =>
    have hread : ∀ n, readCount text = .ok n ↔ IsNumber 10 text.toList n ∧ n < sizeLimit :=
      fun n => Numeral.read_eq_ok_iff_isNumber (by decide) zero_lt_sizeLimit
    rw [StopsAfter, readBound, map_mapError_eq_ok_iff]
    constructor
    · rintro ⟨found, hfound, rfl⟩
      exact ⟨found, rfl, (hread found).1 hfound⟩
    · rintro ⟨found, rfl, hfound⟩
      exact ⟨found, (hread found).2 hfound, rfl⟩

/-- **Texts are read as the range that they ask for**, and no others are read. -/
theorem readRange_eq_ok_iff {start count : Option String} {range : Range} :
    readRange start count = .ok range ↔ range.AskedFor start count := by
  constructor
  · intro h
    obtain ⟨first, hfirst, hrest⟩ := bind_eq_ok_iff.1 h
    obtain ⟨bound, hbound, hrange⟩ := bind_eq_ok_iff.1 hrest
    obtain rfl := Except.ok.inj hrange
    exact ⟨readFirst_eq_ok_iff.1 ⟨first, hfirst, rfl⟩, readBound_eq_ok_iff.1 hbound⟩
  · rintro ⟨hstart, hcount⟩
    obtain ⟨first, hfirst, haddress⟩ := readFirst_eq_ok_iff.2 hstart
    refine bind_eq_ok_iff.2 ⟨first, hfirst, bind_eq_ok_iff.2 ⟨range.count, ?_, ?_⟩⟩
    · exact readBound_eq_ok_iff.2 hcount
    · rw [haddress]
      rfl

namespace Range.AskedFor

variable {start count : Option String} {range : Range}

/-- **A report starts at an aligned address**, whatever the options are. -/
theorem isAligned (h : range.AskedFor start count) : range.start.isAligned := by
  have hstart := h.startsAt
  cases start with
  | none =>
    have hzero : range.start = ⟨0⟩ := hstart
    rw [hzero]
    rfl
  | some text => exact hstart.2.2

end Range.AskedFor

/-! ## Texts that are refused -/

/-- Arguments that are refused leave the directory alone, and nothing is printed. -/
theorem run_of_refused {arguments : List String} {error : UsageError}
    (h : Invocation.ofArguments arguments = .error error) (directory : Directory) :
    ∃ report : String, directory.runArguments arguments = (⟨2, "", report⟩, directory) := by
  have hrun : directory.runArguments arguments = (.ofUsageError error, directory) := by
    rw [Directory.runArguments, run, h]
    rfl
  rw [hrun]
  cases error <;> exact ⟨_, rfl⟩

/-- Where the texts ask for no range there is no report. -/
theorem runArguments_refused {directory : Directory} {name input : String}
    {start count : Option String} {make : Range → Command}
    (hname : Invocation.ofArguments (reportArguments name input start count)
      = (readRange start count).map fun range => ⟨make range, false⟩)
    (h : ∀ range : Range, ¬ range.AskedFor start count) :
    ∃ report : String,
      directory.runArguments (reportArguments name input start count)
        = (⟨2, "", report⟩, directory) := by
  cases hrange : readRange start count with
  | ok range => exact absurd (readRange_eq_ok_iff.1 hrange) (h range)
  | error error =>
    rw [hrange] at hname
    exact run_of_refused hname directory

end CommandLine

end WordMachine
