import WordMachine.Proofs.DecodingInPlace

/-!
# Words and their bytes

Packing words and reading them undo each other. A string of packed words has the low byte of
each word at an even offset and the high byte behind it. So a read at an even address gives
the word that was packed there, and a read at an odd address, which no word starts at, takes
the high byte of one word and the low byte of the next. Conversely the words at the even
addresses of a string of whole words are packed to that string.

Whether there is a word at an address is a matter of the length alone. The end of a word
whose address is close to the greatest one of 64 bits is found missing, not wrapped around.
-/

namespace WordMachine

namespace Word

/-- The byte that is stored first. -/
def low (word : Word) : UInt8 := UInt8.ofNat (word.toNat % 256)

/-- The byte that is stored behind it. -/
def high (word : Word) : UInt8 := UInt8.ofNat (word.toNat / 256)

theorem bytes_eq_low_high (word : Word) : word.bytes = [word.low, word.high] := rfl

end Word

namespace Image

/-! ## The bytes of packed words -/

/-- The low bytes lie at the even offsets. -/
theorem getElem?_ofWords_even (words : List Word) (index : Nat) :
    (ofWords words)[2 * index]? = words[index]?.map Word.low := by
  induction words generalizing index with
  | nil => simp
  | cons word words ih =>
    rw [ofWords_cons, Word.bytes_eq_low_high]
    cases index with
    | zero => rfl
    | succ index => exact ih index

/-- The high bytes lie at the odd offsets. -/
theorem getElem?_ofWords_odd (words : List Word) (index : Nat) :
    (ofWords words)[2 * index + 1]? = words[index]?.map Word.high := by
  induction words generalizing index with
  | nil => simp
  | cons word words ih =>
    rw [ofWords_cons, Word.bytes_eq_low_high]
    cases index with
    | zero => rfl
    | succ index => exact ih index

theorem wordAt?_ofWords_even (words : List Word) (index : Nat) :
    (ofWords words).wordAt? ⟨2 * index⟩ = words[index]? := by
  have hread := getElem?_words (ofWords words) index
  rw [words_ofWords] at hread
  exact hread.symm

/-- A read between two words takes a byte of each. -/
theorem wordAt?_ofWords_odd (words : List Word) (index : Nat) :
    (ofWords words).wordAt? ⟨2 * index + 1⟩ = do
      return Word.ofBytes (← words[index]?).high (← words[index + 1]?).low := by
  have hnext : 2 * index + 1 + 1 = 2 * (index + 1) := by omega
  rw [wordAt?_eq_getElem?, getElem?_ofWords_odd, hnext, getElem?_ofWords_even]
  cases words[index]? <;> cases words[index + 1]? <;> rfl

/-! ## The words of a string of bytes -/

/-- A list is read off at its indices one after the other. -/
theorem mapM_getElem?_range {α : Type} (xs : List α) :
    (List.range xs.length).mapM (xs[·]?) = some xs := by
  induction xs with
  | nil => rfl
  | cons x xs ih =>
    have hlater : (List.range xs.length).mapM (((x :: xs)[·]?) ∘ Nat.succ) = some xs := ih
    rw [List.length_cons, List.range_succ_eq_map, List.mapM_cons, List.mapM_map, hlater]
    rfl

/-- The words of the bytes are read off at the even addresses. -/
theorem mapM_wordAt? (bytes : Image) :
    (List.range (bytes.length / 2)).mapM (fun index => bytes.wordAt? ⟨2 * index⟩)
      = some bytes.words := by
  have hread : (fun index => bytes.wordAt? ⟨2 * index⟩) = (bytes.words[·]?) :=
    funext fun index => (getElem?_words bytes index).symm
  have hcount : bytes.length / 2 = bytes.words.length := (length_words bytes).symm
  rw [hread, hcount]
  exact mapM_getElem?_range bytes.words

theorem ofWords_words {bytes : Image} (heven : bytes.length % 2 = 0) :
    ofWords bytes.words = bytes := by
  have hwhole : Word.size * bytes.words.length = bytes.length := by
    rw [length_words]
    simp only [Word.size]
    omega
  have hpacked := ofWords_take_words bytes bytes.words.length (Nat.le_of_eq hwhole)
  rwa [List.take_length, hwhole, List.take_length] at hpacked

/-! ## Where there is a word -/

theorem isSome_wordAt?_iff {bytes : Image} {address : Address} :
    (bytes.wordAt? address).isSome ↔ address.offset + 2 ≤ bytes.length := by
  rw [← Option.ne_none_iff_isSome, Ne, wordAt?_eq_none_iff, Nat.not_lt]
  rfl

/--
**Packing words and reading them undo each other.**

Of packed words, a read at an even address gives the word with half the address as its
number, and a read at an odd address the high byte of that word in front of the low byte of
the next one; where these words are not all there, nothing is read. The words at the even
addresses of a string of bytes of even length are all there, and packed again they give the
string. There is a word at an address exactly where its two bytes are there. The same holds
with addresses of 64 bits, the greatest of which have no end of a word behind them.
-/
theorem wordAt?_ofWords_inverse :
    (∀ (words : List Word) (index : Nat),
      (ofWords words).wordAt? ⟨2 * index⟩ = words[index]?
        ∧ (ofWords words).wordAt? ⟨2 * index + 1⟩ = do
            return Word.ofBytes (← words[index]?).high (← words[index + 1]?).low)
    ∧ (∀ bytes : Image, bytes.length % 2 = 0 →
        ((List.range (bytes.length / 2)).mapM fun index => bytes.wordAt? ⟨2 * index⟩).map ofWords
          = some bytes)
    ∧ (∀ (bytes : Image) (address : Address),
        (bytes.wordAt? address).isSome ↔ address.offset + 2 ≤ bytes.length)
    ∧ ∀ bytes : Image, bytes.length < UInt64.size → ∀ place : UInt64,
        bytes.fixedWordAt? place = bytes.wordAt? ⟨place.toNat⟩
          ∧ ((bytes.fixedWordAt? place).isSome ↔ place.toNat + 2 ≤ bytes.length) := by
  refine ⟨fun words index => ⟨wordAt?_ofWords_even words index, wordAt?_ofWords_odd words index⟩,
    fun bytes heven => ?_, fun bytes address => isSome_wordAt?_iff, fun bytes hlength place => ?_⟩
  · rw [mapM_wordAt?, Option.map_some, ofWords_words heven]
  · have hread := fixedWordAt?_eq hlength place
    refine ⟨hread, ?_⟩
    rw [hread]
    exact isSome_wordAt?_iff

/-- The last word of the bytes, read as it is and from the middle of the word before it, and a place
that the end of a word would leave. -/
theorem wordAt?_ofWords_inverse_last :
    wordAt? (ofWords [0x1234, 0xFF56]) ⟨2⟩ = some 0xFF56
      ∧ wordAt? (ofWords [0x1234, 0xFF56]) ⟨1⟩ = some 0x5612
      ∧ wordAt? (ofWords [0x1234, 0xFF56]) ⟨3⟩ = none
      ∧ ((List.range 2).mapM fun index => wordAt? [0x34, 0x12, 0x56, 0xFF] ⟨2 * index⟩).map ofWords
        = some [0x34, 0x12, 0x56, 0xFF]
      ∧ (fixedWordAt? [0x34, 0x12, 0x56, 0xFF] 2).isSome
      ∧ ¬ (fixedWordAt? [0x34, 0x12, 0x56, 0xFF] 0xFFFFFFFFFFFFFFFE).isSome := by
  obtain ⟨hpacked, hread, -, hfixed⟩ := wordAt?_ofWords_inverse
  have hplace := hfixed [0x34, 0x12, 0x56, 0xFF] (by decide)
  refine ⟨(hpacked _ 1).1, (hpacked _ 0).2, (hpacked _ 1).2, hread [0x34, 0x12, 0x56, 0xFF] rfl,
    (hplace 2).2.2 (by decide), fun hsome => ?_⟩
  exact absurd ((hplace _).2.1 hsome) (by decide)

end Image

end WordMachine
