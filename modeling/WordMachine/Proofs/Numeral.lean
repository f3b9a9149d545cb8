import WordMachine.Text.Numeral
import WordMachine.Text.Padding

/-!
# Written numerals read back

Writing a number and reading the digits gives the number, in either base and in either
letter case, as long as the number is below the limit of the reader. Zeros in front
change nothing. The digits themselves are letters and figures only, so no text made of
them is mistaken for anything else.
-/

namespace WordMachine.Numeral

/-! ## Single digits -/

theorem hexValue?_digitChar {digit : Nat} (h : digit < 16) :
    hexValue? digit.digitChar = some digit := by
  have htable : ∀ digit < 16, hexValue? (Nat.digitChar digit) = some digit := by decide
  exact htable digit h

theorem hexValue?_toUpper_digitChar {digit : Nat} (h : digit < 16) :
    hexValue? digit.digitChar.toUpper = some digit := by
  have htable : ∀ digit < 16, hexValue? (Nat.digitChar digit).toUpper = some digit := by decide
  exact htable digit h

theorem hexValue?_lt {digit : Nat} {c : Char} (h : hexValue? c = some digit) : digit < 16 := by
  have hval : c.toNat = c.val.toNat := rfl
  unfold hexValue? at h
  simp only [Char.le_def, UInt32.le_iff_toNat_le, Char.reduceVal, UInt32.reduceToNat] at h
  split at h
  · obtain rfl := Option.some.inj h
    omega
  · split at h
    · obtain rfl := Option.some.inj h
      omega
    · split at h
      · obtain rfl := Option.some.inj h
        omega
      · exact absurd h (by simp)

/-- Every digit there is belongs to base sixteen. -/
theorem digitValue?_sixteen (c : Char) : digitValue? 16 c = hexValue? c := by
  cases h : hexValue? c with
  | none => simp [digitValue?, h]
  | some digit => simp [digitValue?, h, hexValue?_lt h]

theorem digitValue?_of_hexValue? {base digit : Nat} {c : Char} (h : hexValue? c = some digit)
    (hdigit : digit < base) : digitValue? base c = some digit := by
  simp [digitValue?, h, hdigit]

/-- The digits of base ten are those that count as decimal digits. -/
theorem isSome_digitValue?_ten_iff {c : Char} : (digitValue? 10 c).isSome ↔ c.isDigit := by
  have hzero : '0'.toNat = 48 := rfl
  have hnine : '9'.toNat = 57 := rfl
  have hval : c.toNat = c.val.toNat := rfl
  rw [Char.isDigit_iff_toNat, hzero, hnine, digitValue?, Option.isSome_filter, hval]
  unfold hexValue?
  simp only [Char.le_def, UInt32.le_iff_toNat_le, Char.reduceVal, UInt32.reduceToNat]
  split
  · simp only [Option.any_some, decide_eq_true_eq]
    omega
  · split
    · simp only [Option.any_some, decide_eq_true_eq]
      omega
    · split
      · simp only [Option.any_some, decide_eq_true_eq]
        omega
      · simp only [Option.any_none, Bool.false_eq_true, false_iff]
        omega

/-- The ASCII letters and digits by their code points. -/
theorem isAlphanum_iff {c : Char} :
    c.isAlphanum ↔ ((65 ≤ c.toNat ∧ c.toNat ≤ 90) ∨ (97 ≤ c.toNat ∧ c.toNat ≤ 122))
      ∨ (48 ≤ c.toNat ∧ c.toNat ≤ 57) := by
  have hranges : c.isAlphanum = (decide (c.val ≥ 65 ∧ c.val ≤ 90)
      || (decide (c.val ≥ 97) && decide (c.val ≤ 122))
      || (decide (c.val ≥ 48) && decide (c.val ≤ 57))) := rfl
  rw [hranges]
  simp only [Bool.or_eq_true, Bool.and_eq_true, decide_eq_true_eq, ge_iff_le,
    UInt32.le_iff_toNat_le]
  exact Iff.rfl

/-- The digits of base sixteen are letters and figures. -/
theorem isAlphanum_of_hexValue? {c : Char} (h : (hexValue? c).isSome) : c.isAlphanum := by
  unfold hexValue? at h
  simp only [Char.le_def, UInt32.le_iff_toNat_le, Char.reduceVal, UInt32.reduceToNat] at h
  rw [isAlphanum_iff, Char.toNat]
  split at h
  · omega
  · split at h
    · omega
    · split at h
      · omega
      · exact absurd h (by simp)

/-- Every character of a written number is one of its base's digits. -/
theorem exists_digitChar_of_mem_toDigits {base : Nat} (hbase : 1 < base) {c : Char} (n : Nat)
    (h : c ∈ Nat.toDigits base n) : ∃ digit < base, c = digit.digitChar := by
  induction n using Nat.strongRecOn with
  | ind n ih =>
    by_cases hn : n < base
    · rw [Nat.toDigits_of_lt_base hn, List.mem_singleton] at h
      exact ⟨n, hn, h⟩
    · rw [Nat.toDigits_of_base_le hbase (Nat.le_of_not_lt hn)] at h
      rcases List.mem_append.1 h with h | h
      · exact ih (n / base) (Nat.div_lt_self (by omega) hbase) h
      · exact ⟨n % base, Nat.mod_lt _ (by omega), List.mem_singleton.1 h⟩

/-! ## Runs of digits -/

theorem readDigits_append (base limit value : Nat) (first second : List Char) :
    readDigits base limit value (first ++ second)
      = (readDigits base limit value first).bind (readDigits base limit · second) := by
  induction first generalizing value with
  | nil => rfl
  | cons c first ih =>
    rw [List.cons_append, readDigits, readDigits]
    cases digitValue? base c with
    | none => rfl
    | some digit =>
      simp only
      split
      · exact ih _
      · rfl

/-- Digits that are read for what they denote make up the number, whatever their letter case. -/
theorem readDigits_map_toDigits {base limit : Nat} {form : Char → Char} (hbase : 1 < base)
    (hform : ∀ digit < base, digitValue? base (form digit.digitChar) = some digit) (n : Nat)
    (hn : n < limit) :
    readDigits base limit 0 ((Nat.toDigits base n).map form) = .ok n := by
  -- on the number itself: its digits are those of the quotient and one more
  induction n using Nat.strongRecOn with
  | ind n ih =>
    by_cases hlt : n < base
    · rw [Nat.toDigits_of_lt_base hlt, List.map_singleton, readDigits, hform n hlt]
      simp [readDigits, hn]
    · have hle : base ≤ n := Nat.le_of_not_lt hlt
      have hdiv : n / base < n := Nat.div_lt_self (by omega) hbase
      have hmod : n % base < base := Nat.mod_lt _ (by omega)
      have hsum : base * (n / base) + n % base = n := Nat.div_add_mod n base
      rw [Nat.toDigits_of_base_le hbase hle, List.map_append, readDigits_append,
        ih (n / base) hdiv (Nat.lt_trans hdiv hn)]
      simp [Except.bind, readDigits, hform _ hmod, hsum, hn]

theorem readDigits_replicate_zero {base limit : Nat} (hbase : 0 < base) (hlimit : 0 < limit)
    (count : Nat) (digits : List Char) :
    readDigits base limit 0 (List.replicate count '0' ++ digits)
      = readDigits base limit 0 digits := by
  have hzero : digitValue? base '0' = some 0 := digitValue?_of_hexValue? (by decide) hbase
  induction count with
  | zero => rfl
  | succ count ih =>
    rw [List.replicate_succ, List.cons_append, readDigits, hzero]
    simpa [hlimit] using ih

/-- Without a sign in front a numeral is its digits. -/
theorem read_eq_readDigits {base limit : Nat} {digits : List Char} (hne : digits ≠ [])
    (hsign : digits.head? ≠ some '+') :
    read base limit digits = readDigits base limit 0 digits := by
  unfold read
  split
  · exact absurd rfl hne
  · exact absurd rfl hsign
  · exact absurd rfl hsign
  · rfl

/-! ## What digits denote -/

/-- The number denoted by digits that stand behind others which denote `value`. -/
def denotedFrom (base value : Nat) (digits : List Char) : Nat :=
  digits.foldl (fun value c => base * value + (hexValue? c).getD 0) value

/-- The number that digits denote, the first one counting most. -/
def denoted (base : Nat) (digits : List Char) : Nat := denotedFrom base 0 digits

theorem digitValue?_eq_some {base digit : Nat} {c : Char} (h : digitValue? base c = some digit) :
    hexValue? c = some digit :=
  (Option.filter_eq_some_iff.1 h).1

theorem le_denotedFrom {base : Nat} (hbase : 0 < base) (value : Nat) (digits : List Char) :
    value ≤ denotedFrom base value digits := by
  induction digits generalizing value with
  | nil => exact Nat.le_refl _
  | cons c digits ih =>
    calc value ≤ base * value := Nat.le_mul_of_pos_left value hbase
      _ ≤ base * value + (hexValue? c).getD 0 := Nat.le_add_right _ _
      _ ≤ denotedFrom base value (c :: digits) := ih _

/-- **What a reader makes of digits.** It reads exactly the digits of its base, and for what they
denote, if that is below the limit. -/
theorem readDigits_eq_ok_iff {base limit value n : Nat} {digits : List Char} (hbase : 0 < base)
    (hvalue : value < limit) :
    readDigits base limit value digits = .ok n
      ↔ (∀ c ∈ digits, (digitValue? base c).isSome) ∧ denotedFrom base value digits = n
        ∧ n < limit := by
  induction digits generalizing value with
  | nil =>
    rw [readDigits, Except.ok.injEq]
    exact ⟨fun h => ⟨by simp, h, h ▸ hvalue⟩, fun h => h.2.1⟩
  | cons c digits ih =>
    rw [readDigits, List.forall_mem_cons]
    cases hdigit : digitValue? base c with
    | none => simp
    | some digit =>
      have hstep : denotedFrom base value (c :: digits)
          = denotedFrom base (base * value + digit) digits := by
        rw [denotedFrom, List.foldl_cons, digitValue?_eq_some hdigit]
        rfl
      rw [hstep]
      simp only [Option.isSome_some, true_and]
      split
      · next hlimit => exact ih hlimit
      · next hlimit =>
        -- more digits make the number no smaller, so it never comes below the limit again
        refine ⟨fun h => absurd h (by simp), fun h => absurd ?_ hlimit⟩
        have hle := le_denotedFrom hbase (base * value + digit) digits
        omega

/-- A text without a sign in front is read if it is digits for a number below the limit. -/
theorem read_eq_ok_iff {base limit n : Nat} {digits : List Char} (hbase : 0 < base)
    (hlimit : 0 < limit) (hsign : digits.head? ≠ some '+') :
    read base limit digits = .ok n
      ↔ digits ≠ [] ∧ (∀ c ∈ digits, (digitValue? base c).isSome) ∧ denoted base digits = n
        ∧ n < limit := by
  by_cases hne : digits = []
  · subst hne
    exact ⟨fun h => absurd h (by simp [read]), fun h => absurd rfl h.1⟩
  · rw [read_eq_readDigits hne hsign, readDigits_eq_ok_iff hbase hlimit]
    exact ⟨fun h => ⟨hne, h⟩, fun h => h.2⟩

/-! ## Written numbers -/

section

variable {limit n : Nat}

theorem readDigits_upperHex (h : n < limit) :
    readDigits 16 limit 0 (upperHex n).toList = .ok n := by
  rw [upperHex, String.toList_ofList]
  exact readDigits_map_toDigits (by decide)
    (fun digit hdigit => digitValue?_of_hexValue? (hexValue?_toUpper_digitChar hdigit) hdigit) n h

theorem readDigits_lowerHex (h : n < limit) :
    readDigits 16 limit 0 (lowerHex n).toList = .ok n := by
  rw [lowerHex, String.toList_ofList, ← List.map_id (Nat.toDigits 16 n)]
  exact readDigits_map_toDigits (by decide)
    (fun digit hdigit => digitValue?_of_hexValue? (hexValue?_digitChar hdigit) hdigit) n h

theorem readDigits_decimal (h : n < limit) :
    readDigits 10 limit 0 (decimal n).toList = .ok n := by
  rw [decimal, String.toList_ofList, ← List.map_id (Nat.toDigits 10 n)]
  exact readDigits_map_toDigits (by decide)
    (fun digit hdigit =>
      digitValue?_of_hexValue? (hexValue?_digitChar (Nat.lt_trans hdigit (by decide))) hdigit) n h

end

theorem upperHex_ne_nil (n : Nat) : (upperHex n).toList ≠ [] := by
  simp [upperHex, Nat.toDigits_ne_nil]

theorem lowerHex_ne_nil (n : Nat) : (lowerHex n).toList ≠ [] := by
  simp [lowerHex, Nat.toDigits_ne_nil]

theorem decimal_ne_nil (n : Nat) : (decimal n).toList ≠ [] := by
  simp [decimal, Nat.toDigits_ne_nil]

theorem isAlphanum_of_mem_upperHex {n : Nat} {c : Char} (h : c ∈ (upperHex n).toList) :
    c.isAlphanum := by
  have htable : ∀ digit < 16, (Nat.digitChar digit).toUpper.isAlphanum := by decide
  rw [upperHex, String.toList_ofList, List.mem_map] at h
  obtain ⟨d, hd, rfl⟩ := h
  obtain ⟨digit, hdigit, rfl⟩ := exists_digitChar_of_mem_toDigits (by decide) n hd
  exact htable digit hdigit

theorem isDigit_of_mem_decimal {n : Nat} {c : Char} (h : c ∈ (decimal n).toList) : c.isDigit := by
  rw [decimal, String.toList_ofList] at h
  exact Nat.isDigit_of_mem_toDigits (by decide) (by decide) h

theorem exists_hexValue?_of_mem_lowerHex {n : Nat} {c : Char} (h : c ∈ (lowerHex n).toList) :
    (hexValue? c).isSome := by
  rw [lowerHex, String.toList_ofList] at h
  obtain ⟨digit, hdigit, rfl⟩ := exists_digitChar_of_mem_toDigits (by decide) n h
  rw [hexValue?_digitChar hdigit]
  rfl

theorem isAlphanum_of_mem_lowerHex {n : Nat} {c : Char} (h : c ∈ (lowerHex n).toList) :
    c.isAlphanum :=
  isAlphanum_of_hexValue? (exists_hexValue?_of_mem_lowerHex h)

/-- A text of letters and digits has no sign in front. -/
theorem head?_ne_plus {cs : List Char} (h : ∀ c ∈ cs, c.isAlphanum) : cs.head? ≠ some '+' :=
  fun hhead => absurd (h _ (List.mem_of_head? hhead)) (by decide)

theorem head?_zeros_upperHex_ne_plus (zeros n : Nat) :
    (List.replicate zeros '0' ++ (upperHex n).toList).head? ≠ some '+' := by
  refine head?_ne_plus fun c hc => ?_
  rcases List.mem_append.1 hc with h | h
  · rw [List.eq_of_mem_replicate h]
    decide
  · exact isAlphanum_of_mem_upperHex h

/-- A number in capital hexadecimal is read back, whatever zeros stand in front of it. -/
theorem read_zeros_upperHex {limit n : Nat} (zeros : Nat) (h : n < limit) :
    read 16 limit (List.replicate zeros '0' ++ (upperHex n).toList) = .ok n := by
  have hne : List.replicate zeros '0' ++ (upperHex n).toList ≠ [] :=
    List.append_ne_nil_of_right_ne_nil _ (upperHex_ne_nil n)
  rw [read_eq_readDigits hne (head?_zeros_upperHex_ne_plus zeros n),
    readDigits_replicate_zero (by decide) (Nat.zero_lt_of_lt h), readDigits_upperHex h]

/-- Zeros in front apart, capital hexadecimal writes no two numbers alike. -/
theorem eq_of_zeros_upperHex (zeros other : Nat) {m n : Nat}
    (h : List.replicate zeros '0' ++ (upperHex m).toList
      = List.replicate other '0' ++ (upperHex n).toList) : m = n := by
  have hm : m < m + n + 1 := by omega
  have hn : n < m + n + 1 := by omega
  have hread := read_zeros_upperHex zeros hm
  rw [h, read_zeros_upperHex other hn] at hread
  exact (Except.ok.inj hread).symm

theorem decimal_inj {m n : Nat} (h : decimal m = decimal n) : m = n := by
  have hm : m < m + n + 1 := by omega
  have hn : n < m + n + 1 := by omega
  have hread := readDigits_decimal hm
  rw [h, readDigits_decimal hn] at hread
  exact (Except.ok.inj hread).symm

theorem denoted_lowerHex (n : Nat) : denoted 16 (lowerHex n).toList = n :=
  ((readDigits_eq_ok_iff (by decide) (Nat.succ_pos n)).1
    (readDigits_lowerHex (Nat.lt_succ_self n))).2.1

end WordMachine.Numeral
