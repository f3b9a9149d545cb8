import WordMachine.Proofs.LineLayout

/-!
# An operand in its place on a line

One operand of an accepted line is written differently, and the rest of the line stays as it
is. What the line is then assembled to is up to the one slot: its word takes the place of the
old one, or its refusal becomes that of the line. The slots in front have taken their operands,
so none of them is refused first.
-/

namespace WordMachine

theorem Operation.opcode_inj {first second : Operation} (h : first.opcode = second.opcode) :
    first = second := by
  have hfound := ofOpcode?_opcode first
  rw [h, ofOpcode?_opcode] at hfound
  exact (Option.some.inj hfound).symm

namespace Assembly

namespace Grammar

/-- The text is a line in which the piece stands where an operand can stand, with these operands in
front of it and behind it. -/
inductive Places (name : List Char) (before after : List Spelling) (piece : List Char) :
    List Char → Prop
  | line {lead text separator tail ending : List Char} :
      Gap lead → IsAlphanumericRun name →
      Operands before text (separator ++ (piece ++ tail)) → Separator separator →
      Operands after tail ending → Ending ending →
        Places name before after piece (lead ++ (name ++ text))

/-- Operands stand in front of operands. -/
theorem Operands.trans {first second : List Spelling} {text middle rest : List Char}
    (h : Operands first text middle) (hsecond : Operands second middle rest) :
    Operands (first ++ second) text rest := by
  induction h with
  | none => exact hsecond
  | more hseparator hoperand _ ih => exact .more hseparator hoperand (ih hsecond)

/-- If the piece is an operand whatever follows, the text is a line with that operand. -/
theorem Places.derives {name piece cs : List Char} {before after : List Spelling}
    {spelling : Spelling} (h : Places name before after piece cs)
    (hpiece : ∀ rest, Operand spelling piece rest) :
    Derives ⟨name, before ++ spelling :: after⟩ cs := by
  cases h with
  | line hlead hname hbefore hseparator hafter hending =>
    exact .line hlead hname (hbefore.trans (.more hseparator (hpiece _) hafter)) hending

end Grammar

variable {name piece cs : List Char} {before after : List Spelling} {other spelling : Spelling}
  {front back : List Word} {word : Word}

/-- The words of the other operands stay. -/
theorem operandWords_replace {index : Nat} {kind : SlotKind} {kinds : List SlotKind}
    (h : operandWords index kinds (before ++ other :: after) = .ok (front ++ word :: back))
    (hfront : front.length = before.length) (hkind : kinds[before.length]? = some kind) :
    operandWords index kinds (before ++ spelling :: after)
      = (spelling.word (index + before.length) kind).map (front ++ · :: back) := by
  -- along the operands in front, each of which keeps its slot and its word
  induction before generalizing index kinds front with
  | nil =>
    obtain rfl := List.length_eq_zero_iff.1 hfront
    obtain ⟨rest, rfl⟩ := List.head?_eq_some_iff.1 (List.head?_eq_getElem?.trans hkind)
    rw [List.nil_append, operandWords] at h
    obtain ⟨first, -, h⟩ := bind_eq_ok_iff.1 h
    obtain ⟨words, hwords, h⟩ := bind_eq_ok_iff.1 h
    obtain ⟨-, rfl⟩ := List.cons.inj (Except.ok.inj h)
    rw [List.nil_append, operandWords, hwords]
    cases spelling.word index kind <;> rfl
  | cons earlier before ih =>
    cases kinds with
    | nil => exact absurd hkind (by simp)
    | cons first kinds =>
      cases front with
      | nil => exact absurd hfront (by simp)
      | cons read front =>
        rw [List.cons_append, operandWords] at h
        obtain ⟨given, hgiven, h⟩ := bind_eq_ok_iff.1 h
        obtain ⟨words, hwords, h⟩ := bind_eq_ok_iff.1 h
        obtain ⟨rfl, rfl⟩ := List.cons.inj (Except.ok.inj h)
        have hindex : index + 1 + before.length = index + (before.length + 1) := by omega
        rw [List.cons_append, operandWords, hgiven,
          ih hwords (Nat.succ.inj hfront) hkind, hindex, List.length_cons]
        cases spelling.word (index + (before.length + 1)) kind <;> rfl

/-- **What is written in one slot of an accepted line decides what the line comes to.** -/
theorem assembleLine_of_places {operation : Operation} {kind : SlotKind}
    (hplaced : Grammar.Places name before after piece (Text.trim cs))
    (hpiece : ∀ rest, Grammar.Operand spelling piece rest)
    (hvalid : Line.words ⟨name, before ++ other :: after⟩
      = .ok (operation.opcode :: (front ++ word :: back)))
    (hfront : front.length = before.length)
    (hkind : operation.slots[before.length]? = some kind) :
    assembleLine cs = (spelling.word before.length kind).map fun read =>
      Image.ofWords (operation.opcode :: (front ++ read :: back)) := by
  obtain ⟨named, operands, hname, hlength, hoperands, hwords⟩ := Line.words_eq_ok_iff.1 hvalid
  obtain ⟨hopcode, rfl⟩ := List.cons.inj hwords
  obtain rfl := Operation.opcode_inj hopcode
  have hcount : (before ++ spelling :: after).length = operation.arity := by
    rw [← hlength]
    simp
  have hline : Line.words ⟨name, before ++ spelling :: after⟩ = _ := Line.words_of_named hname
  rw [assembleLine_of_derives (hplaced.derives hpiece), hline, if_pos hcount,
    operandWords_replace hoperands hfront hkind, Nat.zero_add]
  cases spelling.word before.length kind <;> rfl

end Assembly

end WordMachine
