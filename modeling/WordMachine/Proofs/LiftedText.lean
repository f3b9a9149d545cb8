import WordMachine.Proofs.ControlFlow
import WordMachine.Proofs.Spelling

/-!
# Lifted text is unambiguous

A value is read off its text from the left. The first character, its mark, tells the form of
the value. A number, a register, `pop` and `in` are runs of letters and digits, and nothing
that may stand behind a value prolongs such a run, so it is clear where each ends. The other
forms enclose values or stand in front of one. So the text of a value ends itself: what
stands behind a value is no part of it, and two texts that open with values and agree as a
whole open with the same one.

Statements follow, form by form. One thing is not told by their text. A target that is
computed from nothing but a number is shown as a number, like a known address. Lifting makes
no such target.
-/

namespace WordMachine

/-! ## Texts that end themselves -/

/-- Where two runs of one kind end in texts that agree, if nothing prolongs them. -/
theorem Text.run_append_inj {p : Char → Bool} {run other rest left : List Char}
    (hrun : ∀ c ∈ run, p c) (hother : ∀ c ∈ other, p c) (hrest : ∀ c ∈ rest.head?, ¬ p c)
    (hleft : ∀ c ∈ left.head?, ¬ p c) (h : run ++ rest = other ++ left) :
    run = other ∧ rest = left := by
  have htake := congrArg (List.takeWhile p) h
  have hdrop := congrArg (List.dropWhile p) h
  rw [takeWhile_run hrun hrest, takeWhile_run hother hleft] at htake
  rw [dropWhile_run hrun hrest, dropWhile_run hother hleft] at hdrop
  exact ⟨htake, hdrop⟩

/-- The text does not prolong a run of letters and digits. -/
def Delimits (text : List Char) : Prop := ∀ c ∈ text.head?, ¬ c.isAlphanum

/-- Where both texts open one and the same text, with delimiters behind them, `same` holds and what
stands behind them is the same. -/
def Tells (same : Prop) (first second : String) : Prop :=
  ∀ ⦃rest other : List Char⦄, Delimits rest → Delimits other →
    first.toList ++ rest = second.toList ++ other → same ∧ rest = other

namespace Tells

variable {same : Prop} {first second : String}

/-- Runs of letters and digits that differ in meaning differ. -/
theorem of_run (hfirst : IsAlphanumericRun first.toList) (hsecond : IsAlphanumericRun second.toList)
    (h : first = second → same) : Tells same first second := by
  intro rest other hrest hother hsplit
  obtain ⟨hrun, hleft⟩ := Text.run_append_inj hfirst.2 hsecond.2 hrest hother hsplit
  exact ⟨h (String.toList_inj.1 hrun), hleft⟩

/-- A fixed text ends where it ends. -/
theorem of_same (h : same) (text : String) : Tells same text text := by
  intro rest other _ _ hsplit
  exact ⟨h, List.append_cancel_left hsplit⟩

theorem imp {weaker : Prop} (h : Tells same first second) (hweaker : same → weaker) :
    Tells weaker first second := by
  intro rest other hrest hother hsplit
  obtain ⟨hsame, hleft⟩ := h hrest hother hsplit
  exact ⟨hweaker hsame, hleft⟩

/-- Texts that mean the same if they agree with nothing behind them. -/
theorem of_eq (h : Tells same first second) (htext : first.toList = second.toList) : same := by
  have hnil : Delimits [] := by simp [Delimits]
  have hsplit : first.toList ++ [] = second.toList ++ [] := by rw [htext]
  exact (h hnil hnil hsplit).1

/-- A fixed word behind the texts that opens with a delimiter is crossed. -/
theorem before (h : Tells same first second) (word : String) {c : Char} {cs : List Char}
    (hword : word.toList = c :: cs) (hc : ¬ c.isAlphanum) {rest other : List Char}
    (hsplit : first.toList ++ (word.toList ++ rest) = second.toList ++ (word.toList ++ other)) :
    same ∧ rest = other := by
  have hdelimits : ∀ text, Delimits (word.toList ++ text) := by
    intro text
    rw [hword]
    exact Text.forall_mem_head?_cons hc
  obtain ⟨hsame, hleft⟩ := h (hdelimits rest) (hdelimits other) hsplit
  exact ⟨hsame, List.append_cancel_left hleft⟩

/-- Texts between a fixed opening and a closing bracket. -/
theorem of_enclosed (h : Tells same first second) (opening : String)
    (htext : opening ++ first ++ ")" = opening ++ second ++ ")") : same := by
  have hlist := congrArg String.toList htext
  simp only [String.toList_append, List.append_assoc] at hlist
  have hinner : first.toList ++ (")".toList ++ []) = second.toList ++ (")".toList ++ []) := by
    simpa using hlist
  exact (h.before ")" rfl (by decide) hinner).1

end Tells

theorem Word.tells_text (first second : Word) : Tells (first = second) first.text second.text :=
  .of_run first.denotes_text.isAlphanumericRun second.denotes_text.isAlphanumericRun text_inj

theorem Register.tells_text (first second : Register) :
    Tells (first = second) first.text second.text :=
  .of_run first.isAlphanumericRun_text second.isAlphanumericRun_text text_inj

theorem Address.tells_text (first second : Address) :
    Tells (first = second) first.text second.text :=
  .of_run first.denotes_text.isAlphanumericRun second.denotes_text.isAlphanumericRun text_inj

namespace Lifted

/-! ## Values -/

theorem Operator.text_inj {first second : Operator} (h : first.text = second.text) :
    first = second := by
  cases first <;> cases second <;> first | rfl | exact absurd h (by decide)

/-- An operator is written without a space, so the next one ends it. -/
theorem Operator.text_append_inj {first second : Operator} {rest other : List Char}
    (h : first.text.toList ++ ' ' :: rest = second.text.toList ++ ' ' :: other) :
    first = second ∧ rest = other := by
  have hall : ∀ operator : Operator, operator.text.toList.all (· != ' ') := by
    intro operator
    cases operator <;> decide +kernel
  have hspace : ∀ text : List Char, ∀ c ∈ (' ' :: text).head?, ¬ (c != ' ') := by
    intro text
    exact Text.forall_mem_head?_cons (by decide)
  obtain ⟨hoperator, hrest⟩ := Text.run_append_inj (List.all_eq_true.1 (hall first))
    (List.all_eq_true.1 (hall second)) (hspace rest) (hspace other) h
  exact ⟨text_inj (String.toList_inj.1 hoperator), (List.cons.inj hrest).2⟩

namespace Expr

/-- The character that the text of a value opens with. No two forms of values share it. -/
def mark : Expr → Char
  | const _ => '0'
  | reg _ => 'R'
  | pop => 'p'
  | input => 'i'
  | load _ => '['
  | complement _ => '~'
  | binary .. => '('

theorem exists_toList_text (expr : Expr) : ∃ cs, expr.text.toList = expr.mark :: cs := by
  cases expr with
  | const value => exact ⟨_, value.toList_text⟩
  | reg register => exact ⟨_, register.toList_text⟩
  | pop | input => exact ⟨_, rfl⟩
  | load | complement | binary =>
    simp only [text, String.toList_append]
    exact ⟨_, rfl⟩

theorem eq_const_of_mark {expr : Expr} (h : expr.mark = '0') : ∃ value, expr = const value := by
  cases expr with
  | const value => exact ⟨value, rfl⟩
  | reg | pop | input | load | complement | binary => exact absurd h (by simp [mark])

variable {first second : Expr} {rest other : List Char}

/-- Texts that agree open with values of one form. -/
theorem mark_eq_of_text_append (h : first.text.toList ++ rest = second.text.toList ++ other) :
    first.mark = second.mark := by
  obtain ⟨cs, hfirst⟩ := first.exists_toList_text
  obtain ⟨ds, hsecond⟩ := second.exists_toList_text
  rw [hfirst, hsecond] at h
  exact (List.cons.inj h).1

theorem tells_of_mark_ne (h : first.mark ≠ second.mark) :
    Tells (first = second) first.text second.text := by
  intro rest other _ _ hsplit
  exact absurd (mark_eq_of_text_append hsplit) h

/-- The closing bracket of a load is behind the address. -/
theorem tells_load (h : Tells (first = second) first.text second.text) :
    Tells (load first = load second) (load first).text (load second).text := by
  intro rest other _ _ hsplit
  have hinner : first.text.toList ++ ("]".toList ++ rest)
      = second.text.toList ++ ("]".toList ++ other) := by
    simpa [text] using hsplit
  obtain ⟨rfl, hleft⟩ := h.before "]" rfl (by decide) hinner
  exact ⟨rfl, hleft⟩

/-- A complement ends where its operand ends. -/
theorem tells_complement (h : Tells (first = second) first.text second.text) :
    Tells (complement first = complement second) (complement first).text
      (complement second).text := by
  intro rest other hrest hother hsplit
  have hinner : first.text.toList ++ rest = second.text.toList ++ other := by
    simpa [text] using hsplit
  obtain ⟨rfl, hleft⟩ := h hrest hother hinner
  exact ⟨rfl, hleft⟩

/-- A space is behind the left operand and behind the operator, and a bracket behind the right
operand. -/
theorem tells_binary {operator sign : Operator} {left right low high : Expr}
    (hleft : Tells (left = low) left.text low.text)
    (hright : Tells (right = high) right.text high.text) :
    Tells (binary operator left right = binary sign low high) (binary operator left right).text
      (binary sign low high).text := by
  intro rest other _ _ hsplit
  have hinner : left.text.toList ++ (" ".toList
        ++ (operator.text.toList ++ ' ' :: (right.text.toList ++ (")".toList ++ rest))))
      = low.text.toList ++ (" ".toList
        ++ (sign.text.toList ++ ' ' :: (high.text.toList ++ (")".toList ++ other)))) := by
    simpa [text] using hsplit
  obtain ⟨rfl, hoperator⟩ := hleft.before " " rfl (by decide) hinner
  obtain ⟨rfl, hoperand⟩ := Operator.text_append_inj hoperator
  obtain ⟨rfl, hbehind⟩ := hright.before ")" rfl (by decide) hoperand
  exact ⟨rfl, hbehind⟩

/-- **The text of a value ends itself**, and it tells the value. -/
theorem tells_text (first second : Expr) : Tells (first = second) first.text second.text := by
  -- values of two forms have different marks, so only pairs of one form are left
  induction first generalizing second with
  | const value =>
    cases second with
    | const word => exact (value.tells_text word).imp (congrArg const)
    | reg | pop | input | load | complement | binary => exact tells_of_mark_ne (by simp [mark])
  | reg register =>
    cases second with
    | reg other => exact (register.tells_text other).imp (congrArg reg)
    | const | pop | input | load | complement | binary => exact tells_of_mark_ne (by simp [mark])
  | pop =>
    cases second with
    | pop => exact .of_same rfl _
    | const | reg | input | load | complement | binary => exact tells_of_mark_ne (by simp [mark])
  | input =>
    cases second with
    | input => exact .of_same rfl _
    | const | reg | pop | load | complement | binary => exact tells_of_mark_ne (by simp [mark])
  | load address ih =>
    cases second with
    | load place => exact tells_load (ih place)
    | const | reg | pop | input | complement | binary => exact tells_of_mark_ne (by simp [mark])
  | complement operand ih =>
    cases second with
    | complement other => exact tells_complement (ih other)
    | const | reg | pop | input | load | binary => exact tells_of_mark_ne (by simp [mark])
  | binary operator left right ihleft ihright =>
    cases second with
    | binary sign low high => exact tells_binary (ihleft low) (ihright high)
    | const | reg | pop | input | load | complement => exact tells_of_mark_ne (by simp [mark])

end Expr

/-! ## Targets -/

namespace Target

/-- The target is computed, but from nothing but a number. -/
def isBareConstant : Target → Bool
  | indirect (.const _) => true
  | _ => false

@[simp] theorem isBareConstant_label (address : Address) :
    (label address).isBareConstant = false := rfl

/-- Only a bare number opens like an address. -/
theorem label_text_append_ne {address : Address} {expr : Expr} {rest other : List Char}
    (hexpr : (indirect expr).isBareConstant = false) :
    address.text.toList ++ rest ≠ expr.text.toList ++ other := by
  intro h
  obtain ⟨zeros, haddress⟩ := address.toList_text
  obtain ⟨cs, htext⟩ := expr.exists_toList_text
  rw [haddress, htext] at h
  obtain ⟨value, rfl⟩ := Expr.eq_const_of_mark (List.cons.inj h).1.symm
  exact absurd hexpr (by simp [isBareConstant])

/-- **The text of a target ends itself**, and it tells a target that is not a bare number. -/
theorem tells_text {first second : Target} (hfirst : first.isBareConstant = false)
    (hsecond : second.isBareConstant = false) : Tells (first = second) first.text second.text := by
  cases first with
  | label address =>
    cases second with
    | label place => exact (address.tells_text place).imp (congrArg label)
    | indirect expr =>
      intro rest other _ _ h
      exact absurd h (label_text_append_ne hsecond)
  | indirect expr =>
    cases second with
    | label place =>
      intro rest other _ _ h
      exact absurd h.symm (label_text_append_ne hfirst)
    | indirect place => exact (expr.tells_text place).imp (congrArg indirect)

/-- A bare number is shown like the address. -/
example : (indirect (.const 4096)).text = (label ⟨4096⟩).text := by rfl

end Target

/-! ## Statements -/

namespace Statement

/-- The character that the text of a statement opens with. Only `no_return` and `nop` share it. -/
def mark : Statement → Char
  | setReg .. => 'R'
  | push _ => 'p'
  | store .. => '['
  | jump _ => 'j'
  | branch .. => 'i'
  | call _ => 'c'
  | ret _ => 'r'
  | noReturn => 'n'
  | output _ => 'o'
  | nop => 'n'
  | unimplemented => 'u'

theorem exists_toList_text (statement : Statement) :
    ∃ cs, statement.text.toList = statement.mark :: cs := by
  cases statement with
  | setReg register value =>
    simp only [text, String.toList_append, register.toList_text]
    exact ⟨_, rfl⟩
  | push | store | jump | branch | call | ret | output =>
    simp only [text, String.toList_append]
    exact ⟨_, rfl⟩
  | noReturn | nop | unimplemented => exact ⟨_, rfl⟩

variable {first second : Statement}

theorem mark_eq_of_text_eq (h : first.text = second.text) : first.mark = second.mark := by
  obtain ⟨cs, hfirst⟩ := first.exists_toList_text
  obtain ⟨ds, hsecond⟩ := second.exists_toList_text
  have hlist := congrArg String.toList h
  rw [hfirst, hsecond] at hlist
  exact (List.cons.inj hlist).1

/-- No target of the statement is computed from nothing but a number. -/
def NoBareConstant (statement : Statement) : Prop :=
  ∀ target ∈ statement.targets, target.isBareConstant = false

/-- **The text of a statement tells the statement**, if no target is a bare number. -/
theorem text_inj (hfirst : first.NoBareConstant) (hsecond : second.NoBareConstant)
    (h : first.text = second.text) : first = second := by
  have hmark := mark_eq_of_text_eq h
  have hlist := congrArg String.toList h
  simp only [NoBareConstant] at hfirst hsecond
  -- the marks leave pairs of one form, and the two words that share a mark
  cases first <;> cases second
  case setReg.setReg register value register' value' =>
    have hinner : register.text.toList ++ (" = ".toList ++ value.text.toList)
        = register'.text.toList ++ (" = ".toList ++ value'.text.toList) := by
      simpa [text] using hlist
    obtain ⟨rfl, hvalue⟩ := (register.tells_text register').before " = " rfl (by decide) hinner
    obtain rfl := (value.tells_text value').of_eq hvalue
    rfl
  case store.store address value address' value' =>
    have hinner : address.text.toList ++ ("] = ".toList ++ value.text.toList)
        = address'.text.toList ++ ("] = ".toList ++ value'.text.toList) := by
      simpa [text] using hlist
    obtain ⟨rfl, hvalue⟩ := (address.tells_text address').before "] = " rfl (by decide) hinner
    obtain rfl := (value.tells_text value').of_eq hvalue
    rfl
  case branch.branch condition ifTrue ifFalse condition' ifTrue' ifFalse' =>
    simp only [targets, List.forall_mem_cons] at hfirst hsecond
    have hinner : condition.text.toList ++ (") then ".toList
          ++ (ifTrue.text.toList ++ (" else ".toList ++ ifFalse.text.toList)))
        = condition'.text.toList ++ (") then ".toList
          ++ (ifTrue'.text.toList ++ (" else ".toList ++ ifFalse'.text.toList))) := by
      simpa [text] using hlist
    obtain ⟨rfl, htrue⟩ :=
      (condition.tells_text condition').before ") then " rfl (by decide) hinner
    obtain ⟨rfl, hfalse⟩ :=
      (Target.tells_text hfirst.1 hsecond.1).before " else " rfl (by decide) htrue
    obtain rfl := (Target.tells_text hfirst.2.1 hsecond.2.1).of_eq hfalse
    rfl
  case jump.jump target target' =>
    simp only [targets, List.forall_mem_singleton] at hfirst hsecond
    obtain rfl := (Target.tells_text hfirst hsecond).of_enclosed "jump(" h
    rfl
  case call.call target target' =>
    simp only [targets, List.forall_mem_singleton] at hfirst hsecond
    obtain rfl := (Target.tells_text hfirst hsecond).of_enclosed "call(" h
    rfl
  case push.push value value' =>
    obtain rfl := (value.tells_text value').of_enclosed "push(" h
    rfl
  case ret.ret value value' =>
    obtain rfl := (value.tells_text value').of_enclosed "return(" h
    rfl
  case output.output value value' =>
    obtain rfl := (value.tells_text value').of_enclosed "out(" h
    rfl
  case noReturn.noReturn => rfl
  case nop.nop => rfl
  case unimplemented.unimplemented => rfl
  case noReturn.nop => exact absurd h (by decide)
  case nop.noReturn => exact absurd h (by decide)
  all_goals exact absurd hmark (by simp [mark])

end Statement

end Lifted

/-! ## What lifting makes -/

open Lifted

/-- A number that says where to go becomes a known address, and nothing else becomes a number. -/
theorem Operand.isBareConstant_of_target? {operand : Operand} {target : Target}
    (h : operand.target? = some target) : target.isBareConstant = false := by
  by_cases hliteral : operand.isLiteral
  · rw [target?, literalAddress?, if_pos hliteral] at h
    obtain rfl := Option.some.inj h
    rfl
  · rw [target?, literalAddress?, if_neg hliteral] at h
    obtain ⟨expr, hexpr, rfl⟩ := Option.map_eq_some_iff.1 h
    rcases Word.meaning_cases operand.word with ⟨hle, -⟩ | ⟨register, -, hmeaning⟩ | ⟨-, hmeaning⟩
    · exact absurd (isLiteral_iff.2 hle) hliteral
    · rw [address?, meaning, hmeaning] at hexpr
      obtain rfl := Option.some.inj hexpr
      rfl
    · rw [address?, meaning, hmeaning] at hexpr
      exact absurd hexpr (by simp)

theorem Lifted.Statement.noBareConstant_of_targets {statement : Statement}
    (h : statement.targets = []) : statement.NoBareConstant := by
  intro target htarget
  rw [h] at htarget
  exact absurd htarget (by simp)

namespace Instruction

variable {instruction : Instruction}

theorem isBareConstant_of_target? {slot : Nat} {target : Target}
    (h : instruction.target? slot = some target) : target.isBareConstant = false := by
  simp only [target?, Option.bind_eq_some_iff] at h
  obtain ⟨operand, _, htarget⟩ := h
  exact Operand.isBareConstant_of_target? htarget

/-- Where a statement goes is given by an operand, or it is the next instruction. -/
theorem noBareConstant_of_statement? {statement : Statement}
    (h : instruction.statement? = some statement) : statement.NoBareConstant := by
  have hassign : ∀ value, instruction.assign? value = some statement →
      statement.NoBareConstant := by
    intro value hvalue
    have hquiet : IsQuiet ((instruction.assign? value).getD .unimplemented) := isQuiet_assign? value
    rw [hvalue, Option.getD_some] at hquiet
    exact Statement.noBareConstant_of_targets hquiet.1
  unfold statement? at h
  cases hoperation : instruction.operation with
  | set | pop | eq | gt | add | mult | mod | and | or | not | rmem | input =>
    simp only [hoperation] at h
    exact hassign _ h
  | halt | ret | noop =>
    simp only [hoperation, Option.some.injEq] at h
    rw [← h]
    exact Statement.noBareConstant_of_targets rfl
  | push | output =>
    simp only [hoperation, Option.map_eq_some_iff] at h
    obtain ⟨value, _, rfl⟩ := h
    exact Statement.noBareConstant_of_targets rfl
  | wmem =>
    simp only [hoperation, Option.bind_eq_bind, Option.bind_eq_some_iff, Option.pure_def,
      Option.some.injEq] at h
    obtain ⟨address, _, value, _, rfl⟩ := h
    exact Statement.noBareConstant_of_targets rfl
  | jmp | call =>
    simp only [hoperation, Option.map_eq_some_iff] at h
    obtain ⟨target, htarget, rfl⟩ := h
    exact List.forall_mem_singleton.2 (isBareConstant_of_target? htarget)
  | jt | jf =>
    simp only [hoperation, Option.bind_eq_bind, Option.bind_eq_some_iff, Option.pure_def,
      Option.some.injEq] at h
    obtain ⟨condition, _, target, htarget, rfl⟩ := h
    simp [Statement.NoBareConstant, Statement.targets, isBareConstant_of_target? htarget]

/-- Also a statement that stands for what cannot be expressed has no target of that kind. -/
theorem noBareConstant_of_mem_lift {statement : Statement}
    (h : statement ∈ instruction.lift.statements) : statement.NoBareConstant := by
  rw [lift, List.mem_singleton] at h
  cases hstatement : instruction.statement? with
  | none =>
    rw [h, hstatement]
    exact Statement.noBareConstant_of_targets rfl
  | some made =>
    rw [h, hstatement]
    exact noBareConstant_of_statement? hstatement

end Instruction

/--
**The text of the lifted language is unambiguous.**

Values with the same text are the same, however deep. So are statements with the same text,
if neither has a target that is computed from nothing but a number. No statement that
lifting makes has such a target, whatever the operands of the instruction.
-/
theorem Lifted.eq_of_text_eq :
    (∀ first second : Expr, first.text = second.text → first = second)
      ∧ (∀ first second : Statement, first.NoBareConstant → second.NoBareConstant →
          first.text = second.text → first = second)
      ∧ ∀ instruction : Instruction, ∀ statement ∈ instruction.lift.statements,
          statement.NoBareConstant := by
  refine ⟨?_, ?_, ?_⟩
  · intro first second h
    exact (first.tells_text second).of_eq (congrArg String.toList h)
  · intro first second hfirst hsecond h
    exact Statement.text_inj hfirst hsecond h
  · intro instruction statement hstatement
    exact Instruction.noBareConstant_of_mem_lift hstatement

/-- A branch with one way out, as `jt` and `jf` both make it: one text, so one statement. -/
theorem Lifted.eq_of_text_eq_branch :
    (Instruction.lift ⟨⟨0⟩, .jt, [⟨0, .value, 32768⟩, ⟨1, .address, 3⟩]⟩).statements
        = [.branch (.reg ⟨0⟩) (.label ⟨6⟩) (.label ⟨6⟩)]
      ∧ (Instruction.lift ⟨⟨0⟩, .jf, [⟨0, .value, 32768⟩, ⟨1, .address, 3⟩]⟩).statements
        = [.branch (.reg ⟨0⟩) (.label ⟨6⟩) (.label ⟨6⟩)] := by
  obtain ⟨-, hstatements, hlift⟩ := eq_of_text_eq
  have hjt := hlift ⟨⟨0⟩, .jt, [⟨0, .value, 32768⟩, ⟨1, .address, 3⟩]⟩ _ (List.mem_singleton_self _)
  have hjf := hlift ⟨⟨0⟩, .jf, [⟨0, .value, 32768⟩, ⟨1, .address, 3⟩]⟩ _ (List.mem_singleton_self _)
  have hsame := hstatements _ _ hjt hjf (by with_unfolding_all rfl)
  refine ⟨?_, ?_⟩
  · rfl
  · rw [Instruction.lift, ← hsame]
    rfl

end WordMachine
