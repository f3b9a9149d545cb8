import WordMachine.CommandLine.Directory

/-!
# Files kept in a state

What a run relies on where its files are part of a state. Reading changes nothing, a write
that is refused changes nothing either, and one that is not puts the contents into the file
that the path leads to and into no other. Whether a file may be read is another matter: one
that has been written may be refused to readers.

A directory kept as a value has such files. There a path leads to a file by the names of
its parts alone, so it leads to the same one after a write.
-/

namespace WordMachine.CommandLine

namespace Files

variable {σ : Type} [Files (StateM σ)]

/-- What reading answers in a state. -/
def readIn (state : σ) (path : String) : Except FileError Image :=
  (StateT.run (Files.read path : StateM σ (Except FileError Image)) state).1

/-- What writing answers in a state, and the state after it. -/
def writeIn (state : σ) (path : String) (contents : Image) : Except FileError Unit × σ :=
  StateT.run (Files.write path contents : StateM σ (Except FileError Unit)) state

end Files

open Files (readIn writeIn)

/-- Files kept in a state, with the laws that a run relies on. A file has a name, and several paths
may lead to it. -/
class LawfulFiles (σ : Type) [Files (StateM σ)] where
  /-- The name of the file that a path leads to. -/
  name? : σ → String → Option String
  /-- What the file with a name holds, whether it may be read or not. -/
  contents? : σ → String → Option Image
  /-- Reading changes nothing. -/
  read_state (state : σ) (path : String) :
    (StateT.run (Files.read path : StateM σ (Except FileError Image)) state).2 = state
  /-- What is read is what the file holds. -/
  read_ok {state : σ} {path : String} {contents : Image} (h : readIn state path = .ok contents) :
    ∃ name, name? state path = some name ∧ contents? state name = some contents
  /-- A refused write changes nothing. -/
  write_error {state after : σ} {path : String} {contents : Image} {error : FileError}
    (h : writeIn state path contents = (.error error, after)) : after = state
  /-- A file that is written holds the contents, and the others hold what they held. -/
  write_ok {state after : σ} {path : String} {contents : Image}
    (h : writeIn state path contents = (.ok (), after)) :
    ∃ name, name? after path = some name ∧ contents? after name = some contents
      ∧ ∀ other, other ≠ name → contents? after other = contents? state other

section

variable {σ : Type} [Files (StateM σ)] [LawfulFiles σ]

/-- **What has been written is read**, unless reading is refused. -/
theorem LawfulFiles.eq_of_readIn_of_writeIn {state after : σ} {path : String}
    {contents found : Image} (hwritten : writeIn state path contents = (.ok (), after))
    (hread : readIn after path = .ok found) : found = contents := by
  obtain ⟨name, hname, hcontents, -⟩ := write_ok hwritten
  obtain ⟨other, hother, hfound⟩ := read_ok hread
  obtain rfl := Option.some.inj (hname.symm.trans hother)
  exact Option.some.inj (hfound.symm.trans hcontents)

/-- Reading goes on with what is there. -/
theorem LawfulFiles.run_read_bind {α : Type} (state : σ) (path : String)
    (rest : Except FileError Image → StateM σ α) :
    StateT.run (Files.read path >>= rest) state = StateT.run (rest (readIn state path)) state := by
  have hread : StateT.run (Files.read path : StateM σ (Except FileError Image)) state
      = (readIn state path, state) := Prod.ext rfl (read_state state path)
  rw [StateT.run_bind, hread]
  rfl

end

/-- Writing goes on in the state that it leaves. -/
theorem Files.run_write_bind {σ α : Type} [Files (StateM σ)] (state : σ) (path : String)
    (contents : Image) (rest : Except FileError Unit → StateM σ α) :
    StateT.run (Files.write path contents >>= rest) state
      = StateT.run (rest (writeIn state path contents).1) (writeIn state path contents).2 := rfl

namespace Directory

variable {directory : Directory} {path name : String} {contents : Image}

/-- A path that leads somewhere leads there whatever files there are. -/
theorem walk_eq_ok {base : String} {parts : List String} {place : Place}
    (h : directory.walk base parts = .ok place) (other : Directory) :
    other.walk base parts = .ok place := by
  fun_induction directory.walk base parts
  case case1 =>
    rw [walk]
    exact h
  case case2 hskip ih =>
    rw [walk, if_pos hskip]
    exact ih h
  case case3 hskip ih =>
    rw [walk, if_neg hskip, if_pos rfl]
    exact ih h
  case case4 hskip hup hclosed =>
    rw [walk, if_neg hskip, if_neg hup, if_pos hclosed]
    exact h
  case case6 hskip hup hshort hclosed =>
    rw [walk, if_neg hskip, if_neg hup, if_neg hclosed, if_neg hshort, if_pos rfl]
    exact h
  -- the only answers that depend on the files are errors
  all_goals exact absurd h (by simp)

theorem place_eq_ok {place : Place} (h : directory.place path = .ok place) (other : Directory) :
    other.place path = .ok place := by
  unfold Directory.place at h ⊢
  split at h
  · exact absurd h (by simp)
  · next hsome =>
    rw [if_neg hsome]
    split at h
    · exact absurd h (by simp)
    · next hshort =>
      rw [if_neg hshort]
      split at h
      · exact walk_eq_ok h other
      · exact walk_eq_ok h other

/-- What is read is in the file that the path leads to. -/
theorem readFile_eq_ok (h : directory.readFile path = .ok contents) :
    ∃ name, directory.place path = .ok (.file name) ∧ directory.get? name = some contents := by
  unfold readFile at h
  split at h
  · exact absurd h (by simp)
  · exact absurd h (by simp)
  · exact absurd h (by simp)
  · next name hplace =>
    refine ⟨name, hplace, ?_⟩
    split at h
    · exact absurd h (by simp)
    · exact absurd h (by simp)
    · next found hfound _ =>
      obtain rfl := Except.ok.inj h
      exact hfound

/-- What is written goes to the file that the path leads to. -/
theorem place_of_target (h : directory.target path = .ok name) :
    directory.place path = .ok (.file name) := by
  unfold target at h
  split at h
  · exact absurd h (by simp)
  · exact absurd h (by simp)
  · exact absurd h (by simp)
  · next found hplace =>
    split at h
    · exact absurd h (by simp)
    · obtain rfl := Except.ok.inj h
      exact hplace

/-- The name of the file that a path leads to. -/
def nameOf? (directory : Directory) (path : String) : Option String :=
  match directory.place path with
  | .ok (.file name) => some name
  | _ => none

theorem nameOf?_eq_some (h : directory.place path = .ok (.file name)) :
    directory.nameOf? path = some name := by
  rw [nameOf?, h]

/-- A write goes to its target, or it is refused there. -/
theorem writeIn_eq (directory : Directory) (path : String) (contents : Image) :
    writeIn directory path contents = match directory.target path with
      | .error error => (.error error, directory)
      | .ok name => (.ok (), directory.put name contents) := rfl

/-- **A directory kept as a value has lawful files.** -/
instance : LawfulFiles Directory where
  name? := nameOf?
  contents? := get?
  read_state _ _ := rfl
  read_ok h := by
    obtain ⟨name, hplace, hcontents⟩ := readFile_eq_ok h
    exact ⟨name, nameOf?_eq_some hplace, hcontents⟩
  write_error {directory after path contents error} h := by
    rw [writeIn_eq] at h
    split at h
    · exact (congrArg Prod.snd h).symm
    · exact absurd (congrArg Prod.fst h) (by simp)
  write_ok {directory after path contents} h := by
    rw [writeIn_eq] at h
    split at h
    · exact absurd (congrArg Prod.fst h) (by simp)
    · next name htarget =>
      obtain rfl : directory.put name contents = after := congrArg Prod.snd h
      refine ⟨name, nameOf?_eq_some (place_eq_ok (place_of_target htarget) _), ?_, ?_⟩
      · exact directory.get?_put_self name contents
      · exact fun other hother => directory.get?_put_of_ne contents hother

end Directory

end WordMachine.CommandLine
