import Footage.Proofs.Act.Confined
import Footage.Proofs.Disk.Changes

/-!
# Files on a quiet disk

On a disk without troubles to be met an operation on files does what it says, unless its path
does not lead to where a file can be: `Files.run_create`, `Files.run_createTemporary` and
`Files.run_move`, with `Files.exists_run_move_error` for the other case.
-/

namespace Footage

namespace Disk

/-- Operations on the disk meet no troubles. -/
abbrev Quiet (d : Disk) : Prop := d.troubles = []

/-- The second disk is quiet, and it has the directories of the first one. -/
def Steady (d d' : Disk) : Prop := d'.Quiet ∧ d.SameDirectories d'

/-- A path leads to a place where a file may be put, and it holds no character zero. -/
def Admits (d : Disk) (path : String) (place : Place) : Prop :=
  '\x00' ∉ path.toList ∧ d.Writable path place

/-- A temporary file can be made beside an output: a name for it is free, and its path is one that
leads to it. -/
def AdmitsTemporary (d : Disk) (path : String) (file : Absolute) : Prop :=
  let directory := (d.absolute path).parent
  (d.freeName? directory.place).map directory.child = some file ∧
    '\x00' ∉ file.text.toList ∧ file.text.utf8ByteSize ≤ longestPath ∧
    ∃ p, d.enter [] directory.place = .ok p

theorem AdmitsTemporary.temporary? {d : Disk} {path : String} {file : Absolute}
    (h : d.AdmitsTemporary path file) : d.temporary? path = some file.place := by
  obtain ⟨name, hn, rfl⟩ := Option.map_eq_some_iff.1 h.1
  rw [Disk.temporary?, hn]
  rfl

/-- Where the directories are the same, files may be put at the same places. -/
theorem Admits.of_sameDirectories {d d' : Disk} (same : d.SameDirectories d') {path : String}
    {place : Place} (h : d.Admits path place) : d'.Admits path place :=
  h.imp_right (·.of_sameDirectories same)

/-- A file at a free place does not change where files may be put. -/
theorem admits_put_iff {d : Disk} {path : String} {place p : Place} (free : d.find? p = none)
    (bytes : Bytes) : (d.put p (.file bytes)).Admits path place ↔ d.Admits path place := by
  have same := sameDirectories_put (d := d) (p := p) (by simp [free]) bytes
  exact ⟨.of_sameDirectories same.symm, .of_sameDirectories same⟩

theorem calm_of_quiet {d : Disk} (quiet : d.Quiet) : d.calm = d := by
  rw [calm, ← quiet]

end Disk

namespace Files

theorem run_checkPath {path : String} (text : '\x00' ∉ path.toList) (w : World Disk) :
    (checkPath path).run w = .ok () w := by
  rw [checkPath, if_neg (by simpa using text)]
  rfl

/-- What goes on after a path was checked has a path without the character zero. -/
theorem notMem_of_run_checkPath {α : Type} {path : String} {next : Unit → Act Disk α}
    {w w' : World Disk} {a : α} (h : (checkPath path >>= next).run w = .ok a w') :
    '\x00' ∉ path.toList := by
  intro zero
  rw [checkPath, if_pos (by simpa using zero)] at h
  cases h

/-- A file cannot be moved to where no file can be put. -/
theorem exists_run_move_error {path : String} {w : World Disk}
    (refused : ∀ place, ¬ w.state.Admits path place) (source : Disk.Absolute) :
    ∃ e, (move source path).run w = .error e w := by
  by_cases text : '\x00' ∈ path.toList
  · exact ⟨.nulInPath, by simp [move, checkPath, text, EStateM.run_bind]⟩
  · simp only [move, EStateM.run_bind, run_checkPath text, Act.run_state]
    split
    · exact ⟨_, rfl⟩
    · exact ⟨_, rfl⟩
    · next directory name slash located =>
      split
      · exact ⟨_, rfl⟩
      · next found looked =>
        split
        · exact ⟨_, rfl⟩
        · next plain =>
          split
          · exact ⟨_, rfl⟩
          · next file =>
            -- Nothing stands against the move any more, so a file may be put there.
            rw [Bool.not_eq_true] at plain
            subst plain
            exact absurd ⟨text, directory, name, found, located, looked, file, rfl⟩ (refused _)

section

variable {w : World Disk} (quiet : w.state.Quiet)

include quiet

theorem quiet_change (c : Disk.Change) : (w.change c).state.Quiet := by
  cases c <;> exact quiet

theorem run_meetTrouble : (meetTrouble).run w = .ok () w := by
  simp only [meetTrouble, EStateM.run_bind, Act.run_state, quiet]
  rfl

theorem run_close : (close).run w = .ok () w := run_meetTrouble quiet

theorem run_append (place : Place) (bytes : Bytes) :
    (append place bytes).run w =
      .ok () (w.change (.written place (w.state.content place ++ bytes))) := by
  simp only [append, EStateM.run_bind, run_meetTrouble quiet, Act.run_state, run_change]

theorem run_remove (place : Place) :
    (remove place).run w = .ok () (w.change (.removed place)) := by
  simp only [remove, EStateM.run_bind, run_meetTrouble quiet, run_change]

theorem run_create {path : String} {place : Place} (admits : w.state.Admits path place) :
    (create path).run w = .ok place (w.change (.written place [])) := by
  obtain ⟨text, directory, name, found, located, looked, file, rfl⟩ := admits
  simp only [create, EStateM.run_bind, run_checkPath text, Act.run_state, located, looked,
    run_meetTrouble quiet, run_change, EStateM.run_pure]

theorem run_createTemporary {path : String} {file : Disk.Absolute}
    (admits : w.state.AdmitsTemporary path file) :
    (createTemporary (w.state.absolute path).parent).run w =
      .ok file (w.change (.written file.place [])) := by
  obtain ⟨named, text, short, p, entered⟩ := admits
  obtain ⟨name, hn, rfl⟩ := Option.map_eq_some_iff.1 named
  simp only [createTemporary, EStateM.run_bind, Act.run_state, hn, run_checkPath text,
    if_neg (Nat.not_lt.2 short), entered, run_meetTrouble quiet, run_change, EStateM.run_pure]

theorem run_move {path : String} {place : Place} (admits : w.state.Admits path place)
    (source : Disk.Absolute) :
    (move source path).run w = .ok () (w.change (.moved source.place place)) := by
  obtain ⟨text, directory, name, found, located, looked, file, rfl⟩ := admits
  simp only [move, EStateM.run_bind, run_checkPath text, Act.run_state, located, looked,
    if_neg file, Bool.false_eq_true, if_false, run_meetTrouble quiet, run_change]

end

variable {F : Fault → Prop}

theorem confined_meetTrouble : (meetTrouble).Confined Disk.Quiet F := by
  intro w quiet
  rw [run_meetTrouble quiet]
  exact quiet

theorem confined_change (c : Disk.Change) : (change c).Confined Disk.Quiet F := by
  intro w quiet
  rw [run_change]
  exact quiet_change quiet c

theorem confined_append (place : Place) (bytes : Bytes) :
    (append place bytes).Confined Disk.Quiet F :=
  confined_meetTrouble.bind fun _ => Act.Confined.bind (fun _ quiet => quiet) fun _ =>
    confined_change _

/-- A file that is written to leaves the directories as they are. -/
theorem confined_append_steady {d : Disk} {place : Place}
    (file : d.find? place ≠ some .directory) (bytes : Bytes) :
    (append place bytes).Confined d.Steady F := by
  rintro w ⟨quiet, same⟩
  rw [run_append quiet]
  have still : w.state.find? place ≠ some .directory := fun h => file ((same.2 place).2 h)
  exact ⟨quiet, same.trans (Disk.sameDirectories_put still _)⟩

theorem confined_createTemporary (directory : Disk.Absolute) :
    (createTemporary directory).Confined Disk.Quiet fun _ => True := by
  refine Act.Confined.bind (fun _ quiet => quiet) fun d => ?_
  dsimp only
  split
  · exact Act.confined_throw trivial
  · refine Act.Confined.bind ?_ fun _ => ?_
    · unfold checkPath
      split
      · exact Act.confined_throw trivial
      · exact Act.confined_pure ()
    · split
      · exact Act.confined_throw trivial
      · split
        · exact Act.confined_throw trivial
        · exact confined_meetTrouble.bind fun _ => (confined_change _).bind fun _ =>
            Act.confined_pure _

end Files

end Footage
