import Footage.Files
import Footage.Proofs.Act.Confined

/-!
# How files fail

An operation on files fails because the path or the disk does not allow it, or because it meets a
trouble of the disk.  A fault of the first kind is none of the library's own; so if the troubles are
no such faults either (`Disk.Outside`), none comes from files at all (`Files.outside_create` and the
like).
-/

namespace Footage

/-- The fault is none of the library's own. -/
abbrev Fault.IsOutside (e : Fault) : Prop := e.isOwn = false

/-- A fault of the outside is still one of the outside for the one who waits. -/
theorem Fault.IsOutside.awaited {e : Fault} (h : e.IsOutside) : e.awaited.IsOutside := by
  rcases e.awaited_eq_or with he | he <;> rw [he]
  · exact h
  · rfl

/-- The operations on the disk meet no fault of the library's own. -/
def Disk.Outside (d : Disk) : Prop := ∀ e, some e ∈ d.troubles → e.IsOutside

namespace Files

/-- The act comes from such a disk to such a disk, and fails with no fault of the library's own. -/
abbrev StaysOutside {α : Type} (x : Act Disk α) : Prop := x.Confined Disk.Outside Fault.IsOutside

theorem outside_state : StaysOutside Act.state := fun _ outside => outside

theorem outside_file {α : Type} (trouble : FileTrouble) (path : String) (target : Option String) :
    StaysOutside (throw (.file trouble path target) : Act Disk α) :=
  Act.confined_throw (by cases trouble <;> rfl)

theorem outside_meetTrouble : StaysOutside meetTrouble := by
  intro w outside
  cases troubles : w.state.troubles with
  | nil =>
    simp only [meetTrouble, EStateM.run_bind, Act.run_state, troubles]
    exact outside
  | cons next rest =>
    have fewer : Disk.Outside { w.state with troubles := rest } := fun e he =>
      outside e (troubles ▸ List.mem_cons_of_mem next he)
    simp only [meetTrouble, EStateM.run_bind, Act.run_state, troubles, Act.run_setState]
    cases next with
    | none => exact fewer
    | some e => exact ⟨fewer, outside e (troubles ▸ List.mem_cons_self)⟩

theorem outside_change (c : Disk.Change) : StaysOutside (change c) := by
  refine fun w outside => ?_
  simp only [change, EStateM.run_bind, Act.run_state, Act.run_setState, Act.run_note]
  cases c <;> exact outside

theorem outside_checkPath (path : String) : StaysOutside (checkPath path) := by
  unfold checkPath
  split
  · exact Act.confined_throw rfl
  · exact Act.confined_pure ()

theorem outside_append (place : Place) (bytes : Bytes) : StaysOutside (append place bytes) :=
  outside_meetTrouble.bind fun _ => outside_state.bind fun _ => outside_change _

theorem outside_remove (place : Place) : StaysOutside (remove place) :=
  outside_meetTrouble.bind fun _ => outside_change _

theorem outside_create (path : String) : StaysOutside (create path) := by
  refine (outside_checkPath path).bind fun _ => outside_state.bind fun d => ?_
  dsimp only
  split
  · exact outside_file _ _ _
  · exact outside_file _ _ _
  · exact outside_file _ _ _
  · split
    · exact outside_file _ _ _
    · exact outside_file _ _ _
    · exact outside_meetTrouble.bind fun _ => (outside_change _).bind fun _ => Act.confined_pure _

theorem outside_createTemporary (directory : Disk.Absolute) :
    StaysOutside (createTemporary directory) := by
  refine outside_state.bind fun d => ?_
  dsimp only
  split
  · exact Act.confined_throw rfl
  · refine (outside_checkPath _).bind fun _ => ?_
    split
    · exact outside_file _ _ _
    · split
      · exact outside_file _ _ _
      · exact outside_meetTrouble.bind fun _ => (outside_change _).bind fun _ =>
          Act.confined_pure _

theorem outside_move (source : Disk.Absolute) (path : String) :
    StaysOutside (move source path) := by
  refine (outside_checkPath path).bind fun _ => outside_state.bind fun d => ?_
  dsimp only
  split
  · exact outside_file _ _ _
  · exact outside_file _ _ _
  · split
    · exact outside_file _ _ _
    · split
      · exact outside_file _ _ _
      · split
        · exact outside_file _ _ _
        · exact outside_meetTrouble.bind fun _ => outside_change _

end Files

end Footage
