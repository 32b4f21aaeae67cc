import Footage.Files
import Footage.Proofs.Act.Showing

/-!
# What acts on files note

An act on files adds nothing to the journal but changes of the disk.  So it respects every relation
that holds where only events of a kind are added, if changes are of that kind
(`Files.adds_append` and the like).
-/

namespace Footage.Files

variable {P : Event → Prop}

theorem adds_setState (d : Disk) : (Act.setState d).Respects (World.Adds P) :=
  fun _ => ⟨[], by simp [Act.after], by simp⟩

theorem adds_meetTrouble : (meetTrouble).Respects (World.Adds P) := by
  refine Act.respects_state.bind fun d => ?_
  split
  · exact Act.respects_pure ()
  · refine (adds_setState _).bind fun _ => ?_
    split
    · exact Act.respects_pure ()
    · exact Act.respects_throw _

theorem adds_checkPath (path : String) : (checkPath path).Respects (World.Adds P) := by
  unfold checkPath
  split
  · exact Act.respects_throw _
  · exact Act.respects_pure ()

variable (changes : ∀ c, P (.changed c))

include changes

theorem adds_change (c : Disk.Change) : (change c).Respects (World.Adds P) := by
  refine Act.respects_state.bind fun d => (adds_setState _).bind fun _ => ?_
  exact Act.adds_note (changes c)

theorem adds_append (place : Place) (bytes : Bytes) :
    (append place bytes).Respects (World.Adds P) :=
  adds_meetTrouble.bind fun _ => Act.respects_state.bind fun _ => adds_change changes _

theorem adds_remove (place : Place) : (remove place).Respects (World.Adds P) :=
  adds_meetTrouble.bind fun _ => adds_change changes _

theorem adds_create (path : String) : (create path).Respects (World.Adds P) := by
  refine (adds_checkPath path).bind fun _ => Act.respects_state.bind fun d => ?_
  dsimp only
  split
  · exact Act.respects_throw _
  · exact Act.respects_throw _
  · exact Act.respects_throw _
  · split
    · exact Act.respects_throw _
    · exact Act.respects_throw _
    · exact adds_meetTrouble.bind fun _ => (adds_change changes _).bind fun _ =>
        Act.respects_pure _

theorem adds_createTemporary (directory : Disk.Absolute) :
    (createTemporary directory).Respects (World.Adds P) := by
  refine Act.respects_state.bind fun d => ?_
  dsimp only
  split
  · exact Act.respects_throw _
  · refine (adds_checkPath _).bind fun _ => ?_
    split
    · exact Act.respects_throw _
    · split
      · exact Act.respects_throw _
      · exact adds_meetTrouble.bind fun _ => (adds_change changes _).bind fun _ =>
          Act.respects_pure _

theorem adds_move (source : Disk.Absolute) (path : String) :
    (move source path).Respects (World.Adds P) := by
  refine (adds_checkPath path).bind fun _ => Act.respects_state.bind fun d => ?_
  dsimp only
  split
  · exact Act.respects_throw _
  · exact Act.respects_throw _
  · split
    · exact Act.respects_throw _
    · split
      · exact Act.respects_throw _
      · split
        · exact Act.respects_throw _
        · exact adds_meetTrouble.bind fun _ => adds_change changes _

end Footage.Files
