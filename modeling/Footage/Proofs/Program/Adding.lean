import Footage.Proofs.Client.Deadline
import Footage.Proofs.Program.Release

/-!
# What a run adds to the journal

Besides the calls of its client, and what its channel does, a job notes nothing but routine: what is
logged, written to a file, printed and the like (`Event.IsRoutine`).  So it adds events of any kind
that holds of routine, of its calls and of what its channel adds (`Program.adds_run`); and the whole
run adds the level of the console and a complaint to that (`Program.adds_execute`).
-/

namespace Footage

open CommandLine

variable {P : Event → Prop}

/-- The event is of the kind that a job notes besides its calls. -/
def Event.IsRoutine : Event → Prop
  | called _ _ | configured _ | written _ | noted _ _ => False
  | _ => True

namespace Program

variable {env : Environment} {args : List String} {c : Connection} {j : Job}

section

variable (routine : ∀ e, e.IsRoutine → P e)

include routine

theorem adds_perform {store : Client Disk} (calls : ∀ r, P (.called r store.options.deadline))
    (channel : store.channel.Respects (World.Adds P)) (start stop container : Setting String)
    (task : Task) : (perform store start stop container task).Respects (World.Adds P) := by
  have permits : store.Permits (World.Adds P) :=
    Client.permits_adds (fun e remark => routine e (by cases e <;> trivial)) calls
  have changes (c : Disk.Change) : P (.changed c) := routine _ trivial
  have given {α : Type} {s : Setting String} {next : String → Act Disk α}
      (h : ∀ text, (next text).Respects (World.Adds P)) :
      (inRequest s >>= next).Respects (World.Adds P) := (Act.respects_ofExcept _).bind h
  cases task with
  | fetch output =>
    refine given fun s => given fun t => given fun k => ?_
    exact (Client.respects_fetch permits channel.fetch s t k).bind fun video =>
      (adds_writeFile changes output video).bind fun _ => Act.adds_note (routine _ trivial)
  | save metadata background =>
    refine given fun s => given fun t => given fun k => given fun m => ?_
    exact (Client.respects_save permits channel.save s t k m background).bind fun _ =>
      Act.adds_note (routine _ trivial)
  | stream output =>
    refine Act.Respects.bind ?_ fun _ => Act.adds_note (routine _ trivial)
    cases output with
    | blank => exact Act.respects_throw _
    | value path =>
      rw [download_eq]
      refine Act.respects_state.bind fun d => ?_
      refine (Files.adds_createTemporary changes _).bind fun file => ?_
      refine Act.Respects.bind (Act.Respects.guarding ?_ fun e => ?_) fun total => ?_
      · refine given fun s => given fun t => given fun k => ?_
        refine (Client.respects_stream permits channel (fun total chunk => ?_) s t k 0).awaited
        refine Act.Respects.bind (Act.adds_note (routine _ trivial)) fun _ => ?_
        exact (Files.adds_append changes file.place chunk).bind fun _ => Act.respects_pure _
      · exact Files.adds_meetTrouble.bind fun _ => Files.adds_remove changes _
      · exact (Files.adds_meetTrouble.bind fun _ => Files.adds_move changes _ _).bind fun _ =>
          Act.respects_pure _

/-- A job adds events of a kind if routine, its calls and what its channel adds are of the kind. -/
theorem adds_run
    (calls : ∀ options, Client.Options.make (.value .null) c.deadline = .ok options →
      ∀ r, P (.called r options.deadline))
    (transport : ∀ address secure, (env.connect address secure).Respects (World.Adds P)) :
    (run env c j).Respects (World.Adds P) := by
  refine (Act.respects_ofExcept _).bind fun range => (Act.respects_ofExcept _).bind fun address =>
    Act.respects_ofExcept_bind fun options made => ?_
  refine Act.Respects.bind (Act.adds_note (routine _ trivial)) fun _ => ?_
  refine Act.Respects.ensuring ?_ (Act.adds_note (routine _ trivial))
  refine Act.respects_ofExcept_bind fun store accepted => ?_
  obtain ⟨channel, same⟩ := of_client_ok accepted
  refine Act.Respects.bind (Act.adds_note (routine _ trivial)) fun _ => ?_
  exact adds_perform routine (fun r => same ▸ calls options made r)
    (channel ▸ transport address c.secure) _ _ _ _

end

/-- What a run of the program adds is what its job adds, besides the level of the console and a
complaint. -/
theorem adds_execute (configured : ∀ level, P (.configured level))
    (complaints : ∀ text, P (.complained text)) (parsed : (grammar).parse args = .ok (c, j))
    (ran : (run env c j).Respects (World.Adds P)) : (execute env args).Respects (World.Adds P) := by
  have configures : (configure c.logLevel).Respects (World.Adds P) := by
    unfold configure
    split
    · exact Act.respects_pure ()
    · exact Act.respects_throw _
    · exact Act.adds_note (configured _)
  unfold execute
  rw [parsed]
  refine configures.bind fun _ => ran.attempt.bind fun outcome => ?_
  cases outcome with
  | ok u => exact Act.respects_pure 0
  | error e => exact adds_report complaints j.task e

end Program

end Footage
