import Footage.Program
import Footage.Proofs.Act.Outcome
import Footage.Proofs.Client.Delivery
import Footage.Proofs.Client.Traffic
import Footage.Proofs.Disk.Changes

/-!
# The course of a run

A run of the program on a command line that was read goes through the same stages whatever its task
is.  Either the command line is not accepted (`Program.accepted`), and then the run neither succeeds
nor does anything to the disk; or the task is carried out from a world that is known
(`Program.Begins`), and the status says how that ended.  `Program.execute_cases` has the two cases.
-/

namespace Footage

open CommandLine

/-- From the first world to the second one nothing happens to the disk, and no chunk is handed
over. -/
def World.Settled (w w' : World Disk) : Prop :=
  w'.state.calm = w.state.calm ∧ w.Adds (fun e => ¬ e.IsChange ∧ ¬ e.IsDelivery) w'

namespace World

instance : Std.Refl Settled := ⟨fun w => ⟨rfl, refl_of _ w⟩⟩

instance : IsTrans (World Disk) Settled where
  trans := fun _ _ _ h₁ h₂ => ⟨h₂.1.trans h₁.1, trans_of _ h₁.2 h₂.2⟩

theorem Settled.untouched {w w' : World Disk} (h : w.Settled w') : w.Untouched w' := by
  obtain ⟨hd, events, hj, he⟩ := h
  exact ⟨hd, events, hj, fun e hm => (he e hm).1⟩

theorem settled_grow {events : List Event} (h : ∀ e ∈ events, ¬ e.IsChange ∧ ¬ e.IsDelivery)
    (w : World Disk) (ids : Nat) : w.Settled (w.grow events ids) :=
  ⟨rfl, adds_grow h w ids⟩

end World

namespace Program

variable {env : Environment} {args : List String} {c : Connection} {j : Job} {w : World Disk}

/-- What the program notes when it sets the console up. -/
def configuration : Option (Setting Log.Level) → List Event
  | some (.value level) => [.configured level]
  | _ => []

theorem of_mem_configuration {level : Option (Setting Log.Level)} {e : Event}
    (h : e ∈ configuration level) : ∃ l, e = .configured l := by
  unfold configuration at h
  split at h
  · exact ⟨_, List.mem_singleton.1 h⟩
  · cases h

/-- What the program notes before it carries out a task: it opens a channel, and logs what it is
about to do. -/
def announcement (c : Connection) (j : Job) (address : String) (store : Client Disk)
    (start stop : Setting String) : List Event :=
  [.opened address c.secure,
    .logged {
      logger := "videostore.__main__"
      level := .info
      message := j.task.name ++ " " ++ store.name.text ++ " from " ++ start.shown ++ " to " ++
        stop.shown ++ " (" ++ j.container.shown ++ ")"
      about := none }]

/-- The command line is accepted in every respect, and the program carries out the task for a range
with a client, from the world `w₀`. -/
structure Begins (env : Environment) (c : Connection) (j : Job) (w : World Disk)
    (store : Client Disk) (start stop : Setting String) (w₀ : World Disk) : Prop where
  level : c.logLevel ≠ some .blank
  range : j.range env.now = .ok (start, stop)
  client : ∃ address options, c.addressOr env.address = .ok address ∧
    Client.Options.make (.value .null) c.deadline = .ok options ∧
    Program.client c (env.connect address c.secure) options = .ok store ∧
    w₀ = (w.grow (configuration c.logLevel)).grow (announcement c j address store start stop)

theorem Begins.settled {store : Client Disk} {start stop : Setting String} {w₀ : World Disk}
    (h : Begins env c j w store start stop w₀) : w.Settled w₀ := by
  obtain ⟨address, options, -, -, -, rfl⟩ := h.client
  refine trans_of _ (World.settled_grow (fun e he => ?_) w 0)
    (World.settled_grow (fun e he => ?_) _ 0)
  · obtain ⟨level, rfl⟩ := of_mem_configuration he
    simp [Event.IsChange, Event.IsDelivery]
  · simp only [announcement, List.mem_cons, List.not_mem_nil, or_false] at he
    rcases he with rfl | rfl <;> simp [Event.IsChange, Event.IsDelivery]

/-- Before its task the program does nothing to the surroundings. -/
theorem Begins.state_eq {store : Client Disk} {start stop : Setting String} {w₀ : World Disk}
    (h : Begins env c j w store start stop w₀) : w₀.state = w.state := by
  obtain ⟨address, options, -, -, -, rfl⟩ := h.client
  rfl

/-- The run does not end with the status of success. -/
def Fails (env : Environment) (args : List String) (w : World Disk) : Prop :=
  ∀ w', (execute env args).run w ≠ .ok 0 w'

instance (env : Environment) (args : List String) (w : World Disk) :
    Decidable (Fails env args w) :=
  match h : (execute env args).run w with
  | .ok 0 w' => .isFalse fun fails => fails w' h
  | .ok (_ + 1) _ => .isTrue fun _ h' => by cases h.symm.trans h'
  | .error _ _ => .isTrue fun _ h' => by cases h.symm.trans h'

theorem settled_note {e : Event} (change : ¬ e.IsChange) (delivery : ¬ e.IsDelivery)
    (w : World Disk) : w.Settled (w.grow [e]) :=
  World.settled_grow (fun e' he => by
    obtain rfl := List.mem_singleton.1 he
    exact ⟨change, delivery⟩) w 0

theorem settled_closed (w : World Disk) : w.Settled (w.grow [.closed]) :=
  settled_note (by simp [Event.IsChange]) (by simp [Event.IsDelivery]) w

/-- What the program makes of a fault leaves the disk alone. -/
theorem respects_report (task : Task) (e : Fault) : (report task e).Respects World.Settled := by
  have complain (text : String) :
      (Act.note (.complained text)).Respects World.Settled :=
    Act.respects_note (settled_note (by simp [Event.IsChange]) (by simp [Event.IsDelivery]))
  unfold report
  split
  · exact (complain _).bind fun _ => Act.respects_pure 2
  · split
    · exact (complain _).bind fun _ => Act.respects_pure 1
    · exact Act.respects_throw _

/-- What the program makes of a fault is never success. -/
theorem run_report_ne (task : Task) (e : Fault) (w w' : World Disk) :
    (report task e).run w ≠ .ok 0 w' := by
  unfold report
  split
  · rw [EStateM.run_bind, Act.run_note]
    rintro ⟨⟩
  · split
    · rw [EStateM.run_bind, Act.run_note]
      rintro ⟨⟩
    · rintro ⟨⟩

theorem respects_configure (level : Option (Setting Log.Level)) :
    (configure level).Respects World.Settled := by
  unfold configure
  split
  · exact Act.respects_pure ()
  · exact Act.respects_throw _
  · exact Act.respects_note
      (settled_note (by simp [Event.IsChange]) (by simp [Event.IsDelivery]))

theorem run_ensuring {α : Type} (x : Act Disk α) (e : Event) (w : World Disk) :
    (x.ensuring (Act.note e)).run w =
      match x.run w with
      | .ok a w => .ok a (w.grow [e])
      | .error e' w => .error e' (w.grow [e]) := by
  simp only [Act.ensuring, EStateM.run_bind, Act.run_guarding, Act.run_note]
  cases x.run w <;> rfl

/-- A job that is accepted is carried out between opening the channel and closing it. -/
theorem run_accepted {start stop : Setting String} {address : String}
    {options : Client.Options} {store : Client Disk}
    (hr : j.range env.now = .ok (start, stop)) (ha : c.addressOr env.address = .ok address)
    (ho : Client.Options.make (.value .null) c.deadline = .ok options)
    (hc : Program.client c (env.connect address c.secure) options = .ok store)
    (w : World Disk) :
    (run env c j).run w =
      match (perform store start stop j.container j.task).run
          (w.grow (announcement c j address store start stop)) with
      | .ok a w => .ok a (w.grow [.closed])
      | .error e w => .error e (w.grow [.closed]) := by
  simp only [run, hr, ha, ho, hc, EStateM.run_bind, Act.run_ofExcept_ok, Act.run_note,
    run_ensuring, log, Act.run_log, World.grow_grow, List.cons_append, List.nil_append,
    Nat.add_zero, announcement]
  generalize EStateM.run _ _ = done
  cases done <;> rfl

/-- What a command line that was read comes to: a client and a range, or the first fault. -/
def accepted (env : Environment) (c : Connection) (j : Job) :
    Except Fault (Client Disk × Setting String × Setting String) := do
  let range ← j.range env.now
  let address ← c.addressOr env.address
  let options ← Client.Options.make (.value .null) c.deadline
  let store ← client c (env.connect address c.secure) options
  return (store, range)

theorem of_accepted_ok {store : Client Disk} {start stop : Setting String}
    (h : accepted env c j = .ok (store, start, stop)) :
    j.range env.now = .ok (start, stop) ∧
      ∃ address options, c.addressOr env.address = .ok address ∧
        Client.Options.make (.value .null) c.deadline = .ok options ∧
        client c (env.connect address c.secure) options = .ok store := by
  obtain ⟨range, hr, h⟩ := exists_of_bind_ok h
  obtain ⟨address, ha, h⟩ := exists_of_bind_ok h
  obtain ⟨options, ho, h⟩ := exists_of_bind_ok h
  obtain ⟨store', hc, h⟩ := exists_of_bind_ok h
  cases h
  exact ⟨hr, address, options, ha, ho, hc⟩

/-- The range, the address and the deadline are accepted. -/
structure Accepts (env : Environment) (c : Connection) (j : Job) (address : String) : Prop where
  range : ∃ range, j.range env.now = .ok range
  address : c.addressOr env.address = .ok address
  deadline : ∃ options, Client.Options.make (.value .null) c.deadline = .ok options

/-- A job that is not accepted is given up with its first fault.  Where only the name is not
accepted, a channel is opened, and closed again. -/
theorem run_refused {e : Fault} (h : accepted env c j = .error e) (w : World Disk) :
    ((∀ address, ¬ Accepts env c j address) ∧ (run env c j).run w = .error e w) ∨
    ∃ address, Accepts env c j address ∧
      (run env c j).run w = .error e (w.grow [.opened address c.secure, .closed]) := by
  -- The stages in their order.
  rcases of_bind_error h with hr | ⟨range, hr, h⟩
  · refine .inl ⟨fun address accepts => ?_, by rw [run, hr]; rfl⟩
    obtain ⟨range, hr'⟩ := accepts.range
    cases hr.symm.trans hr'
  rcases of_bind_error h with ha | ⟨address, ha, h⟩
  · refine .inl ⟨fun address accepts => ?_, by rw [run, hr, ha]; rfl⟩
    cases ha.symm.trans accepts.address
  rcases of_bind_error h with ho | ⟨options, ho, h⟩
  · refine .inl ⟨fun address accepts => ?_, by rw [run, hr, ha, ho]; rfl⟩
    obtain ⟨options, ho'⟩ := accepts.deadline
    cases ho.symm.trans ho'
  rcases of_bind_error h with hc | ⟨store, -, h⟩
  · refine .inr ⟨address, ⟨⟨range, hr⟩, ha, options, ho⟩, ?_⟩
    simp only [run, hr, ha, ho, hc, EStateM.run_bind, Act.run_ofExcept_ok, Act.run_note,
      run_ensuring, Act.run_ofExcept_error, World.grow_grow]
    rfl
  · cases h

/-- Nothing is done to the disk for a job that is not accepted. -/
theorem run_of_accepted_error {e : Fault} (h : accepted env c j = .error e) (w : World Disk) :
    ∃ w', (run env c j).run w = .error e w' ∧ w.Settled w' := by
  rcases run_refused h w with ⟨-, ran⟩ | ⟨address, -, ran⟩
  · exact ⟨w, ran, refl_of _ w⟩
  · exact ⟨_, ran, World.settled_grow (by simp [Event.IsChange, Event.IsDelivery]) w 0⟩

theorem of_run_configure {level : Option (Setting Log.Level)} {u : Unit} {w' : World Disk}
    (h : (configure level).run w = .ok u w') :
    level ≠ some .blank ∧ w' = w.grow (configuration level) := by
  unfold configure at h
  split at h
  · cases h
    exact ⟨nofun, by simp [configuration]⟩
  · cases h
  · rw [Act.run_note] at h
    cases h
    exact ⟨nofun, rfl⟩

/-- A run that comes to a fault does not succeed, and what it makes of the fault leaves the disk
alone. -/
theorem fails_of_report {task : Task} {e : Fault} {w' : World Disk}
    (h : (execute env args).run w = (report task e).run w') :
    Fails env args w ∧ w'.Settled ((execute env args).after w) := by
  refine ⟨fun w'' hw => run_report_ne _ _ _ _ (h.symm.trans hw), ?_⟩
  have told := respects_report task e w'
  unfold Act.after at told ⊢
  rwa [h]

/-- A command line that is accepted is carried out after the console has been set up. -/
theorem run_execute (env : Environment) (parsed : (grammar).parse args = .ok (c, j))
    (w : World Disk) :
    (execute env args).run w =
      match (configure c.logLevel).run w with
      | .ok _ w =>
        match (run env c j).run w with
        | .ok _ w => .ok 0 w
        | .error e w => (report j.task e).run w
      | .error e w => .error e w := by
  simp only [execute, parsed, EStateM.run_bind, Act.run_attempt]
  cases (configure c.logLevel).run w with
  | error e w₁ => rfl
  | ok u w₁ =>
    dsimp only
    cases (run env c j).run w₁ <;> rfl

theorem run_answered {text : String} (answered : (grammar).parse args = .error (.answer text))
    (w : World Disk) : (execute env args).run w = .ok 0 (w.grow [.printed text]) := by
  simp only [execute, answered, EStateM.run_bind, Act.run_note, EStateM.run_pure]

theorem run_complained {text : String}
    (complained : (grammar).parse args = .error (.complaint text)) (w : World Disk) :
    (execute env args).run w = .ok 2 (w.grow [.complained text]) := by
  simp only [execute, complained, EStateM.run_bind, Act.run_note, EStateM.run_pure]

theorem run_configure {level : Option (Setting Log.Level)} (h : level ≠ some .blank)
    (w : World Disk) : (configure level).run w = .ok () (w.grow (configuration level)) := by
  cases level with
  | none =>
    rw [show configuration none = [] from rfl, World.grow_nil]
    rfl
  | some setting =>
    cases setting with
    | blank => exact absurd rfl h
    | value level => exact Act.run_note _ w

/-- A run whose console can be set up leaves the world as the job leaves it, or as the report of the
job's fault does. -/
theorem after_execute (env : Environment) (parsed : (grammar).parse args = .ok (c, j))
    (level : c.logLevel ≠ some .blank) (w : World Disk) :
    let done := (run env c j).after (w.grow (configuration c.logLevel))
    (execute env args).after w = done ∨
      ∃ e, (execute env args).after w = (report j.task e).after done := by
  intro done
  have executed := run_execute env parsed w
  rw [run_configure level] at executed
  dsimp only at executed
  cases ran : (run env c j).run (w.grow (configuration c.logLevel)) with
  | ok u w₁ =>
    rw [ran] at executed
    exact .inl (by rw [Act.after_of_ok executed, ← Act.after_of_ok ran])
  | error e w₁ =>
    rw [ran] at executed
    have left : done = w₁ := Act.after_of_error ran
    exact .inr ⟨e, by simp only [Act.after, executed, left]⟩

/-- A run that gets as far as its task ends as the task does. -/
theorem Begins.run_execute {store : Client Disk} {start stop : Setting String} {w₀ : World Disk}
    (h : Begins env c j w store start stop w₀) (parsed : (grammar).parse args = .ok (c, j)) :
    (execute env args).run w =
      match (perform store start stop j.container j.task).run w₀ with
      | .ok _ w => .ok 0 (w.grow [.closed])
      | .error e w => (report j.task e).run (w.grow [.closed]) := by
  obtain ⟨address, options, ha, ho, hc, rfl⟩ := h.client
  rw [Program.run_execute env parsed w, run_configure h.level]
  dsimp only
  rw [run_accepted h.range ha ho hc]
  generalize EStateM.run _ _ = done
  cases done <;> rfl

/-- **The course of a run** on a command line that is accepted. -/
theorem execute_cases (env : Environment) (parsed : (grammar).parse args = .ok (c, j))
    (w : World Disk) :
    (∃ store start stop w₀, Begins env c j w store start stop w₀ ∧
      (execute env args).run w =
        match (perform store start stop j.container j.task).run w₀ with
        | .ok _ w => .ok 0 (w.grow [.closed])
        | .error e w => (report j.task e).run (w.grow [.closed])) ∨
    (Fails env args w ∧ w.Settled ((execute env args).after w)) := by
  have executed := run_execute env parsed w
  cases hl : (configure c.logLevel).run w with
  | error e w₁ =>
    rw [hl] at executed
    refine .inr ⟨fun w' hw => ?_, ?_⟩
    · cases executed.symm.trans hw
    · rw [Act.after_of_error executed]
      exact (respects_configure c.logLevel).of_error hl
  | ok u w₁ =>
    rw [hl] at executed
    have before := (respects_configure c.logLevel).of_ok hl
    obtain ⟨level, rfl⟩ := of_run_configure hl
    dsimp only at executed
    cases ha : accepted env c j with
    | ok done =>
      obtain ⟨store, start, stop⟩ := done
      obtain ⟨range, address, options, haddr, ho, hc⟩ := of_accepted_ok ha
      have begins : Begins env c j w store start stop _ :=
        ⟨level, range, address, options, haddr, ho, hc, rfl⟩
      exact .inl ⟨store, start, stop, _, begins, begins.run_execute parsed⟩
    | error e =>
      obtain ⟨w', ran, after⟩ := run_of_accepted_error ha (w.grow (configuration c.logLevel))
      rw [ran] at executed
      obtain ⟨fails, told⟩ := fails_of_report executed
      exact .inr ⟨fails, trans_of _ before (trans_of _ after told)⟩

end Program

end Footage
