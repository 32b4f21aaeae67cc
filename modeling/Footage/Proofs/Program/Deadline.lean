import Footage.Proofs.Program.Adding

/-!
# The deadline of a run

What the command line says about the deadline goes through the same check as the settings of every
client.  A deadline that passes is that of every call of the run (`Program.due_execute`), and what
the channels would do with another one makes no difference (`Program.execute_congr`).  A deadline
that does not pass is refused before a channel is opened (`Program.unsent_execute`), with the status
2 and a complaint about it if nothing before is at fault (`Program.run_execute_of_refused`).

`Program.deadlines_exact` puts this together with what holds for clients.
-/

namespace Footage

open CommandLine
open Client.Options (Allowed GivesDeadline GivesHook)
open Number (Quantity)

variable {σ α : Type}

theorem World.Silent.due {w w' : World σ} (silent : w.Silent w') (deadline : Option Quantity) :
    w.Due deadline w' :=
  silent.mono fun e quiet => by cases e <;> trivial

namespace Program

variable {env : Environment} {args : List String} {c : Connection} {j : Job}
  {deadline : Option Quantity}

/-! ### Every call has the deadline -/

/-- The settings of a run have the deadline that the command line gives. -/
theorem deadline_of_make {options : Client.Options} (gives : GivesDeadline c.deadline deadline)
    (made : Client.Options.make (.value .null) c.deadline = .ok options) :
    options.deadline = deadline :=
  ((Client.Options.make_eq_ok_iff gives).1 made).2.1

theorem due_run (gives : GivesDeadline c.deadline deadline)
    (transport : ∀ address secure, (env.connect address secure).Respects (World.Due deadline)) :
    (run env c j).Respects (World.Due deadline) :=
  adds_run (fun e routine => by cases e <;> trivial)
    (fun _ made _ => deadline_of_make gives made) transport

/-- All calls of a run have the deadline that the command line gives. -/
theorem due_execute (parsed : (grammar).parse args = .ok (c, j))
    (gives : GivesDeadline c.deadline deadline)
    (transport : ∀ address secure, (env.connect address secure).Respects World.Silent) :
    (execute env args).Respects (World.Due deadline) :=
  adds_execute (fun _ => trivial) (fun _ => trivial) parsed <| due_run gives fun address secure =>
    (transport address secure).mono fun _ _ silent => silent.due _

/-! ### Other deadlines make no difference -/

section

variable {a b : Channel Disk} {options : Client.Options}

theorem perform_congr {name : Resource.Name} (alike : a.AlikeAt name.short options.deadline b)
    (start stop container : Setting String) (task : Task) :
    perform ⟨a, name, options⟩ start stop container task =
      perform ⟨b, name, options⟩ start stop container task := by
  cases task with
  | fetch output => simp only [perform, Client.fetch_congr alike]
  | save metadata background => simp only [perform, Client.save_congr alike]
  | stream output => simp only [perform, download, Client.streamInto, Client.feed_congr alike]

theorem client_bind_congr {f g : Client Disk → Act Disk α}
    (h : ∀ name, f ⟨a, name, options⟩ = g ⟨b, name, options⟩) :
    (Act.ofExcept (client c a options) >>= f) = (Act.ofExcept (client c b options) >>= g) := by
  unfold client
  split
  · rfl
  · split
    · rfl
    · exact h _

end

/-- What the channels would do with other deadlines makes no difference to a run. -/
theorem execute_congr (parsed : (grammar).parse args = .ok (c, j))
    (gives : GivesDeadline c.deadline deadline) {connect : String → Bool → Channel Disk}
    (alike : ∀ address secure name,
      (env.connect address secure).AlikeAt name deadline (connect address secure)) :
    execute env args = execute { env with connect } args := by
  have same : run env c j = run { env with connect } c j := by
    refine bind_congr fun range => bind_congr fun address =>
      Act.ofExcept_bind_congr fun options made => bind_congr fun _ => congrArg (Act.ensuring · _) ?_
    refine client_bind_congr fun name => bind_congr fun _ => ?_
    exact perform_congr (deadline_of_make gives made ▸ alike address c.secure name.short) _ _ _ _
  simp only [execute, parsed, same]

/-! ### What is refused -/

/-- The complaint about a deadline that is refused. -/
def deadlineComplaint (q : Quantity) : Event :=
  .complained ((grammar).form.complaint ("timeout must be positive. Got " ++ q.text ++ "."))

section

variable (gives : GivesDeadline c.deadline deadline) (refused : ¬ Allowed deadline)

include gives refused

/-- A job with a deadline that is refused does nothing. -/
theorem run_of_refused (env : Environment) (j : Job) (w : World Disk) :
    ∃ e, accepted env c j = .error e ∧ (run env c j).run w = .error e w := by
  have unmade (options : Client.Options) :
      Client.Options.make (.value .null) c.deadline ≠ .ok options := fun made =>
    refused ((Client.Options.make_eq_ok_iff gives).1 made).2.2
  cases ha : accepted env c j with
  | ok done =>
    obtain ⟨-, address, options, -, made, -⟩ := of_accepted_ok ha
    exact absurd made (unmade options)
  | error e =>
    rcases run_refused ha w with ⟨-, ran⟩ | ⟨address, accepts, -⟩
    · exact ⟨e, rfl, ran⟩
    · obtain ⟨options, made⟩ := accepts.deadline
      exact absurd made (unmade options)

/-- No channel is opened, and no call is made, with a deadline that is refused. -/
theorem unsent_execute (parsed : (grammar).parse args = .ok (c, j)) :
    (execute env args).Respects World.Unsent := by
  refine adds_execute (fun _ => rfl) (fun _ => rfl) parsed fun w => ?_
  obtain ⟨e, -, ran⟩ := run_of_refused gives refused env j w
  rw [Act.after_of_error ran]
  exact refl_of World.Unsent w

/-- When the console, the range and the address are accepted, the complaint is about the
deadline. -/
theorem run_execute_of_refused (parsed : (grammar).parse args = .ok (c, j))
    (level : c.logLevel ≠ some .blank) {range : Setting String × Setting String}
    (hr : j.range env.now = .ok range) {address : String}
    (ha : c.addressOr env.address = .ok address) :
    ∃ q, deadline = some q ∧ ∀ w, (execute env args).run w =
      .ok 2 ((w.grow (configuration c.logLevel)).grow [deadlineComplaint q]) := by
  obtain ⟨cause, made, complaint⟩ :=
    Client.Options.make_of_not_allowed gives refused (.value .null)
  obtain ⟨q, is, rfl⟩ := complaint none .absent
  have first : accepted env c j = .error (.misuse (.timeout q)) := by
    simp only [accepted, hr, ha, made]
    rfl
  refine ⟨q, is, fun w => ?_⟩
  obtain ⟨e, he, ran⟩ := run_of_refused gives refused env j
    (w.grow (configuration c.logLevel))
  cases first.symm.trans he
  rw [run_execute env parsed, run_configure level]
  dsimp only
  rw [ran]
  exact run_report_of_isOwn j.task rfl _

end

/-- **A deadline that was accepted is above zero, or is not a number, and every call has it.**  Take
any quantity that is given as a deadline, or none:

* Settings are made with it just if it is above zero or is not a number, or if it is none, and then
  it is the deadline of the settings.  Every other one is refused as a misuse.
* In every session of every client with these settings the calls have this deadline: what the
  channel would do with another one makes no difference, and all calls in the journal have it.
* The same holds for every run of the program, when the command line gives the deadline.  With one
  that is refused no channel is opened and no call is made; the run ends with the status 2 and a
  complaint about it, if the console, the range and the address are accepted.

The channels and the callbacks make no calls of their own. -/
theorem deadlines_exact {given : Value} {deadline : Option Quantity}
    (gives : GivesDeadline given deadline) :
    (∀ hook o, Client.Options.make hook given = .ok o ↔
      GivesHook hook o.hook ∧ o.deadline = deadline ∧ Allowed deadline) ∧
    (¬ Allowed deadline → ∀ hook, ∃ cause,
      Client.Options.make hook given = .error (.misuse cause) ∧
        ∀ h, GivesHook hook h → ∃ q, deadline = some q ∧ cause = .timeout q) ∧
    (∀ hook o, Client.Options.make hook given = .ok o →
      ∀ (σ : Type) (name : Resource.Name) (ops : List (Client.Operation σ)),
        (∀ a b : Channel σ, a.AlikeAt name.short deadline b →
          Client.session ⟨a, name, o⟩ ops = Client.session ⟨b, name, o⟩ ops) ∧
        ∀ channel : Channel σ, channel.Respects World.Aloof → (∀ op ∈ ops, op.Aloof) →
          (Client.session ⟨channel, name, o⟩ ops).Respects (World.Due deadline)) ∧
    ∀ args c j, (grammar).parse args = .ok (c, j) → c.deadline = given → ∀ env : Environment,
      (∀ connect : String → Bool → Channel Disk,
        (∀ address secure name,
          (env.connect address secure).AlikeAt name deadline (connect address secure)) →
        execute env args = execute { env with connect } args) ∧
      ((∀ address secure, (env.connect address secure).Respects World.Silent) →
        (execute env args).Respects (World.Due deadline)) ∧
      (¬ Allowed deadline → (execute env args).Respects World.Unsent ∧
        ∀ range address, c.logLevel ≠ some .blank → j.range env.now = .ok range →
          c.addressOr env.address = .ok address →
          ∃ q, deadline = some q ∧ ∀ w, (execute env args).run w =
            .ok 2 ((w.grow (configuration c.logLevel)).grow [deadlineComplaint q])) := by
  refine ⟨fun hook o => Client.Options.make_eq_ok_iff gives,
    fun refused hook => Client.Options.make_of_not_allowed gives refused hook,
    fun hook o made σ name ops => ?_, fun args c j parsed is env => ?_⟩
  · have kept : o.deadline = deadline := ((Client.Options.make_eq_ok_iff gives).1 made).2.1
    subst kept
    exact ⟨fun a b alike => Client.session_congr_of_alikeAt alike ops,
      fun channel alone aloof => Client.due_session (c := ⟨channel, name, o⟩) alone aloof⟩
  · subst is
    exact ⟨fun connect alike => execute_congr parsed gives alike,
      fun transport => due_execute parsed gives transport,
      fun refused => ⟨unsent_execute gives refused parsed, fun range address level hr ha =>
        run_execute_of_refused gives refused parsed level hr ha⟩⟩

/-- A command line with a deadline. -/
def timed (seconds : String) : List String :=
  ["--timeout=" ++ seconds, "save", "--from", "a", "--to", "b"]

/-- What is not a number is accepted as a deadline although it is not above zero, by a client and by
the program, and their calls have it.  A deadline of zero seconds is refused. -/
theorem deadlines_exact_nan :
    let nan : Quantity := .real (.nan false)
    let zero : Quantity := .real (.zero false)
    let final := (execute (streaming none) (timed "nan")).after (.fresh written)
    (¬ nan.IsPositive ∧ ∃ o, Client.Options.make (.value .null) (.real (.nan false)) = .ok o ∧
      ∀ name, (Client.session ⟨.replay {}, name, o⟩ [.fetch "a" "b" "mp4"]).Respects
        (World.Due (σ := Unit) (some nan))) ∧
    (World.Due (some nan) (.fresh written) final ∧
      final.journal.filter Event.isOutgoing = [.opened "localhost:8080" false,
        .called (.save { name := "vs-1", start := "a", stop := "b", container := "mp4",
                         metadata := "", background := false, requestId := "id" }) (some nan)]) ∧
    ∃ w', (execute (streaming none) (timed "0")).run (.fresh written) = .ok 2 w' ∧
      World.Unsent (.fresh written) w' ∧ w'.journal = [deadlineComplaint zero] := by
  intro nan zero final
  have unordered : nan.IsNaN := rfl
  have unallowed : ¬ Allowed (some zero) := by
    intro allowed
    have positive := (Quantity.isAtMostZero_eq_false_iff zero).2 (allowed zero rfl)
    exact absurd positive (by decide)
  obtain ⟨made, -, sessions, runs⟩ :=
    deadlines_exact (.quantity rfl : GivesDeadline (.real (.nan false)) (some nan))
  obtain ⟨-, -, -, refusals⟩ :=
    deadlines_exact (.quantity rfl : GivesDeadline (.real (.zero false)) (some zero))
  refine ⟨⟨unordered.not_isPositive, { deadline := some nan }, ?_⟩, ⟨?_, rfl⟩, ?_⟩
  · have accepted := (made (.value .null) { deadline := some nan }).2
      ⟨.absent, rfl, fun q same => .inr (Option.some.inj same ▸ unordered)⟩
    refine ⟨accepted, fun name => ?_⟩
    refine (sessions _ _ accepted Unit name _).2 _ (Channel.respects_replay _) ?_
    intro op single s streams
    obtain rfl := List.mem_singleton.1 single
    cases streams
  · exact (runs (timed "nan") _ _ rfl rfl (streaming none)).2.1
      (fun _ _ => Channel.respects_replay _) (.fresh written)
  · obtain ⟨unsent, refused⟩ := (refusals (timed "0") _ _ rfl rfl (streaming none)).2.2 unallowed
    obtain ⟨q, same, ran⟩ := refused _ _ nofun rfl rfl
    cases same
    refine ⟨_, ran _, ?_, rfl⟩
    have silent := unsent (.fresh written)
    rwa [Act.after_of_ok (ran _)] at silent

end Program

end Footage
