import Footage.Proofs.Disk.Failing
import Footage.Proofs.Program.Request

/-!
# The channel is released

Whatever the command line and the disk are, and however a run ends, what happens to channels in it
is a whole conversation (`Conversation`): at most one channel is opened, which is used for at most
one call and then closed (`Program.execute_releases`).  It is opened only if the range, the address
and the deadline have been accepted (`Program.Accepts`).

The tasks make at most one call, and open and close nothing (`Program.callsOnce_perform`); and no
fault of the library's own comes from them (`Program.outside_perform`), so that such a fault, which
ends the run with the status 2, is found before anything is done.
-/

namespace Footage

open CommandLine

variable {σ α β : Type}

/-- Whether the event is that a channel was opened, used or closed. -/
def Event.isChannel : Event → Bool
  | opened _ _ | called _ _ | closed => true
  | _ => false

/-- Nothing happens to a channel. -/
abbrev World.Silent (w w' : World σ) : Prop := w.Adds (·.isChannel = false) w'

theorem World.tolerates_silent : World.Tolerates (World.Silent (σ := σ)) :=
  World.tolerates_adds fun e remark => by cases e <;> first | rfl | exact remark.elim

/-- What happens to channels in a run: nothing, or one is opened, used for at most one call, and
closed. -/
inductive Conversation : List Event → Prop
  | silent : Conversation []
  | unused {address : String} {secure : Bool} : Conversation [.opened address secure, .closed]
  | used {address : String} {secure : Bool} {r : Request} {deadline : Option Number.Quantity} :
    Conversation [.opened address secure, .called r deadline, .closed]

/-- The event is that a request was handed to a channel. -/
def Event.IsCall (e : Event) : Prop := ∃ r deadline, e = called r deadline

/-- From the first world to the second one the disk stays as it is, and no call is made. -/
def World.Idle (w w' : World Disk) : Prop :=
  w'.state = w.state ∧ w.Adds (fun e => ¬ e.IsChange ∧ ¬ e.IsCall) w'

namespace World

instance : Std.Refl Idle := ⟨fun w => ⟨rfl, refl_of _ w⟩⟩

instance : IsTrans (World Disk) Idle where
  trans := fun _ _ _ h₁ h₂ => ⟨h₂.1.trans h₁.1, trans_of _ h₁.2 h₂.2⟩

theorem idle_grow {events : List Event} (h : ∀ e ∈ events, ¬ e.IsChange ∧ ¬ e.IsCall)
    (w : World Disk) : w.Idle (w.grow events) :=
  ⟨rfl, adds_grow h w 0⟩

end World

/-! ### At most one call -/

/-- No call at all, or a single one. -/
inductive FewCalls : List Event → Prop
  | none : FewCalls []
  | one (r : Request) (deadline : Option Number.Quantity) : FewCalls [.called r deadline]

namespace Act

/-- The act makes at most one call, and opens and closes no channel. -/
def CallsOnce (x : Act σ α) : Prop :=
  ∀ w : World σ, ∃ calls, FewCalls calls ∧ w.Shows Event.isChannel calls (x.after w)

theorem callsOnce_of_silent {x : Act σ α} (h : x.Respects World.Silent) : x.CallsOnce :=
  fun w => ⟨[], .none, World.shows_nil_of_adds (h w)⟩

theorem callsOnce_called (r : Request) (deadline : Option Number.Quantity) :
    (note (.called r deadline) : Act σ Unit).CallsOnce := by
  intro w
  refine ⟨_, .one r deadline, ?_⟩
  rw [after_of_ok (run_note _ w)]
  exact w.shows_grow [.called r deadline] 0

/-- What follows an act that makes its call makes none. -/
theorem CallsOnce.bind_run {x : Act σ α} {f : α → Act σ β} (hx : x.CallsOnce)
    (hf : ∀ w a w', x.run w = .ok a w' → (f a).Respects World.Silent) : (x >>= f).CallsOnce := by
  intro w
  obtain ⟨calls, few, shown⟩ := hx w
  exact ⟨calls, few, shows_bind shown fun a w₁ h => hf w a w₁ h w₁⟩

theorem CallsOnce.bind {x : Act σ α} {f : α → Act σ β} (hx : x.CallsOnce)
    (hf : ∀ a, (f a).Respects World.Silent) : (x >>= f).CallsOnce :=
  hx.bind_run fun _ a _ _ => hf a

/-- After an act that makes none there may be a call. -/
theorem callsOnce_bind {x : Act σ α} {f : α → Act σ β} (hx : x.Respects World.Silent)
    (hf : ∀ a, (f a).CallsOnce) : (x >>= f).CallsOnce := by
  intro w
  cases h : x.run w with
  | ok a w₁ =>
    obtain ⟨calls, few, shown⟩ := hf a w₁
    exact ⟨calls, few, shows_bind_of_run h (World.shows_nil_of_adds (hx.of_ok h)) shown⟩
  | error e w₁ =>
    refine ⟨[], .none, ?_⟩
    rw [after_of_error (x := x >>= f) (by rw [EStateM.run_bind, h])]
    exact World.shows_nil_of_adds (hx.of_error h)

theorem CallsOnce.guarding {x : Act σ α} {handler : Fault → Act σ Unit} (hx : x.CallsOnce)
    (hh : ∀ e, (handler e).Respects World.Silent) : (x.guarding handler).CallsOnce := by
  intro w
  obtain ⟨calls, few, shown⟩ := hx w
  exact ⟨calls, few, shows_guarding shown hh⟩

theorem CallsOnce.awaited {x : Act σ α} (hx : x.CallsOnce) : x.awaited.CallsOnce :=
  fun w => after_awaited x w ▸ hx w

theorem silent_drawId : (drawId : Act σ String).Respects World.Silent := by
  intro w
  rw [after_of_ok (run_drawId w)]
  exact World.adds_grow (by simp) w 1

end Act

namespace Client

variable {c : Client σ}

theorem callsOnce_send (r : Request) : (c.send r).CallsOnce :=
  Act.callsOnce_bind (respects_present World.tolerates_silent _) fun _ => Act.callsOnce_called r _

variable (channel : c.channel.Respects World.Silent)

include channel

theorem callsOnce_fetch (start stop container : String) :
    (c.fetch start stop container).CallsOnce :=
  Act.callsOnce_bind Act.silent_drawId fun _ => (callsOnce_send _).bind fun _ =>
    (channel.fetch _ _).bind fun _ => Act.respects_pure _

theorem callsOnce_save (start stop container metadata : String) (background : Bool) :
    (c.save start stop container metadata background).CallsOnce :=
  Act.callsOnce_bind Act.silent_drawId fun _ => (callsOnce_send _).bind fun _ =>
    (channel.save _ _).bind fun _ => Act.respects_pure _

theorem callsOnce_streamInto (start stop container : String) {write : Bytes → Act σ Unit}
    (silent : ∀ chunk, (write chunk).Respects World.Silent) :
    (c.streamInto start stop container write).CallsOnce := by
  have opened : (c.feed start stop container).CallsOnce :=
    Act.callsOnce_bind Act.silent_drawId fun _ => (callsOnce_send _).bind fun _ =>
      (channel.fetchStream _ _).bind fun _ => Act.respects_pure _
  refine Act.CallsOnce.awaited (opened.bind_run fun w feed w' hf => ?_)
  obtain ⟨r, w₁, call, hc, rfl⟩ := exists_call_of_run_feed hf
  have chunks := respects_chunks (c := c) World.tolerates_silent (channel.call _ _ _ _ _ hc)
  refine Feed.respects_fold chunks (fun total chunk => ?_) 0
  refine Act.Respects.bind ?_ fun _ => (silent chunk).bind fun _ => Act.respects_pure _
  exact Act.adds_note rfl

end Client

namespace Program

section

variable {store : Client Disk}

/-- A task makes at most one call. -/
theorem callsOnce_perform (channel : store.channel.Respects World.Silent)
    (start stop container : Setting String) (task : Task) :
    (perform store start stop container task).CallsOnce := by
  have given {α : Type} {s : Setting String} {next : String → Act Disk α}
      (h : ∀ text, (next text).CallsOnce) : (inRequest s >>= next).CallsOnce :=
    Act.callsOnce_bind (Act.respects_ofExcept _) h
  have changes (c : Disk.Change) : (Event.changed c).isChannel = false := rfl
  cases task with
  | fetch output =>
    refine given fun s => given fun t => given fun k => ?_
    exact (Client.callsOnce_fetch channel s t k).bind fun video =>
      (adds_writeFile changes output video).bind fun _ => Act.adds_note rfl
  | save metadata background =>
    refine given fun s => given fun t => given fun k => given fun m => ?_
    exact (Client.callsOnce_save channel s t k m background).bind fun _ => Act.adds_note rfl
  | stream output =>
    refine Act.CallsOnce.bind ?_ fun _ => Act.adds_note rfl
    cases output with
    | blank => exact Act.callsOnce_of_silent (Act.respects_throw _)
    | value path =>
      rw [download_eq]
      refine Act.callsOnce_bind Act.respects_state fun d => ?_
      refine Act.callsOnce_bind (Files.adds_createTemporary changes _) fun file => ?_
      refine (Act.CallsOnce.guarding ?_ fun e => ?_).bind fun total => ?_
      · refine given fun s => given fun t => given fun k => ?_
        exact Client.callsOnce_streamInto channel s t k fun chunk =>
          Files.adds_append changes file.place chunk
      · exact Files.adds_meetTrouble.bind fun _ => Files.adds_remove changes _
      · exact (Files.adds_meetTrouble.bind fun _ => Files.adds_move changes _ _).bind fun _ =>
          Act.respects_pure _

open Files (StaysOutside)

/-- No fault of the library's own comes from a task. -/
theorem outside_perform (unhooked : store.options.hook = none)
    (channel : store.channel.Confined Disk.Outside Fault.IsOutside)
    (start stop container : Setting String) (task : Task) :
    StaysOutside (perform store start stop container task) := by
  have given (s : Setting String) : StaysOutside (inRequest s) :=
    Act.confined_ofExcept fun e h => by cases s <;> cases h; rfl
  have placed (s : Setting String) : StaysOutside (asPath s) := by
    cases s with
    | blank => exact Act.confined_throw rfl
    | value path => exact Act.confined_pure path
  cases task with
  | fetch output =>
    refine (given start).bind fun s => (given stop).bind fun t => (given container).bind fun k => ?_
    refine (Client.confined_fetch unhooked channel s t k).bind fun video => ?_
    refine Act.Confined.bind ?_ fun _ => Act.confined_note _
    exact (placed output).bind fun path => (Files.outside_create path).bind fun place =>
      (Files.outside_append place video).bind fun _ => Files.outside_meetTrouble
  | save metadata background =>
    refine (given start).bind fun s => (given stop).bind fun t => (given container).bind fun k =>
      (given metadata).bind fun m => ?_
    exact (Client.confined_save unhooked channel s t k m background).bind fun _ =>
      Act.confined_note _
  | stream output =>
    refine Act.Confined.bind ?_ fun _ => Act.confined_note _
    cases output with
    | blank => exact Act.confined_throw rfl
    | value path =>
      rw [download_eq]
      refine Files.outside_state.bind fun d => (Files.outside_createTemporary _).bind fun file => ?_
      refine Act.Confined.bind (Act.Confined.guarding ?_ fun e _ => ?_) fun total => ?_
      · exact confined_transfer unhooked channel (fun _ => rfl) (Files.outside_append file.place)
          fun _ => Fault.IsOutside.awaited
      · exact Files.outside_meetTrouble.bind fun _ => Files.outside_remove file.place
      · exact (Files.outside_meetTrouble.bind fun _ => Files.outside_move file path).bind fun _ =>
          Act.confined_pure _

end

/-! ### One run -/

variable {env : Environment} {args : List String} {c : Connection} {j : Job} {w : World Disk}

/-- What happens to channels in a run of the program is what happens while its job is done. -/
theorem shows_execute (parsed : (grammar).parse args = .ok (c, j))
    (level : c.logLevel ≠ some .blank) {shown : List Event}
    (done : (w.grow (configuration c.logLevel)).Shows Event.isChannel shown
      ((run env c j).after (w.grow (configuration c.logLevel)))) :
    w.Shows Event.isChannel shown ((execute env args).after w) := by
  have configured : w.Shows Event.isChannel [] (w.grow (configuration c.logLevel)) := by
    refine World.shows_nil_of_adds (World.adds_grow (fun e he => ?_) w 0)
    obtain ⟨level, rfl⟩ := of_mem_configuration he
    rfl
  have whole := configured.trans done
  rcases after_execute env parsed level w with same | ⟨e, reported⟩
  · rwa [same]
  · rw [reported, ← List.append_nil shown]
    exact whole.trans (World.shows_nil_of_adds (adds_report (fun _ => rfl) j.task e _))

section

variable (transport : ∀ address secure, (env.connect address secure).Respects World.Silent)

include transport

/-- A task is carried out between opening the channel and closing it. -/
theorem shows_run {store : Client Disk} {start stop : Setting String}
    (h : accepted env c j = .ok (store, start, stop)) (w : World Disk) :
    ∃ address calls, Accepts env c j address ∧ FewCalls calls ∧
      w.Shows Event.isChannel ([.opened address c.secure] ++ calls ++ [.closed])
        ((run env c j).after w) := by
  obtain ⟨hr, address, options, ha, ho, hc⟩ := of_accepted_ok h
  have channel : store.channel.Respects World.Silent :=
    (of_client_ok hc).1 ▸ transport address c.secure
  have announced := w.shows_grow (p := Event.isChannel)
    (announcement c j address store start stop) 0
  obtain ⟨calls, few, shown⟩ := callsOnce_perform channel start stop j.container j.task
    (w.grow (announcement c j address store start stop))
  refine ⟨address, calls, ⟨⟨_, hr⟩, ha, options, ho⟩, few, ?_⟩
  have closed (w : World Disk) : w.Shows Event.isChannel [.closed] (w.grow [.closed]) :=
    w.shows_grow [.closed] 0
  have whole := (announced.trans shown).trans (closed _)
  have ran := run_accepted hr ha ho hc w
  cases performed : (perform store start stop j.container j.task).run
      (w.grow (announcement c j address store start stop)) with
  | ok u w₁ =>
    rw [performed] at ran
    rw [Act.after_of_ok performed] at whole
    rwa [Act.after_of_ok ran]
  | error e w₁ =>
    rw [performed] at ran
    rw [Act.after_of_error performed] at whole
    rwa [Act.after_of_error ran]

/-- What happens to channels while a job is done is a whole conversation. -/
theorem conversation_run (c : Connection) (j : Job) (w : World Disk) :
    ∃ shown, Conversation shown ∧ w.Shows Event.isChannel shown ((run env c j).after w) ∧
      ∀ address secure, .opened address secure ∈ shown ↔
        Accepts env c j address ∧ secure = c.secure := by
  have only {shown : List Event} {address : String} (accepts : Accepts env c j address)
      (opened : ∀ address' secure, .opened address' secure ∈ shown ↔
        address' = address ∧ secure = c.secure) (address' : String) (secure : Bool) :
      .opened address' secure ∈ shown ↔ Accepts env c j address' ∧ secure = c.secure := by
    rw [opened]
    refine and_congr_left fun _ => ⟨fun same => same ▸ accepts, fun accepts' => ?_⟩
    exact Except.ok.inj (accepts'.address.symm.trans accepts.address)
  cases ha : accepted env c j with
  | error e =>
    rcases run_refused ha w with ⟨unaccepted, ran⟩ | ⟨address, accepts, ran⟩
    · refine ⟨[], .silent, ?_, fun address secure => ?_⟩
      · rw [Act.after_of_error ran]
        exact World.shows_nil_of_adds (refl_of _ w)
      · simp [unaccepted address]
    · refine ⟨[.opened address c.secure, .closed], .unused, ?_, only accepts (by simp)⟩
      rw [Act.after_of_error ran]
      exact w.shows_grow [.opened address c.secure, .closed] 0
  | ok done =>
    obtain ⟨store, start, stop⟩ := done
    obtain ⟨address, calls, accepts, few, shown⟩ := shows_run transport ha w
    refine ⟨_, ?_, shown, only accepts ?_⟩
    · cases few with
      | none => exact .unused
      | one r deadline => exact .used
    · cases few <;> simp

/-- What happens to channels in a run of the program is a whole conversation, and one is opened
just if everything about it is accepted. -/
theorem conversation_execute (args : List String) (w : World Disk) :
    ∃ shown, Conversation shown ∧ w.Shows Event.isChannel shown ((execute env args).after w) ∧
      ∀ address secure, .opened address secure ∈ shown ↔
        ∃ c j, (grammar).parse args = .ok (c, j) ∧ c.logLevel ≠ some .blank ∧
          Accepts env c j address ∧ secure = c.secure := by
  cases parsed : (grammar).parse args with
  | error halt =>
    refine ⟨[], .silent, ?_, by simp⟩
    cases halt with
    | answer text =>
      rw [Act.after_of_ok (run_answered parsed w)]
      exact w.shows_grow [.printed text] 0
    | complaint text =>
      rw [Act.after_of_ok (run_complained parsed w)]
      exact w.shows_grow [.complained text] 0
  | ok said =>
    obtain ⟨c, j⟩ := said
    by_cases level : c.logLevel = some .blank
    · have executed := run_execute env parsed w
      rw [level] at executed
      refine ⟨[], .silent, ?_, fun address secure => ?_⟩
      · rw [Act.after_of_error executed]
        exact World.shows_nil_of_adds (refl_of _ w)
      · simp [level]
    · obtain ⟨shown, conversation, done, opened⟩ :=
        conversation_run transport c j (w.grow (configuration c.logLevel))
      refine ⟨shown, conversation, shows_execute parsed level done, fun address secure => ?_⟩
      rw [opened]
      simp [level]

end

section

variable (foreign : ∀ address secure,
  (env.connect address secure).Confined Disk.Outside Fault.IsOutside)

/-- The status 2 is that of a fault of the library's own, which is complained about. -/
theorem of_run_report {task : Task} {e : Fault} {w w' : World Disk}
    (h : (report task e).run w = .ok 2 w') :
    e.isOwn = true ∧ w' = w.grow [.complained ((grammar).form.complaint e.message)] := by
  by_cases own : e.isOwn = true
  · rw [run_report_of_isOwn task own] at h
    cases h
    exact ⟨own, rfl⟩
  · by_cases call : e.IsRpc
    · obtain ⟨code, details, rfl⟩ := call
      rw [run_report_rpc] at h
      cases h
    · rw [run_report_of_foreign task (by simpa using own) call] at h
      cases h

include foreign

/-- A fault of the library's own is found before anything is done. -/
theorem idle_of_run_error (outside : w.state.Outside) {e : Fault} {w' : World Disk}
    (own : e.isOwn = true) (h : (run env c j).run w = .error e w') : w.Idle w' := by
  cases ha : accepted env c j with
  | error e' =>
    rcases run_refused ha w with ⟨-, ran⟩ | ⟨address, -, ran⟩
    · cases ran.symm.trans h
      exact refl_of _ w
    · cases ran.symm.trans h
      exact World.idle_grow (by simp [Event.IsChange, Event.IsCall]) w
  | ok done =>
    obtain ⟨store, start, stop⟩ := done
    obtain ⟨hr, address, options, haddr, ho, hc⟩ := of_accepted_ok ha
    obtain ⟨channel, rfl⟩ := of_client_ok hc
    have performs := outside_perform (hook_of_make ho) (channel ▸ foreign address c.secure) start
      stop j.container j.task
    rw [run_accepted hr haddr ho hc] at h
    cases performed : (perform store start stop j.container j.task).run
        (w.grow (announcement c j address store start stop)) with
    | ok u w₁ =>
      rw [performed] at h
      cases h
    | error e' w₁ =>
      rw [performed] at h
      cases h
      obtain ⟨-, alien⟩ := performs.of_error (w := w.grow _) outside performed
      exact absurd own (by simp [alien])

/-- A run that ends with the status 2 has done nothing. -/
theorem idle_of_status (outside : w.state.Outside) {w' : World Disk}
    (h : (execute env args).run w = .ok 2 w') : w.Idle w' := by
  have complained (w : World Disk) (text : String) : w.Idle (w.grow [.complained text]) :=
    World.idle_grow (by simp [Event.IsChange, Event.IsCall]) w
  cases parsed : (grammar).parse args with
  | error halt =>
    cases halt with
    | answer text =>
      rw [run_answered parsed] at h
      cases h
    | complaint text =>
      rw [run_complained parsed] at h
      cases h
      exact complained w text
  | ok said =>
    obtain ⟨c, j⟩ := said
    rw [run_execute env parsed] at h
    by_cases level : c.logLevel = some .blank
    · rw [level] at h
      cases h
    · rw [run_configure level] at h
      dsimp only at h
      have configured : w.Idle (w.grow (configuration c.logLevel)) := by
        refine World.idle_grow (fun e he => ?_) w
        obtain ⟨level, rfl⟩ := of_mem_configuration he
        simp [Event.IsChange, Event.IsCall]
      cases ran : (run env c j).run (w.grow (configuration c.logLevel)) with
      | ok u w₁ =>
        rw [ran] at h
        cases h
      | error e w₁ =>
        rw [ran] at h
        obtain ⟨own, rfl⟩ := of_run_report h
        have idle := idle_of_run_error foreign (w := w.grow _) outside own ran
        exact trans_of _ configured (trans_of _ idle (complained w₁ _))

end

/-- **Faults of the command line have no effects, and the channel is always released.**  On a
transport from which no fault of the library's own comes, and which opens, calls and closes nothing
on the program's behalf:

* A run that ends with the status 2 has left the disk as it was, and has made no call.
* However a run ends, at most one channel is opened in it, which is closed once, and at most one
  call is made, before it is closed.  A channel is opened just if the range, the address and the
  deadline are accepted, and it leads to the address that is. -/
theorem execute_releases
    (transport : ∀ address secure, (env.connect address secure).Respects World.Silent)
    (foreign : ∀ address secure,
      (env.connect address secure).Confined Disk.Outside Fault.IsOutside)
    (args : List String) (outside : w.state.Outside) :
    (∀ w', (execute env args).run w = .ok 2 w' → w.Idle w') ∧
    ∃ shown, Conversation shown ∧ w.Shows Event.isChannel shown ((execute env args).after w) ∧
      ∀ address secure, .opened address secure ∈ shown ↔
        ∃ c j, (grammar).parse args = .ok (c, j) ∧ c.logLevel ≠ some .blank ∧
          Accepts env c j address ∧ secure = c.secure :=
  ⟨fun _ => idle_of_status foreign outside, conversation_execute transport args w⟩

/-- A command line with an empty name, which is refused when the channel is open already. -/
def nameless : List String := ["--name=", "fetch", "--from", "a", "--to", "b", "--out", "out.mp4"]

/-- An empty name is refused with the status 2, and the channel that was opened is closed. -/
theorem execute_releases_nameless :
    ∃ w', (execute (streaming none) nameless).run (.fresh written) = .ok 2 w' ∧
      w'.state = written ∧ ∃ shown, Conversation shown ∧
        World.Shows Event.isChannel (.fresh written) shown w' ∧
        .opened "localhost:8080" false ∈ shown := by
  have transport (address : String) (secure : Bool) :
      ((streaming none).connect address secure).Respects World.Silent := Channel.respects_replay _
  have foreign (address : String) (secure : Bool) :
      ((streaming none).connect address secure).Confined Disk.Outside Fault.IsOutside :=
    Channel.confined_replay nofun nofun nofun
  obtain ⟨idle, shown, conversation, told, opened⟩ :=
    execute_releases transport foreign nameless (w := .fresh written) nofun
  obtain ⟨w', ran⟩ : ∃ w', (execute (streaming none) nameless).run (.fresh written) = .ok 2 w' :=
    ⟨_, rfl⟩
  rw [Act.after_of_ok ran] at told
  refine ⟨w', ran, (idle w' ran).1, shown, conversation, told, (opened _ _).2 ?_⟩
  exact ⟨_, _, rfl, nofun, ⟨⟨_, rfl⟩, rfl, _, rfl⟩, rfl⟩

end Program

end Footage
