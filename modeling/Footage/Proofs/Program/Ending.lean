import Footage.Proofs.Program.Leftover

/-!
# How a run ends

When nothing fails on a channel but remote calls, and files can be written, a run of the program on
a command line that was read ends in one of four ways.

* `Program.Completes` : the task is carried out, and the status is 0.
* `Program.Breaks` : the remote call fails, which is reported, and the status is 1.
* `Program.Refuses` : a fault of the library's own is found at the command line, which is reported,
  and the status is 2.
* `Program.Unforeseen` : any other fault that is found at the command line ends the run.

`Program.execute_ending` says that these are all ways, and that none is taken without its reason.
The faults of the last kind come from settings that were given and left blank, and from a length of
the range that is no duration or too long a one.
-/

namespace Footage

open CommandLine
open Number (Quantity)

/-- The fault is that of a remote call which ended without success. -/
def Fault.IsRpc (e : Fault) : Prop := ∃ code details, e = rpc code details

/-- A status of a remote call reaches the one who waits as it is. -/
theorem Fault.IsRpc.awaited {e : Fault} (h : e.IsRpc) : e.awaited.IsRpc := by
  obtain ⟨code, details, rfl⟩ := h
  exact ⟨code, details, rfl⟩

/-- A task can write its file: nothing stands in the way at any time. -/
def Disk.Serves (d : Disk) : Task → Prop
  | .fetch (.value path) => d.Quiet ∧ ∃ place, d.Admits path place
  | .stream (.value path) =>
    d.Quiet ∧ (∃ place, d.Admits path place) ∧ ∃ file, d.AdmitsTemporary path file
  | _ => True

namespace Program

variable {env : Environment} {args : List String} {c : Connection} {j : Job} {w : World Disk}
  {store : Client Disk} {start stop container : Setting String} {path : String} {e : Fault}

/-! ### One task -/

/-- The settings that go into the request for a task. -/
def requested (start stop container : Setting String) : Task → List (Setting String)
  | .save metadata _ => [start, stop, container, metadata]
  | _ => [start, stop, container]

/-- The fault of using a blank setting where only a path makes sense. -/
def pathless : Fault := .unsuitable "expected str, bytes or os.PathLike object, not list"

/-- A task comes to need a text where the setting is blank, and this is the fault. -/
inductive Lacks (store : Client Disk) (start stop container : Setting String) (w : World Disk) :
    Task → Fault → Prop
  /-- The settings for the request are looked at before anything else. -/
  | request {task : Task} (blank : .blank ∈ requested start stop container task)
      (first : task ≠ .stream .blank) :
      Lacks store start stop container w task Setting.blankInRequest
  /-- But where a stream goes is looked at before them. -/
  | streamed : Lacks store start stop container w (.stream .blank) pathless
  /-- Where a video goes is looked at when it has been fetched. -/
  | fetched {s t k : String} {video : Bytes} {w' : World Disk} (start_eq : start = .value s)
      (stop_eq : stop = .value t) (container_eq : container = .value k)
      (call : (store.fetch s t k).run w = .ok video w') :
      Lacks store start stop container w (.fetch .blank) pathless

theorem Lacks.eq_or {task : Task} (h : Lacks store start stop container w task e) :
    e = Setting.blankInRequest ∨ e = pathless := by
  cases h with
  | request => exact .inl rfl
  | streamed => exact .inr rfl
  | fetched => exact .inr rfl

/-- Nothing fails on the client's channel but remote calls, and the disk stays as it is. -/
structure OnlyCallsFail (store : Client Disk) : Prop where
  unhooked : store.options.hook = none
  channel : ∀ d : Disk, store.channel.Confined (· = d) Fault.IsRpc

theorem OnlyCallsFail.confined (only : OnlyCallsFail store) {P : Disk → Prop} :
    store.channel.Confined P Fault.IsRpc :=
  .of_forall_eq only.channel

/-- A file that can be written comes to hold the bytes. -/
theorem run_writeFile (quiet : w.state.Quiet) {place : Place} (admits : w.state.Admits path place)
    (bytes : Bytes) :
    (writeFile (.value path) bytes).run w =
      .ok () ((w.change (.written place [])).change (.written place bytes)) := by
  have empty : (w.change (.written place [])).state.content place = [] :=
    Disk.content_put_self w.state admits.2.ne_nil []
  have created := Files.quiet_change quiet (.written place [])
  have appended := Files.quiet_change created (.written place bytes)
  simp only [writeFile, asPath, EStateM.run_bind, EStateM.run_pure, Files.run_create quiet admits,
    Files.run_append created, empty, List.nil_append, Files.run_close appended]

/-- A download whose file can be written fails only when a setting is blank, or when the remote
call fails. -/
theorem download_ending (only : OnlyCallsFail store) (start stop container : Setting String)
    (quiet : w.state.Quiet) {place : Place} {file : Disk.Absolute}
    (admits : w.state.Admits path place) (temporary : w.state.AdmitsTemporary path file) :
    match (download store start stop container (.value path)).run w with
    | .ok _ _ => .blank ∉ [start, stop, container]
    | .error e _ => if .blank ∈ [start, stop, container] then e = Setting.blankInRequest
        else e.IsRpc := by
  have free := Disk.find?_temporary? temporary.temporary?
  have made := Files.run_createTemporary quiet temporary
  -- All along the disk is quiet, and has the directories that it had at first.
  have begun : w.state.Steady (w.change (.written file.place [])).state :=
    ⟨Files.quiet_change quiet _, Disk.sameDirectories_put (by simp [free]) _⟩
  have ran := run_download store start stop container path w
  rw [made] at ran
  dsimp only at ran
  rcases run_texts start stop container (store.streamInto · · · (Files.append file.place))
      (w.change (.written file.place [])) with ⟨blank, failed⟩ | ⟨s, t, k, hs, ht, hk, streams⟩
  · rw [transfer, failed] at ran
    dsimp only at ran
    rw [run_cleanUp begun.1] at ran
    rw [ran]
    simp [blank]
  · have texts : .blank ∉ [start, stop, container] := by simp [hs, ht, hk]
    have confined : (store.streamInto s t k (Files.append file.place)).Confined
        w.state.Steady Fault.IsRpc :=
      Client.confined_streamInto only.unhooked only.confined s t k
        (fun bytes => Files.confined_append_steady (by simp [free]) bytes) fun _ => Fault.IsRpc.awaited
    rw [transfer, streams] at ran
    cases streamed : (store.streamInto s t k (Files.append file.place)).run
        (w.change (.written file.place [])) with
    | error e w₁ =>
      obtain ⟨kept, call⟩ := confined.of_error begun streamed
      rw [streamed] at ran
      dsimp only at ran
      rw [run_cleanUp kept.1] at ran
      rw [ran]
      simpa [texts] using call
    | ok total w₁ =>
      have kept := confined.of_ok begun streamed
      rw [streamed] at ran
      dsimp only at ran
      rw [run_settle kept.1 (admits.of_sameDirectories kept.2)] at ran
      rw [ran]
      exact texts

/-- Saving a range is a call and printing what it returns, if there are texts for its request. -/
theorem run_perform_save (store : Client Disk) (start stop container metadata : Setting String)
    (background : Bool) (w : World Disk) :
    (.blank ∈ [start, stop, container, metadata] ∧
      (perform store start stop container (.save metadata background)).run w =
        .error Setting.blankInRequest w) ∨
    ∃ s t k m, start = .value s ∧ stop = .value t ∧ container = .value k ∧ metadata = .value m ∧
      (perform store start stop container (.save metadata background)).run w =
        match (store.save s t k m background).run w with
        | .ok filename w => .ok () (w.grow [.printed (filename ++ "\n")])
        | .error e w => .error e w := by
  rcases run_texts start stop container (fun s t k => do
      let filename ← store.save s t k (← inRequest metadata) background
      Act.note (.printed (filename ++ "\n"))) w with
    ⟨blank, failed⟩ | ⟨s, t, k, hs, ht, hk, ran⟩
  · exact .inl ⟨List.mem_append_left [metadata] blank, failed⟩
  · cases metadata with
    | blank => exact .inl ⟨by simp, ran⟩
    | value m =>
      refine .inr ⟨s, t, k, m, hs, ht, hk, rfl, ran.trans ?_⟩
      show (do
        let filename ← store.save s t k m background
        Act.note (.printed (filename ++ "\n"))).run w = _
      simp only [EStateM.run_bind, Act.run_note]
      cases (store.save s t k m background).run w <;> rfl

/-- **How a task ends** whose file can be written: it is carried out, or a setting is blank where a
text is needed, or the remote call fails. -/
theorem perform_cases (only : OnlyCallsFail store) (start stop container : Setting String)
    {task : Task} (serves : w.state.Serves task) :
    (∃ w', (perform store start stop container task).run w = .ok () w') ∨
    ∃ e w', (perform store start stop container task).run w = .error e w' ∧
      (e.IsRpc ∨ Lacks store start stop container w task e) := by
  cases task with
  | fetch output =>
    rcases run_perform_fetch store start stop container output w with
      ⟨blank, failed⟩ | ⟨s, t, k, hs, ht, hk, performed⟩
    · exact .inr ⟨_, w, failed, .inr (.request blank nofun)⟩
    · have confined := Client.confined_fetch only.unhooked (only.channel w.state) s t k
      cases fetched : (store.fetch s t k).run w with
      | error e w₁ =>
        rw [fetched] at performed
        exact .inr ⟨e, w₁, performed, .inl (confined.of_error rfl fetched).2⟩
      | ok video w₁ =>
        have same := confined.of_ok rfl fetched
        rw [fetched] at performed
        dsimp only at performed
        rw [EStateM.run_bind] at performed
        cases output with
        | blank => exact .inr ⟨pathless, w₁, performed, .inr (.fetched hs ht hk fetched)⟩
        | value path =>
          obtain ⟨quiet, place, admits⟩ := same ▸ serves
          rw [run_writeFile quiet admits] at performed
          exact .inl ⟨_, performed⟩
  | save metadata background =>
    rcases run_perform_save store start stop container metadata background w with
      ⟨blank, failed⟩ | ⟨s, t, k, m, -, -, -, -, performed⟩
    · exact .inr ⟨_, w, failed, .inr (.request blank nofun)⟩
    · have confined :=
        Client.confined_save only.unhooked (only.channel w.state) s t k m background
      cases saved : (store.save s t k m background).run w with
      | error e w₁ =>
        rw [saved] at performed
        exact .inr ⟨e, w₁, performed, .inl (confined.of_error rfl saved).2⟩
      | ok filename w₁ =>
        rw [saved] at performed
        exact .inl ⟨_, performed⟩
  | stream output =>
    cases output with
    | blank => exact .inr ⟨pathless, w, rfl, .inr .streamed⟩
    | value path =>
      obtain ⟨quiet, ⟨place, admits⟩, file, temporary⟩ := serves
      have ended := download_ending only start stop container quiet admits temporary
      rw [run_perform_stream]
      cases hd : (download store start stop container (.value path)).run w with
      | ok total w₁ => exact .inl ⟨_, rfl⟩
      | error e w₁ =>
        rw [hd] at ended
        refine .inr ⟨e, w₁, rfl, ?_⟩
        dsimp only at ended
        split at ended
        · next blank => exact .inr (ended ▸ .request blank nofun)
        · exact .inl ended

/-- A text that a task lacks ends it. -/
theorem Lacks.exists_run_perform (only : OnlyCallsFail store) {task : Task}
    (serves : w.state.Serves task) (h : Lacks store start stop container w task e) :
    ∃ w', (perform store start stop container task).run w = .error e w' := by
  cases h with
  | streamed => exact ⟨w, rfl⟩
  | @fetched s t k video w' hs ht hk call =>
    rcases run_perform_fetch store start stop container .blank w with
      ⟨blank, -⟩ | ⟨s', t', k', hs', ht', hk', performed⟩
    · simp [hs, ht, hk] at blank
    · obtain rfl : s = s' := Setting.value.inj (hs.symm.trans hs')
      obtain rfl : t = t' := Setting.value.inj (ht.symm.trans ht')
      obtain rfl : k = k' := Setting.value.inj (hk.symm.trans hk')
      rw [call] at performed
      exact ⟨w', performed⟩
  | request blank first =>
    cases task with
    | fetch output =>
      rcases run_perform_fetch store start stop container output w with
        ⟨-, failed⟩ | ⟨s, t, k, rfl, rfl, rfl, -⟩
      · exact ⟨w, failed⟩
      · simp [requested] at blank
    | save metadata background =>
      rcases run_perform_save store start stop container metadata background w with
        ⟨-, failed⟩ | ⟨s, t, k, m, rfl, rfl, rfl, rfl, -⟩
      · exact ⟨w, failed⟩
      · simp [requested] at blank
    | stream output =>
      cases output with
      | blank => exact absurd rfl first
      | value path =>
        obtain ⟨quiet, ⟨place, admits⟩, file, temporary⟩ := serves
        have ended := download_ending only start stop container quiet admits temporary
        have blank : .blank ∈ [start, stop, container] := blank
        rw [run_perform_stream]
        cases hd : (download store start stop container (.value path)).run w with
        | ok total w₁ =>
          rw [hd] at ended
          exact absurd blank ended
        | error e w₁ =>
          rw [hd] at ended
          dsimp only at ended
          rw [if_pos blank] at ended
          exact ⟨w₁, by rw [ended]⟩

/-! ### One run -/

/-- A fault that is found at a command line which was read, and that is none of the library's own:
a setting is blank where a value is needed, or no range has the length. -/
inductive Unforeseen (env : Environment) (c : Connection) (j : Job) (w : World Disk) : Fault → Prop
  | level (blank : c.logLevel = some .blank) :
    Unforeseen env c j w (.unsuitable "Level not an integer or a valid string: []")
  | length (level : c.logLevel ≠ some .blank) (start : j.start = none) (stop : j.stop = none)
      (blank : j.last = some .blank) : Unforeseen env c j w (.unordered "<" "list" "int")
  | range {seconds : Quantity} {cause : RangeFault} (level : c.logLevel ≠ some .blank)
      (start : j.start = none) (stop : j.stop = none) (last : j.last = some (.value seconds))
      (refused : Timestamp.range seconds env.now = .error cause) :
    Unforeseen env c j w (.range cause)
  | deadline {range : Setting String × Setting String} {address : String}
      (level : c.logLevel ≠ some .blank) (range_eq : j.range env.now = .ok range)
      (address_eq : c.addressOr env.address = .ok address) (blank : c.timeout = some .blank) :
    Unforeseen env c j w (.unordered "<=" "list" "int")
  | name {range : Setting String × Setting String} {address : String} {options : Client.Options}
      (level : c.logLevel ≠ some .blank) (range_eq : j.range env.now = .ok range)
      (address_eq : c.addressOr env.address = .ok address)
      (options_eq : Client.Options.make (.value .null) c.deadline = .ok options)
      (blank : c.name = .blank) : Unforeseen env c j w (.unoffered "list" "prepend_remote")
  | task {store : Client Disk} {start stop : Setting String} {w₀ : World Disk} {e : Fault}
      (begins : Begins env c j w store start stop w₀)
      (lacks : Lacks store start stop j.container w₀ j.task e) : Unforeseen env c j w e

/-- The task is carried out. -/
def Completes (env : Environment) (c : Connection) (j : Job) (w w' : World Disk) : Prop :=
  ∃ store start stop w₀ w₁, Begins env c j w store start stop w₀ ∧
    (perform store start stop j.container j.task).run w₀ = .ok () w₁ ∧ w' = w₁.grow [.closed]

/-- The remote call fails, which is reported. -/
def Breaks (env : Environment) (c : Connection) (j : Job) (w : World Disk) (code : StatusCode)
    (details : String) (w' : World Disk) : Prop :=
  ∃ store start stop w₀ w₁, Begins env c j w store start stop w₀ ∧
    (perform store start stop j.container j.task).run w₀ = .error (.rpc code details) w₁ ∧
    w' = w₁.grow [.closed,
      .complained (j.task.name ++ " failed: " ++ code.name ++ ": " ++ details ++ "\n")]

/-- The first fault at the command line is one of the library's own, which is reported with the
usage of the program; nothing is done to the disk. -/
def Refuses (env : Environment) (c : Connection) (j : Job) (w : World Disk) (e : Fault)
    (w' : World Disk) : Prop :=
  c.logLevel ≠ some .blank ∧ accepted env c j = .error e ∧ e.isOwn = true ∧
    ∃ w₁, (run env c j).run (w.grow (configuration c.logLevel)) = .error e w₁ ∧ w.Settled w₁ ∧
      w' = w₁.grow [.complained ((grammar).form.complaint e.message)]

theorem run_report_of_isOwn (task : Task) (own : e.isOwn = true) (w : World Disk) :
    (report task e).run w = .ok 2 (w.grow [.complained ((grammar).form.complaint e.message)]) := by
  unfold report
  rw [if_pos own, EStateM.run_bind, Act.run_note]
  rfl

theorem run_report_rpc (task : Task) (code : StatusCode) (details : String) (w : World Disk) :
    (report task (.rpc code details)).run w = .ok 1 (w.grow [
      .complained (task.name ++ " failed: " ++ code.name ++ ": " ++ details ++ "\n")]) := by
  unfold report
  rw [if_neg (by simp [Fault.isOwn, Fault.kind, Fault.Kind.rpc])]
  dsimp only
  rw [EStateM.run_bind, Act.run_note]
  rfl

theorem run_report_of_foreign (task : Task) (own : e.isOwn = false) (call : ¬ e.IsRpc)
    (w : World Disk) : (report task e).run w = .error e w := by
  unfold report
  rw [if_neg (by simp [own])]
  split
  · next code details => exact absurd ⟨code, details, rfl⟩ call
  · rfl

theorem Unforeseen.isOwn_eq (h : Unforeseen env c j w e) : e.isOwn = false := by
  cases h with
  | @range seconds cause =>
    cases cause <;> rfl
  | task begins lacks => rcases lacks.eq_or with rfl | rfl <;> rfl
  | _ => rfl

theorem Unforeseen.not_isRpc (h : Unforeseen env c j w e) : ¬ e.IsRpc := by
  rintro ⟨code, details, rfl⟩
  cases h with
  | task begins lacks => rcases lacks.eq_or with h | h <;> cases h

theorem Completes.run_execute {w' : World Disk} (h : Completes env c j w w')
    (parsed : (grammar).parse args = .ok (c, j)) : (execute env args).run w = .ok 0 w' := by
  obtain ⟨store, start, stop, w₀, w₁, begins, performed, rfl⟩ := h
  rw [begins.run_execute parsed, performed]

theorem Breaks.run_execute {code : StatusCode} {details : String} {w' : World Disk}
    (h : Breaks env c j w code details w') (parsed : (grammar).parse args = .ok (c, j)) :
    (execute env args).run w = .ok 1 w' := by
  obtain ⟨store, start, stop, w₀, w₁, begins, performed, rfl⟩ := h
  rw [begins.run_execute parsed, performed]
  dsimp only
  rw [run_report_rpc, World.grow_grow]
  rfl

theorem Refuses.run_execute {w' : World Disk} (h : Refuses env c j w e w')
    (parsed : (grammar).parse args = .ok (c, j)) : (execute env args).run w = .ok 2 w' := by
  obtain ⟨level, -, own, w₁, ran, -, rfl⟩ := h
  rw [Program.run_execute env parsed, run_configure level]
  dsimp only
  rw [ran]
  exact run_report_of_isOwn j.task own w₁

/-- A run whose first fault is found at the command line comes to that fault. -/
theorem exists_run_execute_of_accepted_error (parsed : (grammar).parse args = .ok (c, j))
    (level : c.logLevel ≠ some .blank) (h : accepted env c j = .error e) (w : World Disk) :
    ∃ w₁, (run env c j).run (w.grow (configuration c.logLevel)) = .error e w₁ ∧ w.Settled w₁ ∧
      (execute env args).run w = (report j.task e).run w₁ := by
  obtain ⟨w₁, ran, after⟩ := run_of_accepted_error h (w.grow (configuration c.logLevel))
  have before : w.Settled (w.grow (configuration c.logLevel)) := by
    have configured := respects_configure c.logLevel w
    rwa [Act.after_of_ok (run_configure level w)] at configured
  refine ⟨w₁, ran, trans_of _ before after, ?_⟩
  rw [Program.run_execute env parsed, run_configure level]
  dsimp only
  rw [ran]

/-- The first fault at a command line is one of the library's own, or it is unforeseen. -/
theorem isOwn_or_unforeseen (level : c.logLevel ≠ some .blank) (h : accepted env c j = .error e) :
    e.isOwn = true ∨ Unforeseen env c j w e := by
  rcases of_bind_error h with hr | ⟨range, hr, h⟩
  · unfold Job.range at hr
    split at hr
    · cases hr
    · cases hr
      exact .inl rfl
    · next last start stop =>
      cases hr
      exact .inr (.length level start stop last)
    · next seconds last start stop =>
      split at hr
      · cases hr
      · next cause refused =>
        cases hr
        exact .inr (.range level start stop last refused)
    · cases hr
      exact .inl rfl
  rcases of_bind_error h with ha | ⟨address, ha, h⟩
  · unfold Connection.addressOr at ha
    dsimp only at ha
    split at ha
    · split at ha <;> cases ha
      exact .inl rfl
    · cases ha
      exact .inl rfl
  rcases of_bind_error h with ho | ⟨options, ho, h⟩
  · rw [make_null] at ho
    unfold Connection.deadline at ho
    split at ho
    · cases ho
    · next blank =>
      cases ho
      exact .inr (.deadline level hr ha blank)
    · next x given =>
      simp only [Client.Options.checkDeadline, Value.quantity?] at ho
      split at ho <;> cases ho
      exact .inl rfl
  rcases of_bind_error h with hc | ⟨store, -, h⟩
  · unfold client at hc
    split at hc
    · next blank =>
      cases hc
      exact .inr (.name level hr ha ho blank)
    · split at hc <;> cases hc
      exact .inl rfl
  · cases h

section

variable
  (transport : ∀ address secure (d : Disk),
    (env.connect address secure).Confined (· = d) Fault.IsRpc)

include transport

theorem Begins.onlyCallsFail {w₀ : World Disk} (h : Begins env c j w store start stop w₀) :
    OnlyCallsFail store := by
  obtain ⟨⟨address, channel⟩, unhooked⟩ := h.client_eq
  exact ⟨unhooked, fun d => channel ▸ transport address c.secure d⟩

theorem Unforeseen.exists_run_execute (h : Unforeseen env c j w e)
    (parsed : (grammar).parse args = .ok (c, j)) (serves : w.state.Serves j.task) :
    ∃ w', (execute env args).run w = .error e w' := by
  have own := h.isOwn_eq
  have call := h.not_isRpc
  -- A fault that is found before the task is the first one, and it is not reported.
  have at_once (level : c.logLevel ≠ some .blank) (refused : accepted env c j = .error e) :
      ∃ w', (execute env args).run w = .error e w' := by
    obtain ⟨w₁, -, -, executed⟩ := exists_run_execute_of_accepted_error parsed level refused w
    exact ⟨w₁, by rw [executed, run_report_of_foreign j.task own call]⟩
  cases h with
  | level blank =>
    refine ⟨w, ?_⟩
    rw [Program.run_execute env parsed, blank]
    rfl
  | length level start stop blank =>
    refine at_once level ?_
    simp only [accepted, Job.range, start, stop, blank]
    rfl
  | range level start stop last refused =>
    refine at_once level ?_
    simp only [accepted, Job.range, start, stop, last, refused]
    rfl
  | deadline level range address blank =>
    refine at_once level ?_
    have refused : Client.Options.make (.value .null) c.deadline =
        .error (.unordered "<=" "list" "int") := by
      simp only [Connection.deadline, blank]
      rfl
    rw [accepted, range, address, refused]
    rfl
  | name level range address options blank =>
    refine at_once level ?_
    rw [accepted, range, address, options]
    simp only [bind, Except.bind, client, blank]
  | @task store start stop w₀ e begins lacks =>
    obtain ⟨w₁, performed⟩ := lacks.exists_run_perform (begins.onlyCallsFail transport)
      (begins.state_eq ▸ serves)
    refine ⟨w₁.grow [.closed], ?_⟩
    rw [begins.run_execute parsed, performed]
    exact run_report_of_foreign j.task own call _

/-- Every outcome has its reason. -/
theorem ending_spec (parsed : (grammar).parse args = .ok (c, j)) (serves : w.state.Serves j.task) :
    match (execute env args).run w with
    | .ok 0 w' => Completes env c j w w'
    | .ok 1 w' => ∃ code details, Breaks env c j w code details w'
    | .ok 2 w' => ∃ e, Refuses env c j w e w'
    | .ok _ _ => False
    | .error e _ => Unforeseen env c j w e := by
  -- The stages in their order: the console is set up, the command line is accepted, and the task
  -- is carried out.
  have ends_unforeseen (e : Fault) (unforeseen : Unforeseen env c j w e) :
      ∃ w', (execute env args).run w = .error e w' :=
    unforeseen.exists_run_execute transport parsed serves
  by_cases level : c.logLevel = some .blank
  · obtain ⟨w', ended⟩ := ends_unforeseen _ (.level level)
    rw [ended]
    exact .level level
  cases ha : accepted env c j with
  | error e =>
    rcases isOwn_or_unforeseen level ha with own | unforeseen
    · obtain ⟨w₁, ran, settled, -⟩ := exists_run_execute_of_accepted_error parsed level ha w
      have refuses : Refuses env c j w e _ := ⟨level, ha, own, w₁, ran, settled, rfl⟩
      rw [refuses.run_execute parsed]
      exact ⟨e, refuses⟩
    · obtain ⟨w', ended⟩ := ends_unforeseen e unforeseen
      rw [ended]
      exact unforeseen
  | ok done =>
    obtain ⟨store, start, stop⟩ := done
    obtain ⟨w₀, begins⟩ : ∃ w₀, Begins env c j w store start stop w₀ := by
      obtain ⟨range, address, options, haddr, ho, hc⟩ := of_accepted_ok ha
      exact ⟨_, level, range, address, options, haddr, ho, hc, rfl⟩
    rcases perform_cases (begins.onlyCallsFail transport) start stop j.container
        (begins.state_eq ▸ serves) with ⟨w₁, done⟩ | ⟨e, w₁, failed, ⟨code, details, rfl⟩ | lacks⟩
    · have completes : Completes env c j w _ := ⟨store, start, stop, w₀, w₁, begins, done, rfl⟩
      rw [completes.run_execute parsed]
      exact completes
    · have breaks : Breaks env c j w code details _ :=
        ⟨store, start, stop, w₀, w₁, begins, failed, rfl⟩
      rw [breaks.run_execute parsed]
      exact ⟨code, details, breaks⟩
    · have unforeseen : Unforeseen env c j w e := .task begins lacks
      obtain ⟨w', ended⟩ := ends_unforeseen e unforeseen
      rw [ended]
      exact unforeseen

/-- **How a run ends**, when nothing fails on a channel but remote calls, and files can be written.

* On a command line that asks for help or for the version the status is 0, and on one that cannot
  be read it is 2; the text is printed, and nothing else happens.
* On one that was read the status is 0 just if the task is carried out, 1 just if the remote call
  fails, and 2 just if the first fault at the command line is one of the library's own; there is no
  other status.
* A fault ends the run just if it is unforeseen. -/
theorem execute_ending
    (files : ∀ c j, (grammar).parse args = .ok (c, j) → w.state.Serves j.task) :
    (∀ text, (grammar).parse args = .error (.answer text) →
      (execute env args).run w = .ok 0 (w.grow [.printed text])) ∧
    (∀ text, (grammar).parse args = .error (.complaint text) →
      (execute env args).run w = .ok 2 (w.grow [.complained text])) ∧
    ∀ c j, (grammar).parse args = .ok (c, j) →
      (∀ w', (execute env args).run w = .ok 0 w' ↔ Completes env c j w w') ∧
      (∀ w', (execute env args).run w = .ok 1 w' ↔
        ∃ code details, Breaks env c j w code details w') ∧
      (∀ w', (execute env args).run w = .ok 2 w' ↔ ∃ e, Refuses env c j w e w') ∧
      (∀ status w', (execute env args).run w = .ok status w' → status ≤ 2) ∧
      ∀ e, (∃ w', (execute env args).run w = .error e w') ↔ Unforeseen env c j w e := by
  refine ⟨fun text answered => ?_, fun text complained => ?_, fun c j parsed => ?_⟩
  · simp only [execute, answered, EStateM.run_bind, Act.run_note, EStateM.run_pure]
  · simp only [execute, complained, EStateM.run_bind, Act.run_note, EStateM.run_pure]
  · have serves := files c j parsed
    have ended := ending_spec transport parsed serves
    refine ⟨fun w' => ⟨fun h => ?_, (·.run_execute parsed)⟩, fun w' => ⟨fun h => ?_, ?_⟩,
      fun w' => ⟨fun h => ?_, ?_⟩, fun status w' h => ?_, fun e => ⟨?_, ?_⟩⟩
    · rwa [h] at ended
    · rwa [h] at ended
    · rintro ⟨code, details, breaks⟩
      exact breaks.run_execute parsed
    · rwa [h] at ended
    · rintro ⟨e, refuses⟩
      exact refuses.run_execute parsed
    · rw [h] at ended
      obtain _ | _ | _ | more := status
      · omega
      · omega
      · omega
      · exact ended.elim
    · rintro ⟨w', h⟩
      rwa [h] at ended
    · exact (·.exists_run_execute transport parsed serves)

end

/-- A command line that streams a range whose length is below zero. -/
def overdrawn : List String := ["stream", "--last=-1", "--out", "out.mp4"]

/-- A length below zero ends the run with a fault that is not reported.  With a range that is given
by its ends the run goes through. -/
theorem execute_ending_overdrawn :
    (∃ c j seconds w', (grammar).parse overdrawn = .ok (c, j) ∧
      Unforeseen (streaming none) c j (.fresh written) (.range (.negative seconds)) ∧
      (execute (streaming none) overdrawn).run (.fresh written) =
        .error (.range (.negative seconds)) w') ∧
    ∃ c j w', (grammar).parse toOutput = .ok (c, j) ∧
      Completes (streaming none) c j (.fresh written) w' := by
  have transport (address : String) (secure : Bool) (d : Disk) :
      ((streaming none).connect address secure).Confined (· = d) Fault.IsRpc :=
    Channel.confined_replay nofun nofun nofun
  have files {args : List String} {c : Connection} {j : Job}
      (parsed : (grammar).parse args = .ok (c, j)) (task : j.task = .stream (.value "out.mp4"))
      (c' : Connection) (j' : Job) (h : (grammar).parse args = .ok (c', j')) :
      written.Serves j'.task := by
    cases parsed.symm.trans h
    rw [task]
    exact ⟨rfl, ⟨["out.mp4"], by decide, [], "out.mp4", some (.file [9]), rfl, rfl, nofun, rfl⟩,
      ⟨[".videostore-00000000"], false⟩, rfl, by decide +kernel, by decide +kernel, [], rfl⟩
  constructor
  · obtain ⟨c, j, seconds, parsed, level, start, stop, last, refused, task⟩ : ∃ c j seconds,
        (grammar).parse overdrawn = .ok (c, j) ∧ c.logLevel ≠ some .blank ∧ j.start = none ∧
        j.stop = none ∧ j.last = some (.value seconds) ∧
        Timestamp.range seconds (streaming none).now = .error (.negative seconds) ∧
        j.task = .stream (.value "out.mp4") := ⟨_, _, _, rfl, nofun, rfl, rfl, rfl, rfl, rfl⟩
    have unforeseen : Unforeseen (streaming none) c j (.fresh written)
        (.range (.negative seconds)) := .range level start stop last refused
    obtain ⟨-, -, ways⟩ := execute_ending transport (w := .fresh written) (files parsed task)
    obtain ⟨-, -, -, -, fault_iff⟩ := ways c j parsed
    obtain ⟨w', ended⟩ := (fault_iff _).2 unforeseen
    exact ⟨c, j, seconds, w', parsed, unforeseen, ended⟩
  · obtain ⟨c, j, parsed, task⟩ : ∃ c j, (grammar).parse toOutput = .ok (c, j) ∧
        j.task = .stream (.value "out.mp4") := ⟨_, _, rfl, rfl⟩
    have succeeds : ¬ Fails (streaming none) toOutput (.fresh written) := by decide +kernel
    obtain ⟨w', ended⟩ := Classical.not_forall_not.1 succeeds
    obtain ⟨-, -, ways⟩ := execute_ending transport (w := .fresh written) (files parsed task)
    obtain ⟨completes_iff, -⟩ := ways c j parsed
    exact ⟨c, j, w', parsed, (completes_iff w').1 ended⟩

end Program

end Footage
