import Footage.Proofs.Act.Showing
import Footage.Proofs.CommandLine.Saying
import Footage.Proofs.Disk.Noting
import Footage.Proofs.Program.Ending
import Footage.Proofs.Remote.Hop

/-!
# From the command line to the channel

What the program sends for a command line in its plainest shape (`Program.execute_request`): it
opens a channel to the address, and makes one call on it, with the request of the command
(`CommandLine.Verb.request`).  Whatever the channel answers, no other call follows.
-/

namespace Footage

open CommandLine
open Number (Numeral.read? Quantity)

variable {σ α β : Type}

/-- Whether the event is that a channel was opened, or that a request was handed to it. -/
def Event.isOutgoing : Event → Bool
  | opened _ _ | called _ _ => true
  | _ => false

/-- What happens sends no request. -/
abbrev World.Unsent (w w' : World σ) : Prop := w.Adds (·.isOutgoing = false) w'

theorem World.tolerates_unsent : World.Tolerates (World.Unsent (σ := σ)) :=
  World.tolerates_adds fun e remark => by cases e <;> first | rfl | exact remark.elim

namespace Client

variable {c : Client σ} {start stop container metadata : String}

/-- A client that sends a request shows just that. -/
theorem shows_afterSending (r : Request) (w : World σ) :
    w.Shows Event.isOutgoing [.called r c.options.deadline] (c.afterSending r w) := by
  have presented : (c.presented w.journal (.request r)).filter Event.isOutgoing = [] := by
    refine List.filter_eq_nil_iff.2 fun e he => ?_
    rcases of_mem_presented he with ⟨entry, rfl⟩ | rfl <;> simp [Event.isOutgoing]
  have shown := w.shows_grow (p := Event.isOutgoing) (c.sent w.journal r) 1
  rw [sent, List.filter_append, presented] at shown
  exact shown

variable (hook : c.options.HasOrdinaryHook)

include hook

theorem shows_fetch (unsent : ∀ r deadline, (c.channel.fetch r deadline).Respects World.Unsent)
    (w : World σ) :
    w.Shows Event.isOutgoing
      [.called (.fetch (c.fetchRequest start stop container (w.supply w.drawn)))
        c.options.deadline]
      ((c.fetch start stop container).after w) := by
  have sent := shows_afterSending (c := c)
    (.fetch (c.fetchRequest start stop container (w.supply w.drawn))) w
  rw [Act.after_of_run_mapOk (run_fetch hook rfl)]
  simpa using sent.trans (World.shows_nil_of_adds (unsent _ c.options.deadline _))

theorem shows_save (unsent : ∀ r deadline, (c.channel.save r deadline).Respects World.Unsent)
    (background : Bool) (w : World σ) :
    w.Shows Event.isOutgoing
      [.called (.save (c.saveRequest start stop container metadata background
        (w.supply w.drawn))) c.options.deadline]
      ((c.save start stop container metadata background).after w) := by
  have sent := shows_afterSending (c := c)
    (.save (c.saveRequest start stop container metadata background (w.supply w.drawn))) w
  rw [Act.after_of_run_mapOk (run_save hook rfl)]
  simpa using sent.trans (World.shows_nil_of_adds (unsent _ c.options.deadline _))

theorem shows_streamInto (channel : c.channel.Respects World.Unsent)
    {write : Bytes → Act σ Unit} (quiet : ∀ chunk, (write chunk).Respects World.Unsent)
    (w : World σ) :
    w.Shows Event.isOutgoing
      [.called (.fetchStream (c.streamRequest start stop container (w.supply w.drawn)))
        c.options.deadline]
      ((c.streamInto start stop container write).after w) := by
  rw [streamInto, Act.after_awaited]
  have sent := shows_afterSending (c := c)
    (.fetchStream (c.streamRequest start stop container (w.supply w.drawn))) w
  have opened := sent.trans (World.shows_nil_of_adds
    (channel.fetchStream (c.streamRequest start stop container (w.supply w.drawn))
      c.options.deadline _))
  rw [← Act.after_of_run_mapOk (run_feed_eq hook rfl)] at opened
  refine Act.shows_bind opened fun feed w₁ hf => ?_
  obtain ⟨r, w₂, call, hc, rfl⟩ := exists_call_of_run_feed hf
  have chunks := respects_chunks (c := c) World.tolerates_unsent (channel.call _ _ _ _ _ hc)
  refine Feed.respects_fold chunks (fun total chunk => ?_) 0 w₁
  refine Act.Respects.bind ?_ fun _ => (quiet chunk).bind fun _ => Act.respects_pure _
  exact Act.adds_note rfl

end Client

namespace CommandLine

/-- The request that a command makes for a range, under a name and with an id. -/
def Verb.request (v : Verb) (words : List Word) (name start stop requestId : String) : Request :=
  let said := Word.said words
  let container := (latest .container said).getD "mp4"
  match v with
  | fetch => .fetch { name, start, stop, container, requestId }
  | save =>
    .save { name, start, stop, container, requestId,
            metadata := (latest .metadata said).getD "", background := Word.inBackground words }
  | stream => .fetchStream { name, start, stop, container, requestId }

end CommandLine

namespace Program

theorem unsent_note {e : Event} (h : e.isOutgoing = false) :
    (Act.note e : Act Disk Unit).Respects World.Unsent :=
  Act.adds_note h

theorem unsent_log (message : String) : (log message).Respects World.Unsent :=
  Act.adds_note rfl

theorem adds_writeFile {P : Event → Prop} (changes : ∀ c, P (.changed c)) (path : Setting String)
    (bytes : Bytes) : (writeFile path bytes).Respects (World.Adds P) := by
  have given : (asPath path).Respects (World.Adds P) := by
    cases path with
    | blank => exact Act.respects_throw _
    | value path => exact Act.respects_pure path
  exact given.bind fun _ => (Files.adds_create changes _).bind fun _ =>
    (Files.adds_append changes _ _).bind fun _ => Files.adds_meetTrouble

section

variable {store : Client Disk} (hook : store.options.HasOrdinaryHook)
  (channel : store.channel.Respects World.Unsent) {s t k : String} {w : World Disk}

include hook channel

/-- A download whose temporary file can be made sends one request. -/
theorem shows_download {path : String} (quiet : w.state.Quiet) {file : Disk.Absolute}
    (temporary : w.state.AdmitsTemporary path file) :
    w.Shows Event.isOutgoing
      [.called (.fetchStream (store.streamRequest s t k (w.supply w.drawn)))
        store.options.deadline]
      ((download store (.value s) (.value t) (.value k) (.value path)).after w) := by
  have changes (c : Disk.Change) : (Event.changed c).isOutgoing = false := rfl
  have unsent (place : Place) (bytes : Bytes) :
      (Files.append place bytes).Respects World.Unsent := Files.adds_append changes place bytes
  rw [download_eq]
  refine Act.shows_bind_of_run (Act.run_state w) ⟨[], by simp, rfl⟩ ?_
  refine Act.shows_bind_of_run (Files.run_createTemporary quiet temporary)
    ⟨[.changed (.written file.place [])], rfl, rfl⟩ ?_
  refine Act.shows_bind (Act.shows_guarding ?_ fun e => ?_) fun total w₁ _ => ?_
  · exact Client.shows_streamInto hook channel (unsent file.place) _
  · exact Files.adds_meetTrouble.bind fun _ => Files.adds_remove changes _
  · refine Act.Respects.bind ?_ (fun _ => Act.respects_pure _) w₁
    exact Files.adds_meetTrouble.bind fun _ => Files.adds_move changes _ _

/-- A task sends one request. -/
theorem shows_perform {v : Verb} {words : List Word}
    (serves : v = .stream → w.state.Serves (v.told words))
    (output : v = .stream → ∃ path, latest .output (Word.said words) = some path) :
    w.Shows Event.isOutgoing
      [.called (v.request words store.name.short s t (w.supply w.drawn)) store.options.deadline]
      ((perform store (.value s) (.value t) (Job.told v words).container (v.told words)).after
        w) := by
  let k := (latest .container (Word.said words)).getD "mp4"
  cases v with
  | fetch =>
    exact Act.shows_bind (x := store.fetch s t k) (Client.shows_fetch hook channel.fetch w)
      fun video w₁ _ => ((adds_writeFile (fun _ => rfl) _ video).bind fun _ => unsent_log _) w₁
  | save =>
    let m := (latest .metadata (Word.said words)).getD ""
    exact Act.shows_bind (x := store.save s t k m (Word.inBackground words))
      (Client.shows_save hook channel.save _ w) fun filename w₁ _ => unsent_note rfl w₁
  | stream =>
    obtain ⟨path, said⟩ := output rfl
    have task : Verb.stream.told words = .stream (.value path) := by simp [Verb.told, said]
    rw [task] at serves ⊢
    obtain ⟨quiet, -, file, temporary⟩ := serves rfl
    exact Act.shows_bind (shows_download hook channel quiet temporary) fun total w₁ _ =>
      unsent_log _ w₁

end

theorem adds_report {P : Event → Prop} (complaints : ∀ text, P (.complained text)) (task : Task)
    (e : Fault) : (report task e).Respects (World.Adds P) := by
  unfold report
  split
  · exact (Act.adds_note (complaints _)).bind fun _ => Act.respects_pure 2
  · split
    · exact (Act.adds_note (complaints _)).bind fun _ => Act.respects_pure 1
    · exact Act.respects_throw _

/-- After its task the program closes the channel, and perhaps complains. -/
theorem Begins.unsent_after {env : Environment} {args : List String} {c : Connection} {j : Job}
    {w w₀ : World Disk} {store : Client Disk} {start stop : Setting String}
    (h : Begins env c j w store start stop w₀) (parsed : (grammar).parse args = .ok (c, j)) :
    World.Unsent ((perform store start stop j.container j.task).after w₀)
      ((execute env args).after w) := by
  have closed (w : World Disk) : World.Unsent w (w.grow [.closed]) :=
    World.adds_grow (by simp [Event.isOutgoing]) w 0
  have executed := h.run_execute parsed
  cases ran : (perform store start stop j.container j.task).run w₀ with
  | ok u w₁ =>
    rw [ran] at executed
    rw [Act.after_of_ok ran, Act.after_of_ok executed]
    exact closed w₁
  | error e w₁ =>
    rw [ran] at executed
    have reported : (execute env args).after w = (report j.task e).after (w₁.grow [.closed]) := by
      simp only [Act.after, executed]
    rw [Act.after_of_error ran, reported]
    exact trans_of _ (closed w₁) (adds_report (fun _ => rfl) j.task e _)

/-- The ends of the range that words ask for at a moment: both as they were given, or else those of
the range of the given length. -/
inductive Asks (words : List Word) (now : Calendar.Moment) (start stop : String) : Prop where
  | ends : latest .last (Word.said words) = none → latest .start (Word.said words) = some start →
      latest .stop (Word.said words) = some stop → Asks words now start stop
  | length {text : String} {x : Number.Binary64} : latest .last (Word.said words) = some text →
      latest .start (Word.said words) = none → latest .stop (Word.said words) = none →
      Numeral.read? text = some x → Timestamp.range (.real x) now = .ok (start, stop) →
      Asks words now start stop

/-- What the request calls a resource: its name, behind the remote if there is one. -/
def calledName (remote name : String) : String :=
  if remote = "" then name else remote ++ ":" ++ name

/-- A command line in its plainest shape can be carried out: it says where the server is, which
range is meant, and where the video goes, and the file can be written. -/
structure Executable (env : Environment) (said : List (General × String)) (v : Verb)
    (words : List Word) (w : World Disk) (address name start stop : String) : Prop where
  general : ∀ entry ∈ said, entry.1.Takes entry.2
  own : ∀ word ∈ words, v.Takes word
  address : (latest .address said).or env.address = some address ∧ address ≠ ""
  name : (latest .name said).getD "vs-1" = name ∧ name ≠ ""
  deadline : ∀ x, (latest .timeout said).bind Numeral.read? = some x →
    (Quantity.real x).isAtMostZero = false
  range : Asks words env.now start stop
  output : v = .save ∨ ∃ path, latest .output (Word.said words) = some path
  serves : v = .stream → w.state.Serves (v.told words)

theorem Asks.range_eq {v : Verb} {words : List Word} {now : Calendar.Moment}
    {start stop : String} (h : Asks words now start stop) :
    (Job.told v words).range now = .ok (.value start, .value stop) := by
  cases h with
  | ends last first second => simp [Job.told, Job.range, last, first, second]
  | length last first second readable range =>
    simp [Job.told, Job.range, last, first, second, readable, range]

namespace Executable

variable {env : Environment} {said : List (General × String)} {v : Verb} {words : List Word}
  {w : World Disk} {address name start stop : String}

/-- The client of the program. -/
def store (env : Environment) (said : List (General × String)) (address name : String)
    (named : name ≠ "") : Client Disk :=
  Client.make (env.connect address false) ⟨.videoStore, name, "", named⟩
    { deadline := ((latest .timeout said).bind Numeral.read?).map .real }
    ((latest .remote said).getD "")

theorem short_store (named : name ≠ "") :
    (store env said address name named).name.short =
      calledName ((latest .remote said).getD "") name := by
  simp only [store, Client.make, Resource.Name.via, Resource.Name.short, calledName]
  split <;> simp_all

/-- The program comes to carry out the task, with the settings as they were given. -/
theorem begins (h : Executable env said v words w address name start stop) :
    Begins env (Connection.told said) (Job.told v words) w
      (store env said address name h.name.2) (.value start) (.value stop)
      (w.grow (announcement (Connection.told said) (Job.told v words) address
        (store env said address name h.name.2) (.value start) (.value stop))) := by
  have addressed : (Connection.told said).addressOr env.address = .ok address := by
    obtain ⟨given, ne⟩ := h.address
    rw [Connection.addressOr, Connection.told]
    cases hl : latest General.address said with
    | none =>
      rw [hl, Option.none_or] at given
      simp [given, ne]
    | some text =>
      rw [hl, Option.some_or] at given
      cases given
      simp [ne]
  have timed : Client.Options.make (.value .null) (Connection.told said).deadline =
      .ok { deadline := ((latest .timeout said).bind Numeral.read?).map .real } := by
    rw [Connection.deadline, Connection.told]
    cases ht : (latest General.timeout said).bind Numeral.read? with
    | none => rfl
    | some x =>
      simp only [Option.map_some, Client.Options.make, Client.Options.checkDeadline,
        Value.quantity?, h.deadline x ht]
      rfl
  have made : client (Connection.told said) (env.connect address false)
      { deadline := ((latest .timeout said).bind Numeral.read?).map .real } =
        .ok (store env said address name h.name.2) := by
    obtain ⟨named, ne⟩ := h.name
    simp only [client, Connection.told, named, Resource.Name.ofBase, Resource.Name.make,
      dif_neg ne]
    rfl
  have shown : (Connection.told said).logLevel ≠ some .blank := fun blank => by cases blank
  refine ⟨shown, h.range.range_eq, address, _, addressed, timed, made, ?_⟩
  rw [show configuration (Connection.told said).logLevel = [] from rfl, World.grow_nil]

end Executable

/-- **From the command line to the channel nothing is altered.**  Whatever order the settings are
in and however often they are given, and whatever characters their texts have: one channel is
opened, to the address, and one call is made on it, with the request of the command.  Its texts are
those that were given last, the range is the one that is asked for, and the deadline is the number
of seconds that was given. -/
theorem execute_request {env : Environment} {said : List (General × String)} {v : Verb}
    {words : List Word} {w : World Disk} {address name start stop : String}
    (h : Executable env said v words w address name start stop)
    (channel : (env.connect address false).Respects World.Unsent) :
    w.Shows Event.isOutgoing
      [.opened address false,
        .called (v.request words (calledName ((latest .remote said).getD "") name) start stop
          (w.supply w.drawn)) (((latest .timeout said).bind Numeral.read?).map Quantity.real)]
      ((execute env (spoken said v words)).after w) := by
  have parsed := parse_spoken h.general h.own
    (h.output.imp_right fun ⟨path, said⟩ => ⟨path, Word.mem_said (mem_of_latest_eq_some said)⟩)
  have announced := w.shows_grow (p := Event.isOutgoing) (announcement (Connection.told said)
    (Job.told v words) address (Executable.store env said address name h.name.2) (.value start)
    (.value stop)) 0
  have hook : (Executable.store env said address name h.name.2).options.HasOrdinaryHook := nofun
  have performed := shows_perform hook channel (s := start) (t := stop)
    (w := w.grow (announcement (Connection.told said) (Job.told v words) address
      (Executable.store env said address name h.name.2) (.value start) (.value stop)))
    h.serves fun stream => h.output.resolve_left (by simp [stream])
  rw [Executable.short_store] at performed
  have whole := (announced.trans performed).trans
    (World.shows_nil_of_adds (h.begins.unsent_after parsed))
  rw [List.append_nil] at whole
  exact whole

/-- A command line with all kinds of texts, some of them said twice. -/
def outspoken : List String :=
  ["--remote=r", "--name=vs=1 --to", "--address=h:1", "--timeout=2.5", "--remote=far:near", "save",
    "--from=-1", "--async", "--to=", "--metadata=--from=2", "--from= a"]

/-- The flag and the strange texts arrive as they were said last. -/
theorem execute_request_outspoken :
    World.Shows Event.isOutgoing (.fresh written)
      [.opened "h:1" false,
        .called (.save { name := "far:near:vs=1 --to", start := " a", stop := "",
                         container := "mp4", metadata := "--from=2", background := true,
                         requestId := "id" })
          ((Numeral.read? "2.5").map .real)]
      ((execute (streaming none) outspoken).after (.fresh written)) := by
  let said : List (General × String) :=
    [(.remote, "r"), (.name, "vs=1 --to"), (.address, "h:1"), (.timeout, "2.5"),
      (.remote, "far:near")]
  let words : List Word :=
    [.given .start "-1", .background, .given .stop "", .given .metadata "--from=2",
      .given .start " a"]
  have executable : Executable (streaming none) said .save words (.fresh written) "h:1"
      "vs=1 --to" " a" "" := by
    refine ⟨?_, ?_, ⟨rfl, by decide⟩, ⟨rfl, by decide⟩, ?_, .ends rfl rfl rfl, .inl rfl, nofun⟩
    · decide
    · decide
    · decide
  exact execute_request executable (Channel.respects_replay _)

end Program

end Footage
