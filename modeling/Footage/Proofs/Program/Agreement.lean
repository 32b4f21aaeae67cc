import Footage.Proofs.Client.Answered
import Footage.Proofs.CommandLine.Exchange
import Footage.Proofs.Program.Ending

/-!
# Fetching and streaming agree

A range is fetched in one response, which is written where the path of the output leads, or it is
streamed in chunks, which go to a temporary file that takes this place in the end.  Where the
transport answers with a video, and streams chunks into which this video is cut, the two runs come
to the same (`Program.fetch_stream_agree`): the outputs hold the same bytes, the last records of the
logs have the same number of bytes, which is the size of the output, and no run succeeds where the
other one fails, if there is no trouble with files.
-/

namespace Footage

open CommandLine
open Feed (Takes Ending)

/-! ### A stream that goes to a file -/

/-- The second disk is the first one with a file of these bytes, but for the troubles of both; and
it has none if the first one has none. -/
structure Disk.Filled (d : Disk) (place : Place) (bytes : Bytes) (d' : Disk) : Prop where
  calm : d'.calm = d.calm.put place (.file bytes)
  quiet : d.Quiet → d'.Quiet

namespace Program

variable {d : Disk} {place : Place} {path : String} {store : Client Disk} {payload : Bytes}
  {chunks : List Bytes}

/-- From a world the act counts these bytes, which are then in the file; only troubles with the disk
can be in the way. -/
def Fills (d : Disk) (place : Place) (bytes : Bytes) (x : Act Disk Nat) (w : World Disk) : Prop :=
  match x.run w with
  | .ok total w' => total = bytes.length ∧ d.Filled place bytes w'.state
  | .error _ _ => ¬ d.Quiet

theorem Fills.of_ok {bytes : Bytes} {x : Act Disk Nat} {w w' : World Disk} {total : Nat}
    (h : Fills d place bytes x w) (ran : x.run w = .ok total w') :
    total = bytes.length ∧ d.Filled place bytes w'.state := by
  rwa [Fills, ran] at h

theorem Fills.of_error {bytes : Bytes} {x : Act Disk Nat} {w w' : World Disk} {e : Fault}
    (h : Fills d place bytes x w) (ran : x.run w = .error e w') : ¬ d.Quiet := by
  rwa [Fills, ran] at h

theorem Fills.awaited {bytes : Bytes} {x : Act Disk Nat} {w : World Disk}
    (h : Fills d place bytes x w) : Fills d place bytes x.awaited w := by
  unfold Fills at h ⊢
  rw [Act.run_awaited]
  cases hx : x.run w <;> rwa [hx] at h

/-- A chunk that is handed on is counted, and stands at the end of the file. -/
theorem fills_handOn (hp : place ≠ []) {before : Bytes} {w : World Disk}
    (filled : d.Filled place before w.state) (chunk : Bytes) :
    Fills d place (before ++ chunk) (Client.handOn (Files.append place) before.length chunk) w := by
  have confined : (Client.handOn (Files.append place) before.length chunk).Confined Disk.Quiet
      fun _ => False :=
    (Act.confined_note _).bind fun _ => (Files.confined_append place chunk).bind fun _ =>
      Act.confined_pure _
  unfold Fills
  cases h : (Client.handOn (Files.append place) before.length chunk).run w with
  | error e w' =>
    intro quiet
    exact (confined.of_error (filled.quiet quiet) h).2
  | ok n w' =>
    refine ⟨?_, ?_, fun quiet => confined.of_ok (filled.quiet quiet) h⟩
    · obtain ⟨_, w₁, -, h⟩ := Act.exists_of_run_bind_ok (x := Act.note (.delivered chunk)) h
      obtain ⟨_, w₂, -, h⟩ := Act.exists_of_run_bind_ok h
      cases h
      exact List.length_append.symm
    · rw [of_run_handOn h, filled.calm, Disk.content_put_self _ hp, Disk.put_put]

/-- **Chunks that come one after the other are counted, and the file holds all of them.** -/
theorem fills_fold (hp : place ≠ []) {feed : Feed Disk Bytes} (come : feed.Yields id chunks)
    {w : World Disk} (begun : d.Filled place [] w.state) :
    Fills d place chunks.flatten (feed.fold (Client.handOn (Files.append place)) 0) w := by
  have go {items : List (Act Disk Bytes)} {chunks : List Bytes}
      (h : List.Forall₂ (fun next chunk => Act.Yields (id · = chunk) next) items chunks)
      (taken : Nat) {before : Bytes} {w : World Disk} (filled : d.Filled place before w.state) :
      Fills d place (before ++ chunks.flatten)
        (feed.foldFrom (Client.handOn (Files.append place)) taken before.length items) w := by
    -- On the chunks: those that have come are in the file, and are counted.
    induction h generalizing taken before w with
    | nil =>
      obtain ⟨u, w', ran, -, still⟩ := come.finish w
      simp only [Fills, Feed.foldFrom, EStateM.run_bind, ran, EStateM.run_pure, List.flatten_nil,
        List.append_nil]
      exact ⟨trivial, still ▸ filled⟩
    | @cons next chunk items chunks first _ ih =>
      obtain ⟨chunk', w₁, ran, same, still⟩ := first w
      obtain rfl : chunk' = chunk := same
      have handed := fills_handOn hp (w := w₁) (still ▸ filled) chunk'
      cases h : (Client.handOn (Files.append place) before.length chunk').run w₁ with
      | error e w₂ =>
        have troubled := handed.of_error h
        simp only [Fills, Feed.foldFrom, EStateM.run_bind, ran, Act.run_guarding, h]
        cases (feed.abandon (taken + 1) e).run w₂ <;> exact troubled
      | ok n w₂ =>
        obtain ⟨rfl, filled'⟩ := handed.of_ok h
        have rest := ih (taken + 1) filled'
        simp only [Fills, Feed.foldFrom, EStateM.run_bind, ran, Act.run_guarding, h,
          List.flatten_cons, ← List.append_assoc]
        exact rest
  exact go come.items 0 begun

/-- A stream of these chunks fills its temporary file. -/
theorem fills_transfer (unhooked : store.options.hook = none)
    (streams : store.channel.Streams chunks) (hp : place ≠ []) {w : World Disk}
    (begun : d.Filled place [] w.state) (s t k : String) :
    Fills d place chunks.flatten (transfer store (.value s) (.value t) (.value k) place) w := by
  obtain ⟨feed, w₁, fed, come, still⟩ := Client.yields_feed unhooked streams s t k w
  have filled := fills_fold hp come (w := w₁) (still ▸ begun)
  refine Fills.awaited (x := do (← store.feed s t k).fold (Client.handOn (Files.append place)) 0) ?_
  rwa [Fills, EStateM.run_bind, fed]

/-! ### The two tasks -/

/-- A file can be put where the path leads, and afterwards it holds the video. -/
def Puts (path : String) (payload : Bytes) (w w' : World Disk) : Prop :=
  ∃ place, w.state.Admits path place ∧ w'.state.calm = w.state.calm.put place (.file payload)

theorem puts_of_calm {w w' : World Disk} (text : '\x00' ∉ path.toList)
    (writable : w.state.calm.Writable path place)
    (full : w'.state.calm = w.state.calm.put place (.file payload)) : Puts path payload w w' :=
  ⟨place, ⟨text, writable.of_sameDirectories w.state.sameDirectories_calm⟩, full⟩

/-- What the path leads to is then the video. -/
theorem Puts.at?_eq {w w' : World Disk} (h : Puts path payload w w') :
    w'.state.at? path = some (.file payload) := by
  obtain ⟨place, admits, full⟩ := h
  rw [← Disk.at?_calm, full]
  exact admits.2.calm.at?_put payload

/-- There is no other place to which the path leads. -/
theorem Puts.calm_eq {w w' : World Disk} (h : Puts path payload w w')
    (admits : w.state.Admits path place) :
    w'.state.calm = w.state.calm.put place (.file payload) := by
  obtain ⟨place', admits', full⟩ := h
  obtain rfl := Option.some.inj (admits'.2.place?_eq.symm.trans admits.2.place?_eq)
  exact full

theorem puts_of_run_writeFile {w w' : World Disk}
    (h : (writeFile (.value path) payload).run w = .ok () w') : Puts path payload w w' := by
  obtain ⟨place, writable, full⟩ := of_run_writeFile h
  obtain ⟨place', w₁, hc, -⟩ := Act.exists_of_run_bind_ok (x := Files.create path) h
  exact puts_of_calm (Files.notMem_of_run_checkPath hc) writable full

/-- A download that succeeds has counted the bytes of the video, and puts them where the path
leads. -/
theorem puts_of_run_download (unhooked : store.options.hook = none)
    (streams : store.channel.Streams chunks) {start stop container : Setting String} {total : Nat}
    {w w' : World Disk}
    (h : (download store start stop container (.value path)).run w = .ok total w') :
    (∃ s t k, start = .value s ∧ stop = .value t ∧ container = .value k) ∧
      total = chunks.flatten.length ∧ Puts path chunks.flatten w w' := by
  rw [run_download] at h
  split at h
  · cases h
  · next file w₁ made =>
    split at h
    · next total' w₂ streamed =>
      obtain ⟨temporary, empty, -⟩ := of_run_createTemporary made
      have hp := Disk.ne_nil_of_find? (Disk.find?_temporary? temporary)
      have quiet := (Files.confined_createTemporary (w.state.absolute path).parent).of_ok
        (w := w) (h := made)
      obtain ⟨s, t, k, rfl, rfl, rfl, -⟩ := run_transfer_ok streamed
      obtain ⟨rfl, filled⟩ :=
        (fills_transfer unhooked streams hp ⟨empty, quiet⟩ s t k).of_ok streamed
      split at h
      · next u w₃ settled =>
        cases h
        obtain ⟨w₄, place, -, -, writable, full⟩ := of_run_settle temporary filled.calm settled
        obtain ⟨_, w₅, -, moved⟩ := Act.exists_of_run_bind_ok (x := Files.close) settled
        exact ⟨⟨s, t, k, rfl, rfl, rfl⟩, rfl,
          puts_of_calm (Files.notMem_of_run_checkPath moved) writable full⟩
      · cases h
    · split at h <;> cases h

section

variable {w : World Disk} (quiet : w.state.Quiet) {file : Disk.Absolute}
  (temporary : w.state.AdmitsTemporary path file)

include quiet temporary

/-- A download whose files can be written succeeds. -/
theorem exists_run_download (unhooked : store.options.hook = none)
    (streams : store.channel.Streams chunks) (admits : w.state.Admits path place)
    (s t k : String) :
    ∃ total w', (download store (.value s) (.value t) (.value k) (.value path)).run w =
      .ok total w' := by
  have free := Disk.find?_temporary? temporary.temporary?
  have begun : w.state.Filled file.place [] (w.change (.written file.place [])).state :=
    ⟨World.calm_change w _, fun quiet => Files.quiet_change quiet _⟩
  have filled := fills_transfer unhooked streams (Disk.ne_nil_of_find? free) begun s t k
  rw [run_download, Files.run_createTemporary quiet temporary]
  dsimp only
  cases ht : (transfer store (.value s) (.value t) (.value k) file.place).run
      (w.change (.written file.place [])) with
  | error e w₁ => exact absurd quiet (filled.of_error ht)
  | ok total w₁ =>
    obtain ⟨-, full, still⟩ := filled.of_ok ht
    have quiet₁ := still quiet
    rw [Disk.calm_of_quiet quiet, Disk.calm_of_quiet quiet₁] at full
    have admits₁ : w₁.state.Admits path place := full ▸ (Disk.admits_put_iff free _).2 admits
    dsimp only
    rw [run_settle quiet₁ admits₁]
    exact ⟨total, _, rfl⟩

/-- A download without all texts for its request fails, and leaves the disk as it was. -/
theorem exists_run_download_error (store : Client Disk) {start stop container : Setting String}
    (blank : .blank ∈ [start, stop, container]) :
    ∃ e w', (download store start stop container (.value path)).run w = .error e w' ∧
      w'.state.calm = w.state.calm := by
  have free := Disk.find?_temporary? temporary.temporary?
  have begun := Files.quiet_change quiet (.written file.place [])
  rcases run_texts start stop container (store.streamInto · · · (Files.append file.place))
      (w.change (.written file.place [])) with ⟨-, failed⟩ | ⟨s, t, k, rfl, rfl, rfl, -⟩
  · rw [run_download, Files.run_createTemporary quiet temporary]
    dsimp only
    rw [transfer, failed]
    dsimp only
    rw [run_cleanUp begun]
    refine ⟨_, _, rfl, ?_⟩
    rw [World.calm_change, World.calm_change, Disk.calm_of_quiet quiet]
    exact Disk.drop_put_of_free (Disk.ne_nil_of_find? free) free _
  · simp at blank

end

/-! ### The two runs -/

variable {env env' : Environment} {args args' : List String} {c : Connection} {j : Job}
  {output : String} {w : World Disk}

/-- The program comes to carry out the task, with texts for its request. -/
def Ready (env : Environment) (c : Connection) (j : Job) (w : World Disk) : Prop :=
  ∃ store start stop container w₀, Begins env c j w store (.value start) (.value stop) w₀ ∧
    j.container = .value container

/-- It does so whatever the channel is, and whatever the task. -/
theorem Ready.congr (now : env'.now = env.now) (address : env'.address = env.address)
    {task task' : Task} (h : Ready env c { j with task := task } w) :
    Ready env' c { j with task := task' } w := by
  obtain ⟨store, start, stop, container, w₀, begins, hk⟩ := h
  obtain ⟨level, range, place, options, ha, ho, hc, -⟩ := begins
  obtain ⟨store', hc'⟩ : ∃ store', client c (env'.connect place c.secure) options = .ok store' := by
    unfold client at hc ⊢
    split at hc
    · cases hc
    · split at hc
      · cases hc
      · exact ⟨_, rfl⟩
  refine ⟨store', start, stop, container, _,
    ⟨level, now ▸ range, place, options, address ▸ ha, ho, hc', rfl⟩, hk⟩

/-- An entry in the log of the program. -/
def record (message : String) : Event :=
  .logged { logger := "videostore.__main__", level := .info, message, about := none }

/-- The run ends with this as the last record of the program's log, and with closing the channel. -/
def Concludes (message : String) (w' : World Disk) : Prop :=
  ∃ past, w'.journal = past ++ [record message, .closed]

theorem completes_of_run_execute (parsed : (grammar).parse args = .ok (c, j)) {w' : World Disk}
    (h : (execute env args).run w = .ok 0 w') : Completes env c j w w' := by
  rcases execute_cases env parsed w with
    ⟨store, start, stop, w₀, begins, executed⟩ | ⟨fails, -⟩
  · cases performed : (perform store start stop j.container j.task).run w₀ with
    | ok u w₁ =>
      rw [performed, h] at executed
      cases executed
      exact ⟨store, start, stop, w₀, w₁, begins, performed, rfl⟩
    | error e w₁ =>
      rw [performed, h] at executed
      exact absurd executed.symm (run_report_ne _ _ _ _)
  · exact absurd h (fails w')

/-- A run that does not get ready leaves the disk as it was, if its task does without texts. -/
theorem calm_of_not_ready (parsed : (grammar).parse args = .ok (c, j))
    (unready : ¬ Ready env c j w)
    (refuses : ∀ store {start stop w₀}, w₀.state = w.state →
      .blank ∈ [start, stop, j.container] → ∃ e w₁,
        (perform store start stop j.container j.task).run w₀ = .error e w₁ ∧
          w₁.state.calm = w.state.calm) :
    ((execute env args).after w).state.calm = w.state.calm := by
  rcases execute_cases env parsed w with
    ⟨store, start, stop, w₀, begins, executed⟩ | ⟨-, settled⟩
  · have blank : .blank ∈ [start, stop, j.container] := by
      by_contra texts
      simp only [List.mem_cons, List.not_mem_nil, or_false, not_or] at texts
      refine unready ?_
      cases start with
      | blank => exact absurd rfl texts.1
      | value s =>
        cases stop with
        | blank => exact absurd rfl texts.2.1
        | value t =>
          cases hk : j.container with
          | blank => exact absurd hk.symm texts.2.2
          | value k => exact ⟨store, s, t, k, w₀, begins, hk⟩
    obtain ⟨e, w₁, failed, still⟩ := refuses store begins.state_eq blank
    rw [failed] at executed
    obtain ⟨-, told⟩ := fails_of_report executed
    exact (trans_of World.Settled (settled_closed w₁) told).1.trans still
  · exact settled.1

theorem Puts.congr {w₀ w₁ w' : World Disk} (h : Puts path payload w₀ w₁)
    (before : w₀.state = w.state) (after : w'.state = w₁.state) : Puts path payload w w' := by
  obtain ⟨place, admits, full⟩ := h
  refine ⟨place, before ▸ admits, ?_⟩
  rw [after, full, before]

/-! #### Fetching -/

section

variable (answers : ∀ address secure, (env.connect address secure).Answers payload)
  (task : j.task = .fetch (.value output))

include answers task

/-- Where there are texts for its request, fetching is writing the video. -/
theorem Begins.run_fetch {start stop container : String} {w₀ : World Disk}
    (h : Begins env c j w store (.value start) (.value stop) w₀)
    (hk : j.container = .value container) :
    ∃ w₁, w₁.state = w.state ∧
      (perform store (.value start) (.value stop) j.container j.task).run w₀ = (do
        writeFile (.value output) payload
        log ("Wrote " ++ toString payload.length ++ " bytes to " ++ output)).run w₁ := by
  obtain ⟨⟨address, channel⟩, unhooked⟩ := h.client_eq
  obtain ⟨_, w₁, fetched, rfl, still⟩ :=
    Client.yields_fetch unhooked (channel ▸ answers address c.secure) start stop container w₀
  refine ⟨w₁, still.trans h.state_eq, ?_⟩
  rw [task, hk]
  show (do
    let video ← store.fetch start stop container
    writeFile (.value output) video
    log ("Wrote " ++ toString video.length ++ " bytes to " ++ output)).run w₀ = _
  rw [EStateM.run_bind, fetched]

variable (parsed : (grammar).parse args = .ok (c, j))

include parsed

/-- A run that fetches and succeeds puts the video where the path leads, and says how many bytes it
has. -/
theorem puts_of_fetched {w' : World Disk} (h : (execute env args).run w = .ok 0 w') :
    Ready env c j w ∧ Puts output payload w w' ∧
      Concludes ("Wrote " ++ toString payload.length ++ " bytes to " ++ output) w' := by
  obtain ⟨store, start, stop, w₀, w₁, begins, performed, rfl⟩ := completes_of_run_execute parsed h
  have shape := run_perform_fetch store start stop j.container (.value output) w₀
  rw [← task, performed] at shape
  rcases shape with ⟨-, failed⟩ | ⟨s, t, k, rfl, rfl, hk, -⟩
  · cases failed
  · obtain ⟨w₂, before, ran⟩ := begins.run_fetch answers task hk
    rw [performed] at ran
    obtain ⟨u, w₃, written, logged⟩ := Act.exists_of_run_bind_ok ran.symm
    cases logged
    exact ⟨⟨store, s, t, k, w₀, begins, hk⟩, (puts_of_run_writeFile written).congr before rfl,
      w₃.journal, by simp [record]⟩

/-- Where the video can be written, a run that gets ready succeeds. -/
theorem exists_run_fetch (ready : Ready env c j w) (quiet : w.state.Quiet)
    (admits : w.state.Admits output place) : ∃ w', (execute env args).run w = .ok 0 w' := by
  obtain ⟨store, start, stop, container, w₀, begins, hk⟩ := ready
  obtain ⟨w₁, before, ran⟩ := begins.run_fetch answers task hk
  rw [EStateM.run_bind, run_writeFile (before ▸ quiet) (before ▸ admits)] at ran
  rw [begins.run_execute parsed, ran]
  exact ⟨_, rfl⟩

omit answers in
/-- A run that does not get ready leaves the disk as it was. -/
theorem calm_of_not_fetched (unready : ¬ Ready env c j w) :
    ((execute env args).after w).state.calm = w.state.calm := by
  refine calm_of_not_ready parsed unready fun store start stop w₀ same blank => ?_
  rw [task]
  rcases run_perform_fetch store start stop j.container (.value output) w₀ with
    ⟨-, failed⟩ | ⟨s, t, k, rfl, rfl, hk, -⟩
  · exact ⟨_, w₀, failed, by rw [same]⟩
  · simp [hk] at blank

end

/-! #### Streaming -/

section

variable (streams : ∀ address secure, (env.connect address secure).Streams chunks)
  (parsed : (grammar).parse args = .ok (c, j)) (task : j.task = .stream (.value output))

include streams parsed task

/-- A run that streams and succeeds puts the chunks where the path leads, and says how many bytes
they have. -/
theorem puts_of_streamed {w' : World Disk} (h : (execute env args).run w = .ok 0 w') :
    Ready env c j w ∧ Puts output chunks.flatten w w' ∧
      Concludes ("Stream complete: wrote " ++ toString chunks.flatten.length ++ " bytes to " ++
        output) w' := by
  obtain ⟨store, start, stop, w₀, w₁, begins, performed, rfl⟩ := completes_of_run_execute parsed h
  obtain ⟨⟨address, channel⟩, unhooked⟩ := begins.client_eq
  rw [task, run_perform_stream] at performed
  split at performed
  · next total w₂ downloaded =>
    cases performed
    obtain ⟨⟨s, t, k, rfl, rfl, hk⟩, rfl, puts⟩ :=
      puts_of_run_download unhooked (channel ▸ streams address c.secure) downloaded
    exact ⟨⟨store, s, t, k, w₀, begins, hk⟩, puts.congr begins.state_eq rfl, w₂.journal,
      by simp [record]⟩
  · cases performed

variable (quiet : w.state.Quiet) {file : Disk.Absolute}
  (temporary : w.state.AdmitsTemporary output file)

include quiet temporary

/-- Where the files can be written, a run that gets ready succeeds. -/
theorem exists_run_stream (ready : Ready env c j w) (admits : w.state.Admits output place) :
    ∃ w', (execute env args).run w = .ok 0 w' := by
  obtain ⟨store, start, stop, container, w₀, begins, hk⟩ := ready
  obtain ⟨⟨address, channel⟩, unhooked⟩ := begins.client_eq
  have same := begins.state_eq
  obtain ⟨total, w₁, downloaded⟩ := exists_run_download (same ▸ quiet) (same ▸ temporary) unhooked
    (channel ▸ streams address c.secure) (same ▸ admits) start stop container
  rw [begins.run_execute parsed, task, hk, run_perform_stream, downloaded]
  exact ⟨_, rfl⟩

omit streams in
/-- A run that does not get ready leaves the disk as it was. -/
theorem calm_of_not_streamed (unready : ¬ Ready env c j w) :
    ((execute env args).after w).state.calm = w.state.calm := by
  refine calm_of_not_ready parsed unready fun store start stop w₀ same blank => ?_
  obtain ⟨e, w₁, failed, still⟩ := exists_run_download_error (same ▸ quiet) (same ▸ temporary)
    store blank
  refine ⟨e, w₁, ?_, by rw [still, same]⟩
  rw [task, run_perform_stream, failed]

end

/-- **Fetching and streaming agree.**  Let one transport answer with a video, and let another one
stream chunks into which the video is cut, in whatever way.  A command line that fetches the range
streams it with the same options when the word for the command is another one; and for each command
line that does so:

* If either run succeeds, the output holds just the video, whatever was there before, and the last
  record of the program's log has the size of the video.
* If there is no trouble with files, and the temporary file can be made, then one run succeeds just
  if the other one does.  If moreover a file can be put where the path leads, both succeed whenever
  they come to their tasks, and both leave the same disk, whether they succeed or not. -/
theorem fetch_stream_agree (now : env'.now = env.now) (address : env'.address = env.address)
    (answers : ∀ address secure, (env.connect address secure).Answers payload)
    (streams : ∀ address secure, (env'.connect address secure).Streams chunks)
    (cut : chunks.flatten = payload)
    (parsed : (grammar).parse args = .ok (c, { j with task := .fetch (.value output) }))
    (w : World Disk) :
    (∃ front back, args = front ++ "fetch" :: back ∧
      (grammar).parse (front ++ "stream" :: back) =
        .ok (c, { j with task := .stream (.value output) })) ∧
    ∀ args', (grammar).parse args' = .ok (c, { j with task := .stream (.value output) }) →
      (∀ w', (execute env args).run w = .ok 0 w' → w'.state.at? output = some (.file payload) ∧
        Concludes ("Wrote " ++ toString payload.length ++ " bytes to " ++ output) w') ∧
      (∀ w', (execute env' args').run w = .ok 0 w' → w'.state.at? output = some (.file payload) ∧
        Concludes ("Stream complete: wrote " ++ toString payload.length ++ " bytes to " ++ output)
          w') ∧
      (w.state.Quiet → ∀ file, w.state.AdmitsTemporary output file →
        (Fails env args w ↔ Fails env' args' w) ∧
        ∀ place, w.state.Admits output place →
          (Ready env c { j with task := .fetch (.value output) } w →
            ¬ Fails env args w ∧ ¬ Fails env' args' w) ∧
          ((execute env args).after w).state.calm =
            ((execute env' args').after w).state.calm) := by
  subst cut
  refine ⟨parse_exchange parsed, fun args' parsed' => ⟨fun w' h => ?_, fun w' h => ?_, ?_⟩⟩
  · obtain ⟨-, puts, said⟩ := puts_of_fetched answers rfl parsed h
    exact ⟨puts.at?_eq, said⟩
  · obtain ⟨-, puts, said⟩ := puts_of_streamed streams parsed' rfl h
    exact ⟨puts.at?_eq, said⟩
  intro quiet file temporary
  have fetches {place : Place} (admits : w.state.Admits output place)
      (ready : Ready env c { j with task := .fetch (.value output) } w) :
      ∃ w', (execute env args).run w = .ok 0 w' :=
    exists_run_fetch answers rfl parsed ready quiet admits
  have streams' {place : Place} (admits : w.state.Admits output place)
      (ready : Ready env c { j with task := .fetch (.value output) } w) :
      ∃ w', (execute env' args').run w = .ok 0 w' :=
    exists_run_stream streams parsed' rfl quiet temporary (ready.congr now address) admits
  constructor
  · constructor
    · intro fails w' h
      obtain ⟨ready, ⟨place, admits, -⟩, -⟩ := puts_of_streamed streams parsed' rfl h
      obtain ⟨w₁, ran⟩ := fetches admits (ready.congr now.symm address.symm)
      exact fails w₁ ran
    · intro fails w' h
      obtain ⟨ready, ⟨place, admits, -⟩, -⟩ := puts_of_fetched answers rfl parsed h
      obtain ⟨w₁, ran⟩ := streams' admits ready
      exact fails w₁ ran
  · intro place admits
    by_cases ready : Ready env c { j with task := .fetch (.value output) } w
    · obtain ⟨w₁, ran⟩ := fetches admits ready
      obtain ⟨w₂, ran'⟩ := streams' admits ready
      obtain ⟨-, puts, -⟩ := puts_of_fetched answers rfl parsed ran
      obtain ⟨-, puts', -⟩ := puts_of_streamed streams parsed' rfl ran'
      refine ⟨fun _ => ⟨fun fails => fails w₁ ran, fun fails => fails w₂ ran'⟩, ?_⟩
      rw [Act.after_of_ok ran, Act.after_of_ok ran', puts.calm_eq admits, puts'.calm_eq admits]
    · have unready : ¬ Ready env' c { j with task := .stream (.value output) } w :=
        fun ready' => ready (ready'.congr now.symm address.symm)
      refine ⟨fun ready' => absurd ready' ready, ?_⟩
      rw [calm_of_not_fetched rfl parsed ready,
        calm_of_not_streamed parsed' rfl quiet temporary unready]

/-- An environment in which a video has two bytes, and comes in one response or in three chunks. -/
def answering : Environment where
  now := { year := 2024 }
  address := some "localhost:8080"
  connect := fun _ _ => .replay { video := .ok [1, 2], chunks := [[1], [], [2]] }

/-- A disk on which the output has more bytes than the video. -/
def overfull : Disk where
  entries := [(["out.mp4"], .file [9, 8, 7])]
  home := []

/-- An output of three bytes has the two bytes of the video afterwards, in whatever way they
come. -/
theorem fetch_stream_agree_overfull :
    ∃ w₁ w₂, (execute answering ["fetch", "--from", "a", "--to", "b", "--out", "out.mp4"]).run
        (.fresh overfull) = .ok 0 w₁ ∧
      (execute answering ["stream", "--from", "a", "--to", "b", "--out", "out.mp4"]).run
        (.fresh overfull) = .ok 0 w₂ ∧
      w₁.state.at? "out.mp4" = some (.file [1, 2]) ∧
      Concludes "Wrote 2 bytes to out.mp4" w₁ ∧
      Concludes "Stream complete: wrote 2 bytes to out.mp4" w₂ ∧
      w₁.state.calm = w₂.state.calm := by
  have temporary : overfull.AdmitsTemporary "out.mp4" ⟨[".videostore-00000000"], false⟩ :=
    ⟨rfl, by decide +kernel, by decide +kernel, [], rfl⟩
  have admits : overfull.Admits "out.mp4" ["out.mp4"] :=
    ⟨by decide, [], "out.mp4", some (.file [9, 8, 7]), rfl, rfl, nofun, rfl⟩
  have succeeds : ¬ Fails answering ["fetch", "--from", "a", "--to", "b", "--out", "out.mp4"]
      (.fresh overfull) := by decide +kernel
  have answers (address : String) (secure : Bool) :
      (answering.connect address secure).Answers [1, 2] := Channel.answers_replay rfl
  have streams (address : String) (secure : Bool) :
      (answering.connect address secure).Streams [[1], [], [2]] := Channel.streams_replay rfl
  obtain ⟨c, j, parsed, parsed'⟩ : ∃ (c : Connection) (j : Job),
      (grammar).parse ["fetch", "--from", "a", "--to", "b", "--out", "out.mp4"] =
        .ok (c, { j with task := .fetch (.value "out.mp4") }) ∧
      (grammar).parse ["stream", "--from", "a", "--to", "b", "--out", "out.mp4"] =
        .ok (c, { j with task := .stream (.value "out.mp4") }) :=
    ⟨{}, { start := some (.value "a"), stop := some (.value "b"), task := .fetch .blank }, rfl, rfl⟩
  obtain ⟨-, agree⟩ := fetch_stream_agree rfl rfl answers streams rfl parsed (.fresh overfull)
  obtain ⟨fetched, streamed, alike⟩ := agree _ parsed'
  obtain ⟨same, after⟩ := alike rfl _ temporary
  obtain ⟨w₁, ran⟩ := Classical.not_forall_not.1 succeeds
  obtain ⟨w₂, ran'⟩ := Classical.not_forall_not.1 (same.not.1 succeeds)
  obtain ⟨-, calm⟩ := after _ admits
  rw [Act.after_of_ok ran, Act.after_of_ok ran'] at calm
  exact ⟨w₁, w₂, ran, ran', (fetched w₁ ran).1, (fetched w₁ ran).2, (streamed w₂ ran').2, calm⟩

end Program

end Footage
