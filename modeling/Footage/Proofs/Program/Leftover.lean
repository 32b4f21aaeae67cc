import Footage.Proofs.Client.Failing
import Footage.Proofs.Disk.Quiet
import Footage.Proofs.Program.Output

/-!
# What a failed stream leaves behind

The temporary file of a stream is removed when the stream fails, and moved away when it is
complete.  It stays where it is in two cases (`Program.Strands`): when it cannot be closed or moved
after a stream that was complete, and when it cannot be closed or removed after one that failed.
In these cases the disk after the run is the former one with the temporary file, and else it is
the former one alone, or the one with the output in it (`Program.execute_leftover`).

Where files can be closed and removed at any time, the file stays exactly when the stream is
complete and the output is no place for a file, such as a directory.
-/

namespace Footage.Program

open CommandLine

variable {env : Environment} {args : List String} {c : Connection} {j : Job} {w : World Disk}
  {store : Client Disk} {path output : String} {d : Disk} {place : Place}

/-! ### One download -/

/-- A download leaves its temporary file where it is: the stream is complete, and the file cannot
be settled; or the stream fails, and the file cannot be cleaned up. -/
def Leaves (store : Client Disk) (start stop container : Setting String) (path : String)
    (w : World Disk) : Prop :=
  match (Files.createTemporary (w.state.absolute path).parent).run w with
  | .error _ _ => False
  | .ok file w =>
    match (transfer store start stop container file.place).run w with
    | .ok _ w => ∃ e w', (settle file path).run w = .error e w'
    | .error _ w => ∃ e w', (cleanUp file.place).run w = .error e w'

/-- The disk is a former one with a file at a place. -/
def Holds (d : Disk) (place : Place) (d' : Disk) : Prop := ∃ bytes, d' = d.put place (.file bytes)

theorem holds_append (bytes : Bytes) :
    (Files.append place bytes).Respects (World.Keeps (Holds d place)) := by
  intro w
  refine (Files.changes_append place bytes).keeps ?_
  rintro - - rfl ⟨former, hb⟩
  exact ⟨w.state.calm.content place ++ bytes, by rw [Disk.after, hb, Disk.put_put]⟩

/-- A clean-up that fails leaves the file, and one that returns has removed it. -/
theorem cleanUp_spec {w₂ : World Disk} (free : d.find? place = none)
    (held : Holds d place w₂.state.calm) :
    match (cleanUp place).run w₂ with
    | .ok _ w₃ => w₃.state.calm = d
    | .error _ w₃ => Holds d place w₃.state.calm := by
  have hp := Disk.ne_nil_of_find? free
  have removes : (cleanUp place).Changes w₂ fun _ c => c = .removed place :=
    Files.respects_meetTrouble.changes fun _ _ _ => Files.changes_remove place
  cases h : (cleanUp place).run w₂ with
  | error e w₃ =>
    show Holds d place w₃.state.calm
    rwa [(removes.of_error h).1]
  | ok u w₃ =>
    obtain ⟨_, w₄, rfl, untouched, rfl⟩ := removes.of_ok h
    obtain ⟨bytes, hb⟩ := held
    show (w₄.change _).state.calm = d
    rw [World.calm_change, untouched.1, hb, Disk.after, Disk.drop_put_of_free hp free]

/-- A download in its stages. -/
theorem run_download (store : Client Disk) (start stop container : Setting String) (path : String)
    (w : World Disk) :
    (download store start stop container (.value path)).run w =
      match (Files.createTemporary (w.state.absolute path).parent).run w with
      | .error e w => .error e w
      | .ok file w =>
        match (transfer store start stop container file.place).run w with
        | .ok total w =>
          match (settle file path).run w with
          | .ok _ w => .ok total w
          | .error e w => .error e w
        | .error e w =>
          match (cleanUp file.place).run w with
          | .ok _ w => .error e w
          | .error e' w => .error e' w := by
  rw [download_eq]
  simp only [EStateM.run_bind, Act.run_state, Act.run_guarding]
  cases (Files.createTemporary (w.state.absolute path).parent).run w with
  | error e w₁ => rfl
  | ok file w₁ =>
    dsimp only
    cases (transfer store start stop container file.place).run w₁ with
    | ok total w₂ =>
      dsimp only
      cases (settle file path).run w₂ <;> rfl
    | error e w₂ =>
      dsimp only
      cases (cleanUp file.place).run w₂ <;> rfl

/-- **What a download that fails leaves on the disk**: the temporary file where it could not be
disposed of, and nothing else. -/
theorem download_leftover (leaves : store.channel.LeavesDisk)
    (start stop container : Setting String) (path : String) (w : World Disk) :
    (Leaves store start stop container path w →
      ∃ e w' place, (download store start stop container (.value path)).run w = .error e w' ∧
        w.state.calm.temporary? path = some place ∧ Holds w.state.calm place w'.state.calm) ∧
    (¬ Leaves store start stop container path w →
      ∀ e w', (download store start stop container (.value path)).run w = .error e w' →
        w'.state.calm = w.state.calm) := by
  rw [run_download]
  unfold Leaves
  cases hc : (Files.createTemporary (w.state.absolute path).parent).run w with
  | error e w₁ =>
    refine ⟨False.elim, fun _ e' w' h => ?_⟩
    cases h
    exact ((Files.changes_createTemporary (w.state.absolute path).parent).of_error hc).1
  | ok file w₁ =>
    obtain ⟨temporary, empty, -⟩ := of_run_createTemporary hc
    dsimp only
    cases ht : (transfer store start stop container file.place).run w₁ with
    | ok total w₂ =>
      obtain ⟨s, t, k, chunks, -, -, -, -, full⟩ := of_run_transfer leaves hc ht
      dsimp only
      cases hs : (settle file path).run w₂ with
      | ok u w₃ =>
        refine ⟨?_, fun _ e w' h => by cases h⟩
        rintro ⟨e, w', failed⟩
        cases failed
      | error e w₃ =>
        have same := ((changes_settle file path w₂).of_error hs).1
        exact ⟨fun _ => ⟨e, w₃, file.place, rfl, temporary, chunks.flatten, same.trans full⟩,
          fun unleft => absurd ⟨e, w₃, rfl⟩ unleft⟩
    | error e w₂ =>
      have held : Holds w.state.calm file.place w₂.state.calm :=
        ((keeps_transfer leaves holds_append start stop container).of_error ht).last ⟨[], empty⟩
      have cleaned := cleanUp_spec (Disk.find?_temporary? temporary) held
      dsimp only
      cases hcl : (cleanUp file.place).run w₂ with
      | ok u w₃ =>
        rw [hcl] at cleaned
        refine ⟨?_, fun _ e' w' h => ?_⟩
        · rintro ⟨e, w', failed⟩
          cases failed
        · cases h
          exact cleaned
      | error e' w₃ =>
        rw [hcl] at cleaned
        exact ⟨fun _ => ⟨e', w₃, file.place, rfl, temporary, cleaned⟩,
          fun unleft => absurd ⟨e', w₃, rfl⟩ unleft⟩

/-! ### Downloads to a quiet disk -/

/-- A stream to a temporary file fails only when the channel does, or writing to the file, or when a
blank setting would go into the request. -/
theorem confined_transfer {P : Disk → Prop} {F : Fault → Prop}
    (unhooked : store.options.hook = none) (channel : store.channel.Confined P F)
    {start stop container : Setting String}
    (blank : .blank ∈ [start, stop, container] → F Setting.blankInRequest)
    (append : ∀ bytes, (Files.append place bytes).Confined P F) (kept : ∀ e, F e → F e.awaited) :
    (transfer store start stop container place).Confined P F := by
  intro w hp
  rcases run_texts start stop container (store.streamInto · · · (Files.append place)) w with
    ⟨missing, failed⟩ | ⟨s, t, k, -, -, -, ran⟩
  · rw [transfer, failed]
    exact ⟨hp, blank missing⟩
  · rw [transfer, ran]
    exact Client.confined_streamInto unhooked channel s t k append kept w hp

theorem run_cleanUp {w : World Disk} (quiet : w.state.Quiet) (place : Place) :
    (cleanUp place).run w = .ok () (w.change (.removed place)) := by
  simp only [cleanUp, EStateM.run_bind, Files.run_close quiet, Files.run_remove quiet]

theorem run_settle {w : World Disk} (quiet : w.state.Quiet) (admits : w.state.Admits path place)
    (file : Disk.Absolute) :
    (settle file path).run w = .ok () (w.change (.moved file.place place)) := by
  simp only [settle, EStateM.run_bind, Files.run_close quiet, Files.run_move quiet admits]

theorem exists_run_settle_error {w : World Disk} (quiet : w.state.Quiet)
    (refused : ∀ place, ¬ w.state.Admits path place) (file : Disk.Absolute) :
    ∃ e, (settle file path).run w = .error e w := by
  obtain ⟨e, failed⟩ := Files.exists_run_move_error refused file
  exact ⟨e, by simp only [settle, EStateM.run_bind, Files.run_close quiet, failed]⟩

/-- A stream that is complete has been transferred. -/
theorem Receives.run_transfer {s t k : String} {w : World Disk} {chunks : List Bytes}
    (h : Receives store s t k path w chunks) :
    ∃ file w₁ total w₂, (Files.createTemporary (w.state.absolute path).parent).run w = .ok file w₁ ∧
      (transfer store (.value s) (.value t) (.value k) file.place).run w₁ = .ok total w₂ := by
  obtain ⟨file, w₁, feed, w₂, total, w₃, made, fed, taken⟩ := h
  refine ⟨file, w₁, total, w₃, made, ?_⟩
  show (store.streamInto s t k (Files.append file.place)).run w₁ = .ok total w₃
  rw [Client.streamInto, Act.run_awaited_eq_ok_iff, EStateM.run_bind, fed]
  exact Feed.run_fold feed taken

/-- On a quiet disk a download leaves its temporary file exactly when the stream is complete and
no file can be put where the path leads. -/
theorem leaves_iff_of_quiet (leaves : store.channel.LeavesDisk)
    (unhooked : store.options.hook = none)
    (channel : store.channel.Confined Disk.Quiet fun _ => True)
    (start stop container : Setting String) {w : World Disk} (quiet : w.state.Quiet) :
    Leaves store start stop container path w ↔
      (∃ s t k chunks, start = .value s ∧ stop = .value t ∧ container = .value k ∧
        Receives store s t k path w chunks) ∧ ∀ place, ¬ w.state.Admits path place := by
  unfold Leaves
  cases hc : (Files.createTemporary (w.state.absolute path).parent).run w with
  | error e w₁ =>
    refine iff_of_false id ?_
    rintro ⟨⟨s, t, k, chunks, rfl, rfl, rfl, received⟩, -⟩
    obtain ⟨file, w₁, total, w₂, made, -⟩ := received.run_transfer
    cases hc.symm.trans made
  | ok file w₁ =>
    have quiet₁ : w₁.state.Quiet := (Files.confined_createTemporary _).of_ok quiet hc
    have streams : (transfer store start stop container file.place).Confined Disk.Quiet
        fun _ => True :=
      confined_transfer unhooked channel (fun _ => trivial) (Files.confined_append file.place)
        fun _ _ => trivial
    dsimp only
    cases ht : (transfer store start stop container file.place).run w₁ with
    | error e w₂ =>
      -- The file is cleaned up, and the stream was not complete.
      have quiet₂ := (streams.of_error quiet₁ ht).1
      refine iff_of_false ?_ ?_
      · rintro ⟨e', w₃, uncleaned⟩
        cases (run_cleanUp quiet₂ file.place).symm.trans uncleaned
      · rintro ⟨⟨s, t, k, chunks, rfl, rfl, rfl, received⟩, -⟩
        obtain ⟨file', w₁', total, w₂', made, streamed⟩ := received.run_transfer
        cases hc.symm.trans made
        cases ht.symm.trans streamed
    | ok total w₂ =>
      have quiet₂ := streams.of_ok quiet₁ ht
      obtain ⟨s, t, k, chunks, hs, ht', hk, received, full⟩ := of_run_transfer leaves hc ht
      -- A file can still be put where one could be put at first.
      have admits_iff (place : Place) : w₂.state.Admits path place ↔ w.state.Admits path place := by
        have free := Disk.find?_temporary? (of_run_createTemporary hc).1
        rw [Disk.calm_of_quiet quiet] at free full
        rw [Disk.calm_of_quiet quiet₂] at full
        rw [full]
        exact Disk.admits_put_iff free _
      constructor
      · rintro ⟨e, w₃, unsettled⟩
        refine ⟨⟨s, t, k, chunks, hs, ht', hk, received⟩, fun place admits => ?_⟩
        cases (run_settle quiet₂ ((admits_iff place).2 admits) file).symm.trans unsettled
      · rintro ⟨-, refused⟩
        obtain ⟨e, unsettled⟩ := exists_run_settle_error quiet₂
          (fun place admits => refused place ((admits_iff place).1 admits)) file
        exact ⟨e, w₂, unsettled⟩

/-! ### One run -/

/-- The run gets as far as its download, which leaves the temporary file where it is. -/
def Strands (env : Environment) (c : Connection) (j : Job) (w : World Disk) (output : String) :
    Prop :=
  ∃ store start stop w₀, Begins env c j w store start stop w₀ ∧
    Leaves store start stop j.container output w₀

theorem Begins.unique {store store' : Client Disk} {start start' stop stop' : Setting String}
    {w₀ w₀' : World Disk} (h : Begins env c j w store start stop w₀)
    (h' : Begins env c j w store' start' stop' w₀') :
    store' = store ∧ start' = start ∧ stop' = stop ∧ w₀' = w₀ := by
  obtain ⟨-, range, address, options, ha, ho, hc, rfl⟩ := h
  obtain ⟨-, range', address', options', ha', ho', hc', rfl⟩ := h'
  cases range.symm.trans range'
  cases ha.symm.trans ha'
  cases ho.symm.trans ho'
  cases hc.symm.trans hc'
  exact ⟨rfl, rfl, rfl, rfl⟩

theorem make_null (deadline : Value) : Client.Options.make (.value .null) deadline =
    (Client.Options.checkDeadline deadline).map fun deadline => { deadline } := by
  cases h : Client.Options.checkDeadline deadline <;> simp [Client.Options.make, h] <;> rfl

theorem of_client_ok {ch : Channel Disk} {options : Client.Options} {store : Client Disk}
    (h : client c ch options = .ok store) : store.channel = ch ∧ store.options = options := by
  unfold client at h
  split at h
  · cases h
  · split at h
    · cases h
    · cases h
      exact ⟨rfl, rfl⟩

theorem hook_of_make {deadline : Value} {options : Client.Options}
    (h : Client.Options.make (.value .null) deadline = .ok options) : options.hook = none := by
  rw [make_null] at h
  cases hd : Client.Options.checkDeadline deadline with
  | error e =>
    rw [hd] at h
    cases h
  | ok seconds =>
    rw [hd] at h
    rw [← Except.ok.inj h]

/-- A client that was accepted has a channel of the environment, and no hook. -/
theorem Begins.client_eq {store : Client Disk} {start stop : Setting String} {w₀ : World Disk}
    (h : Begins env c j w store start stop w₀) :
    (∃ address, store.channel = env.connect address c.secure) ∧ store.options.hook = none := by
  obtain ⟨address, options, -, ho, hc, -⟩ := h.client
  obtain ⟨channel, rfl⟩ := of_client_ok hc
  exact ⟨⟨address, channel⟩, hook_of_make ho⟩

/-- What the run of a stream comes to, when it gets as far as its download. -/
theorem Begins.run_stream {store : Client Disk} {start stop : Setting String} {w₀ : World Disk}
    (h : Begins env c j w store start stop w₀) (parsed : (grammar).parse args = .ok (c, j))
    (task : j.task = .stream (.value output)) :
    match (download store start stop j.container (.value output)).run w₀ with
    | .ok _ w₁ => ∃ w', (execute env args).run w = .ok 0 w' ∧ w'.state = w₁.state
    | .error _ w₁ => Fails env args w ∧ w₁.Settled ((execute env args).after w) := by
  have executed := h.run_execute parsed
  rw [task, run_perform_stream] at executed
  cases hd : (download store start stop j.container (.value output)).run w₀ with
  | ok total w₁ =>
    rw [hd] at executed
    exact ⟨_, executed, rfl⟩
  | error e w₁ =>
    rw [hd] at executed
    dsimp only at executed ⊢
    rw [← task] at executed
    obtain ⟨fails, told⟩ := fails_of_report executed
    exact ⟨fails, trans_of _ (settled_closed w₁) told⟩

/-- The disk after a run that streams: with the temporary file that is stranded, the former one
after any other failure, and the former one with the output after success. -/
theorem execute_stream_disk (transport : ∀ address secure, (env.connect address secure).LeavesDisk)
    (parsed : (grammar).parse args = .ok (c, j)) (task : j.task = .stream (.value output))
    (w : World Disk) :
    (Strands env c j w output → Fails env args w ∧
      ∃ place, w.state.temporary? output = some place ∧
        Holds w.state.calm place ((execute env args).after w).state.calm) ∧
    (¬ Strands env c j w output → Fails env args w →
      ((execute env args).after w).state.calm = w.state.calm) ∧
    (∀ w', (execute env args).run w = .ok 0 w' →
      ∃ chunks place, Streams env c j w output chunks ∧ w.state.calm.Writable output place ∧
        w'.state.calm = w.state.calm.put place (.file chunks.flatten)) := by
  by_cases begun : ∃ store start stop w₀, Begins env c j w store start stop w₀
  · obtain ⟨store, start, stop, w₀, begins⟩ := begun
    have leaves := begins.leavesDisk transport
    have before := begins.settled.1
    have ended := begins.run_stream parsed task
    obtain ⟨stranded, cleared⟩ := download_leftover leaves start stop j.container output w₀
    have strands_iff : Strands env c j w output ↔
        Leaves store start stop j.container output w₀ := by
      refine ⟨fun ⟨store', start', stop', w₀', begins', left⟩ => ?_,
        fun left => ⟨store, start, stop, w₀, begins, left⟩⟩
      obtain ⟨rfl, rfl, rfl, rfl⟩ := begins.unique begins'
      exact left
    rw [strands_iff]
    refine ⟨fun left => ?_, fun unleft fails => ?_, fun w' succeeded => ?_⟩
    · obtain ⟨e, w₁, place, failed, temporary, held⟩ := stranded left
      rw [failed] at ended
      rw [before] at temporary held
      rw [Disk.temporary?_calm] at temporary
      refine ⟨ended.1, place, temporary, ?_⟩
      rwa [ended.2.1]
    · cases hd : (download store start stop j.container (.value output)).run w₀ with
      | ok total w₁ =>
        rw [hd] at ended
        obtain ⟨w', succeeded, -⟩ := ended
        exact absurd succeeded (fails w')
      | error e w₁ =>
        rw [hd] at ended
        rw [ended.2.1, cleared unleft e w₁ hd, before]
    · have spec := download_spec leaves start stop j.container output w₀
      cases hd : (download store start stop j.container (.value output)).run w₀ with
      | error e w₁ =>
        rw [hd] at ended
        exact absurd succeeded (ended.1 w')
      | ok total w₁ =>
        rw [hd] at ended spec
        obtain ⟨w'', succeeded', same⟩ := ended
        cases succeeded'.symm.trans succeeded
        obtain ⟨s, t, k, chunks, w₂, source, place, rfl, rfl, hk, received, -, -, writable,
          full⟩ := spec
        rw [before] at writable full
        exact ⟨chunks, place, ⟨store, s, t, k, w₀, begins, hk, received⟩, writable, same ▸ full⟩
  · -- A run that does not get as far as its download strands nothing.
    have unstranded : ¬ Strands env c j w output := fun ⟨store, start, stop, w₀, begins, _⟩ =>
      begun ⟨store, start, stop, w₀, begins⟩
    rcases execute_cases env parsed w with ⟨store, start, stop, w₀, begins, -⟩ | ⟨fails, settled⟩
    · exact absurd ⟨store, start, stop, w₀, begins⟩ begun
    · exact ⟨fun left => absurd left unstranded, fun _ _ => settled.1,
        fun w' succeeded => absurd succeeded (fails w')⟩

/-- The place of the temporary file is taken after a run that streams just if the file is
stranded, unless the output itself has the name that was drawn. -/
theorem temporary_taken_iff
    (transport : ∀ address secure, (env.connect address secure).LeavesDisk)
    (parsed : (grammar).parse args = .ok (c, j)) (task : j.task = .stream (.value output))
    (apart : w.state.Apart output) :
    (∃ place, w.state.temporary? output = some place ∧
      ((execute env args).after w).state.find? place ≠ none) ↔ Strands env c j w output := by
  obtain ⟨stranded, cleared, succeeded⟩ := execute_stream_disk transport parsed task w
  refine ⟨fun ⟨place, temporary, taken⟩ => ?_, fun strands => ?_⟩
  · -- The place was free, so what is there now is the file, or else the output.
    have free := Disk.find?_temporary? temporary
    refine Classical.byContradiction fun unstranded => taken ?_
    by_cases fails : Fails env args w
    · rw [← Disk.find?_calm, cleared unstranded fails, Disk.find?_calm, free]
    · obtain ⟨w', ended⟩ := Classical.not_forall_not.1 fails
      obtain ⟨chunks, output', -, writable, full⟩ := succeeded w' ended
      have other : place ≠ output' := by
        rintro rfl
        exact apart.calm place (by rwa [Disk.temporary?_calm]) writable.place?_eq
      rw [Act.after_of_ok ended, ← Disk.find?_calm, full,
        Disk.find?_put _ _ _ _ writable.ne_nil, if_neg other, Disk.find?_calm, free]
  · obtain ⟨-, place, temporary, bytes, held⟩ := stranded strands
    have hp := Disk.ne_nil_of_find? (Disk.find?_temporary? temporary)
    refine ⟨place, temporary, ?_⟩
    rw [← Disk.find?_calm, held, Disk.find?_put _ _ _ _ hp, if_pos rfl]
    nofun

/-- On a quiet disk a run strands its temporary file just if the stream is complete and the path of
the output does not lead to where a file may be put. -/
theorem strands_iff_of_quiet
    (transport : ∀ address secure, (env.connect address secure).LeavesDisk)
    (still : ∀ address secure,
      (env.connect address secure).Confined Disk.Quiet fun _ => True)
    (quiet : w.state.Quiet) :
    Strands env c j w output ↔
      (∃ chunks, Streams env c j w output chunks) ∧ ∀ place, ¬ w.state.Admits output place := by
  have leaves_iff {store : Client Disk} {start stop : Setting String} {w₀ : World Disk}
      (begins : Begins env c j w store start stop w₀) :
      Leaves store start stop j.container output w₀ ↔
        (∃ s t k chunks, start = .value s ∧ stop = .value t ∧ j.container = .value k ∧
          Receives store s t k output w₀ chunks) ∧
        ∀ place, ¬ w.state.Admits output place := by
    obtain ⟨⟨address, channel⟩, unhooked⟩ := begins.client_eq
    rw [← begins.state_eq] at quiet ⊢
    exact leaves_iff_of_quiet (begins.leavesDisk transport) unhooked (channel ▸ still _ _)
      start stop j.container quiet
  constructor
  · rintro ⟨store, start, stop, w₀, begins, left⟩
    obtain ⟨⟨s, t, k, chunks, rfl, rfl, hk, received⟩, refused⟩ := (leaves_iff begins).1 left
    exact ⟨⟨chunks, store, s, t, k, w₀, begins, hk, received⟩, refused⟩
  · rintro ⟨⟨chunks, store, s, t, k, w₀, begins, hk, received⟩, refused⟩
    exact ⟨store, _, _, w₀, begins,
      (leaves_iff begins).2 ⟨⟨s, t, k, chunks, rfl, rfl, hk, received⟩, refused⟩⟩

/-- **What a run that streams leaves behind.**  Let the transport leave the disk alone, and let the
command line be one that streams a range to an output.

* If the temporary file is stranded, the run fails, and the disk after it is the former one with
  the temporary file.  After any other failure it is the former one.
* After success it is the former one with all chunks where the path leads.
* So the temporary file is there after the run just if it is stranded; here the name that was drawn
  for it must not be the output's own.
* On a disk whose files can be written, closed and removed at any time, the file is stranded just
  if the stream is complete and no file may be put where the path leads. -/
theorem execute_leftover (transport : ∀ address secure, (env.connect address secure).LeavesDisk)
    (parsed : (grammar).parse args = .ok (c, j)) (task : j.task = .stream (.value output))
    (w : World Disk) :
    (Strands env c j w output → Fails env args w ∧
      ∃ place, w.state.temporary? output = some place ∧
        Holds w.state.calm place ((execute env args).after w).state.calm) ∧
    (¬ Strands env c j w output → Fails env args w →
      ((execute env args).after w).state.calm = w.state.calm) ∧
    (∀ w', (execute env args).run w = .ok 0 w' →
      ∃ chunks place, Streams env c j w output chunks ∧ w.state.calm.Writable output place ∧
        w'.state.calm = w.state.calm.put place (.file chunks.flatten)) ∧
    (w.state.Apart output →
      ((∃ place, w.state.temporary? output = some place ∧
        ((execute env args).after w).state.find? place ≠ none) ↔ Strands env c j w output)) ∧
    ((∀ address secure, (env.connect address secure).Confined Disk.Quiet fun _ => True) →
      w.state.Quiet → (Strands env c j w output ↔
        (∃ chunks, Streams env c j w output chunks) ∧
        ∀ place, ¬ w.state.Admits output place)) := by
  obtain ⟨stranded, cleared, succeeded⟩ := execute_stream_disk transport parsed task w
  exact ⟨stranded, cleared, succeeded, temporary_taken_iff transport parsed task,
    strands_iff_of_quiet transport⟩

/-- A disk on which there is a directory. -/
def shelved : Disk where
  entries := [(["dir"], .directory)]
  home := []

/-- A command line that streams a range to where there is a directory. -/
def toDirectory : List String := ["stream", "--from", "a", "--to", "b", "--out", "dir"]

/-- A stream that is complete and should go to where there is a directory leaves its temporary file
behind, with all the chunks in it. -/
theorem execute_leftover_toDirectory :
    ∃ c j, (grammar).parse toDirectory = .ok (c, j) ∧
      Strands (streaming none) c j (.fresh shelved) "dir" ∧
      (∃ chunks, Streams (streaming none) c j (.fresh shelved) "dir" chunks) ∧
      Fails (streaming none) toDirectory (.fresh shelved) ∧
      ((execute (streaming none) toDirectory).after (.fresh shelved)).state.find?
        [".videostore-00000000"] = some (.file [1, 2]) := by
  have leaves (address : String) (secure : Bool) :
      ((streaming none).connect address secure).LeavesDisk := Channel.replay_leavesDisk _
  have apart : shelved.Apart "dir" := Disk.apart_of_at?_ne_none (by decide +kernel)
  obtain ⟨c, j, parsed, task⟩ : ∃ c j, (grammar).parse toDirectory = .ok (c, j) ∧
      j.task = .stream (.value "dir") := ⟨_, _, rfl, rfl⟩
  have still (address : String) (secure : Bool) :
      ((streaming none).connect address secure).Confined Disk.Quiet fun _ => True :=
    Channel.confined_replay (fun _ _ => trivial) (fun _ _ => trivial) fun _ _ => trivial
  obtain ⟨stranded, -, -, taken_iff, strands_iff⟩ :=
    execute_leftover leaves parsed task (.fresh shelved)
  have full : ((execute (streaming none) toDirectory).after (.fresh shelved)).state.find?
      [".videostore-00000000"] = some (.file [1, 2]) := by decide +kernel
  have strands : Strands (streaming none) c j (.fresh shelved) "dir" := by
    refine (taken_iff apart).1 ⟨[".videostore-00000000"], by decide +kernel, ?_⟩
    rw [full]
    nofun
  exact ⟨c, j, parsed, strands, ((strands_iff still rfl).1 strands).1, (stranded strands).1, full⟩

end Footage.Program
