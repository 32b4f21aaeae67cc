import Footage.Proofs.CommandLine.Exchange
import Footage.Proofs.Log.Transcript
import Footage.Proofs.Program.Adding

/-!
# What a run shows of the log

The level that a command line asks for is one of the five that can be asked for
(`CommandLine.level_mem_of_parse`).  A run of the program configures the console with it before it
does anything else, and not again (`Program.exists_journal_execute`), so that every entry that it
logs finds the console set up with this level or not at all (`Program.configured_before`).

`Program.records_written` says what is written of the log, however often the console is configured,
and then for one run of the program.
-/

namespace Footage

open CommandLine
open Log (Console Entry Level copies)

variable {σ : Type}

/-- What happens adds no handler to the console. -/
abbrev World.Unconfigured (w w' : World σ) : Prop := w.Adds (∀ level, · ≠ .configured level) w'

/-! ### The level on the command line -/

namespace CommandLine

theorem mem_levels_of_readLevel {text : String} {l : Level}
    (h : Connection.readLevel text = .ok l) : l ∈ Connection.levels := by
  unfold Connection.readLevel at h
  dsimp only at h
  split at h
  · next found =>
    cases h
    exact List.mem_of_find?_eq_some found
  · cases h

/-- No switch sets another level than one of those that can be asked for. -/
theorem level_keeps :
    ∀ s ∈ (grammar).form.switches,
      s.effect.Keeps fun c _ => ∀ l, c.logLevel = some (.value l) → l ∈ Connection.levels := by
  simp only [grammar, Grammar.form, Connection.switches, List.forall_mem_cons, Switch.text]
  refine ⟨trivial, trivial, keeps_setting_of_read ?_ ?_, keeps_setting ?_, keeps_setting ?_,
    keeps_setting ?_, keeps_setting ?_, ?_, by simp⟩
  · rintro a a' - l ⟨⟩
  · rintro text b readable a a' - l ⟨⟩
    exact mem_levels_of_readLevel readable
  · exact fun _ _ _ h => h
  · exact fun _ _ _ h => h
  · exact fun _ _ _ h => h
  · exact fun _ _ _ h => h
  · exact fun _ _ h => h

theorem level_mem_of_parse {args : List String} {c : Connection} {j : Job} {l : Level}
    (parsed : (grammar).parse args = .ok (c, j)) (h : c.logLevel = some (.value l)) :
    l ∈ Connection.levels := by
  obtain ⟨p, name, rest, k, q, read, -, -, -, rfl, -⟩ := Grammar.parse_eq_ok_iff.1 parsed
  unfold Form.read at read
  split at read
  · cases read
  · next ts tokens =>
    have start : Progress.Related
        (fun c _ => ∀ l, c.logLevel = some (.value l) → l ∈ Connection.levels)
        { settings := (grammar).start } { settings := (grammar).start } :=
      ⟨nofun, rfl, rfl⟩
    obtain ⟨q', -, related⟩ := Form.walk_related (grammar).form.program level_keeps
      (Form.knows_of_tokens tokens) start read
    exact related.settings l h

/-- The levels that can be asked for have a name, and are levels. -/
theorem named_of_mem_levels :
    ∀ l ∈ Connection.levels, l ∈ Level.named ∧ l ≠ .notset := by
  decide

end CommandLine

/-! ### The console in a run -/

namespace Program

variable {env : Environment} {args : List String} {c : Connection} {j : Job} {w : World Disk}

/-- A job does not configure the console. -/
theorem unconfigured_run
    (transport : ∀ address secure, (env.connect address secure).Respects World.Unconfigured) :
    (run env c j).Respects World.Unconfigured :=
  adds_run (fun e routine level same => by cases same; exact routine) (fun _ _ _ _ => nofun)
    transport

/-- The console is configured first, as the command line asks for, and not again. -/
theorem exists_journal_execute
    (transport : ∀ address secure, (env.connect address secure).Respects World.Unconfigured)
    (parsed : (grammar).parse args = .ok (c, j)) (w : World Disk) :
    ∃ rest, ((execute env args).after w).journal =
        w.journal ++ (configuration c.logLevel ++ rest) ∧
      ∀ e ∈ rest, ∀ level, e ≠ .configured level := by
  by_cases blank : c.logLevel = some .blank
  · have executed := run_execute env parsed w
    rw [blank] at executed ⊢
    rw [Act.after_of_error executed]
    exact ⟨[], by simp [configuration], nofun⟩
  have ran := unconfigured_run transport (c := c) (j := j) (w.grow (configuration c.logLevel))
  have whole : World.Unconfigured (w.grow (configuration c.logLevel))
      ((execute env args).after w) := by
    rcases after_execute env parsed blank w with same | ⟨e, reported⟩
    · rwa [same]
    · rw [reported]
      exact trans_of _ ran (adds_report (fun _ _ => by simp) j.task e _)
  obtain ⟨rest, journal, others⟩ := whole
  exact ⟨rest, by rw [journal, World.grow_journal, List.append_assoc], others⟩

/-- Every entry of a run finds the console configured as the command line asks for. -/
theorem configured_before {level : Option (Setting Level)} {rest : List Event}
    (others : ∀ e ∈ rest, ∀ level, e ≠ .configured level) {i : Nat} {e : Entry}
    (logged : (configuration level ++ rest)[i]? = some (.logged e)) :
    Journal.configured ((configuration level ++ rest).take i) =
      Journal.configured (configuration level) := by
  have later : (configuration level).length ≤ i := by
    by_contra sooner
    rw [List.getElem?_append_left (by omega)] at logged
    obtain ⟨l, same⟩ := of_mem_configuration (List.mem_of_getElem? logged)
    cases same
  have after : Journal.configured (rest.take (i - (configuration level).length)) = [] :=
    Journal.configured_eq_nil fun e he => others e (List.mem_of_mem_take he)
  rw [List.take_append, List.take_of_length_le later, Journal.configured_append, after,
    List.append_nil]

/-- Where the command line is not read, nothing is logged. -/
theorem logged_notMem_of_halt {halt : Halt} (halted : (grammar).parse args = .error halt)
    (env : Environment) (w : World Disk) :
    ∃ events, ((execute env args).after w).journal = w.journal ++ events ∧
      ∀ e, .logged e ∉ events := by
  cases halt with
  | answer text =>
    rw [Act.after_of_ok (run_answered halted w)]
    exact ⟨_, rfl, by simp⟩
  | complaint text =>
    rw [Act.after_of_ok (run_complained halted w)]
    exact ⟨_, rfl, by simp⟩

/-- An entry of a run is written as often as the level says that the command line asks for. -/
theorem exists_transcript_execute {c₀ : Console} (fresh : c₀.Fresh) (time : String)
    (transport : ∀ address secure, (env.connect address secure).Respects World.Unconfigured)
    (parsed : (grammar).parse args = .ok (c, j)) (w : World Disk) :
    ∃ events, ((execute env args).after w).journal = w.journal ++ events ∧
      ∀ (i : Nat) (e : Entry), events[i]? = some (.logged e) → c₀.Inherits e.logger →
        (Journal.transcript time c₀ events)[i]? =
          some (.logged e, List.replicate
            (copies (Journal.configured (configuration c.logLevel)) e.level) (e.line time)) := by
  obtain ⟨rest, journal, others⟩ := exists_journal_execute transport parsed w
  refine ⟨_, journal, fun i e logged alone => ?_⟩
  have set (l : Level) (hl : .configured l ∈ configuration c.logLevel ++ rest) : l ≠ .notset := by
    rcases List.mem_append.1 hl with hl | hl
    · unfold configuration at hl
      split at hl
      · next l' asked =>
        cases List.mem_singleton.1 hl
        exact (named_of_mem_levels _ (level_mem_of_parse parsed asked)).2
      · cases hl
    · exact absurd rfl (others _ hl l)
  rw [Journal.getElem?_transcript_logged fresh set logged alone, configured_before others logged]

/-- **What is logged is written once for every handler that it reaches.**  The console is that of
the library when it has just been imported, or any other one to which nothing is written yet; and
neither the logger of an entry nor any logger between it and that of the library has settings of
its own, as is the case for all loggers of the library at the start.

* However often the console has been configured, and with whatever levels: an entry is written
  once for each of these levels that it reaches, if there are any and it reaches the last of them,
  and otherwise not at all.
* What a run writes to the standard error output is what its events bring to it, in their order;
  and an entry brings to it as many lines as the levels say that the console has been configured
  with so far.
* A run of the program writes every entry that reaches the level which the command line asks for
  once, and no other one; and none when the command line asks for no level.  A command line that
  cannot be read, or only asks for help, logs nothing.

The transport adds no handlers to the console. -/
theorem records_written {c₀ : Console} (fresh : c₀.Fresh) (time : String) :
    (Console.Fresh {} ∧ ∀ logger, Log.InTree logger → Console.Inherits {} logger) ∧
    (∀ levels : List Level, (∀ l ∈ levels, l ∈ Connection.levels) →
      ∃ c, (levels.map Level.name).foldlM Console.configure c₀ = .ok c ∧
        ∀ e : Entry, c₀.Inherits e.logger →
          c.lines time e = List.replicate (copies levels e.level) (e.line time)) ∧
    (∀ journal : List Event,
      Journal.errorOutput time c₀ journal =
        String.join ((Journal.transcript time c₀ journal).flatMap (·.2)) ∧
      (Journal.transcript time c₀ journal).map (·.1) = journal ∧
      ((∀ l, .configured l ∈ journal → l ∈ Connection.levels) →
        ∀ (i : Nat) (e : Entry), journal[i]? = some (.logged e) → c₀.Inherits e.logger →
          (Journal.transcript time c₀ journal)[i]? =
            some (.logged e, List.replicate
              (copies (Journal.configured (journal.take i)) e.level) (e.line time)))) ∧
    ∀ (env : Environment) (args : List String) (w : World Disk),
      (∀ address secure, (env.connect address secure).Respects World.Unconfigured) →
      ∃ events, ((execute env args).after w).journal = w.journal ++ events ∧
        (∀ c j, (grammar).parse args = .ok (c, j) →
          ∀ (i : Nat) (e : Entry), events[i]? = some (.logged e) → c₀.Inherits e.logger →
            (∀ l, c.logLevel = some (.value l) → (Journal.transcript time c₀ events)[i]? =
              some (.logged e, if l ≤ e.level then [e.line time] else [])) ∧
            (c.logLevel = none →
              (Journal.transcript time c₀ events)[i]? = some (.logged e, []))) ∧
        ∀ halt, (grammar).parse args = .error halt → ∀ e, .logged e ∉ events := by
  refine ⟨⟨Console.fresh_start, fun _ => Console.inherits_of_inTree⟩, fun levels among => ?_,
    fun journal => ⟨Journal.errorOutput_eq time c₀ journal,
      Journal.map_fst_transcript time c₀ journal, fun among i e logged alone => ?_⟩,
    fun env args w transport => ?_⟩
  · have named (l : Level) (hl : l ∈ levels) := named_of_mem_levels l (among l hl)
    exact ⟨_, Console.foldlM_configure (fun l hl => (named l hl).1) c₀, fun e alone =>
      (Console.configured_foldl c₀ levels).lines_eq fresh (fun l hl => (named l hl).2) alone time⟩
  · exact Journal.getElem?_transcript_logged fresh
      (fun l hl => (named_of_mem_levels l (among l hl)).2) logged alone time
  · cases parsed : (grammar).parse args with
    | error halt =>
      obtain ⟨events, journal, silent⟩ := logged_notMem_of_halt parsed env w
      exact ⟨events, journal, (fun _ _ read => by cases read), fun _ _ => silent⟩
    | ok said =>
      obtain ⟨c, j⟩ := said
      obtain ⟨events, journal, written⟩ := exists_transcript_execute fresh time transport parsed w
      refine ⟨events, journal, ?_, fun _ halted => by cases halted⟩
      rintro _ _ ⟨⟩ i e logged alone
      have lines := written i e logged alone
      refine ⟨fun l asked => ?_, fun unasked => ?_⟩
      · rw [lines, asked]
        by_cases reaches : l ≤ e.level
        · simp [configuration, Journal.configured, copies, reaches]
        · simp [configuration, Journal.configured, copies, reaches]
      · rw [lines, unasked]
        rfl

/-- A console on which one of the library's loggers has a level of its own. -/
def hushed : Console := ({} : Console).set (.ofName "videostore.service") { level := .critical }

/-- What a client logs about a stream that failed. -/
def failureEntry : Entry where
  logger := "videostore.client"
  level := .error
  message := "FetchStream failed after 1 chunk(s)"

/-- A command line that asks for a level. -/
def informing : List String := ["--log-level=info", "save", "--from", "a", "--to", "b"]

/-- After three configurations an error is written by two handlers, or not at all when the last one
keeps it out; and a run that asks for the level of information shows what it is about to do, but
not that its client sends a request. -/
theorem records_written_twice :
    let line := failureEntry.line "t"
    let journal := [.configured .error, .logged failureEntry, .configured .critical,
      .logged failureEntry]
    let run := ((execute (streaming none) informing).after (.fresh written)).journal
    (∃ c, ["INFO", "CRITICAL", "WARNING"].foldlM Console.configure hushed = .ok c ∧
      c.lines "t" failureEntry = [line, line]) ∧
    (Journal.transcript "t" hushed journal)[1]? = some (.logged failureEntry, [line]) ∧
    (Journal.transcript "t" hushed journal)[3]? = some (.logged failureEntry, []) ∧
    (∃ e, run[2]? = some (.logged e) ∧ e.level = .info ∧
      (Journal.transcript "t" hushed run)[2]? = some (.logged e, [e.line "t"])) ∧
    ∃ e, run[3]? = some (.logged e) ∧ e.level = .debug ∧
      (Journal.transcript "t" hushed run)[3]? = some (.logged e, []) := by
  intro line journal run
  have fresh : hushed.Fresh := ⟨rfl, rfl⟩
  have alone (logger : String) (inTree : Log.InTree logger)
      (apart : ¬ Log.Path.ofName "videostore.service" <+: Log.Path.ofName logger) :
      hushed.Inherits logger := by
    refine ⟨inTree, fun p above below ne => ?_⟩
    have other : p ≠ Log.Path.ofName "videostore.service" := fun same => apart (same ▸ above)
    rw [hushed, Console.logger_set, if_neg other]
    exact (Console.inherits_of_inTree inTree).plain p above below ne
  obtain ⟨-, often, journals, runs⟩ := records_written fresh "t"
  have failing : hushed.Inherits failureEntry.logger := alone _ (by decide) (by decide)
  obtain ⟨-, -, written⟩ := journals journal
  have counted := written (by simp [journal, Connection.levels])
  obtain ⟨events, same, shown, -⟩ := runs (streaming none) informing (.fresh Program.written)
    fun _ _ => Channel.respects_replay _
  obtain rfl : run = events := same
  refine ⟨?_, counted 1 _ rfl failing, counted 3 _ rfl failing, ⟨_, rfl, rfl, ?_⟩, ⟨_, rfl, rfl, ?_⟩⟩
  · obtain ⟨c, configured, lines⟩ := often [.info, .critical, .warning] (by decide)
    exact ⟨c, configured, lines _ failing⟩
  · exact (shown _ _ rfl 2 _ rfl (alone _ (by decide) (by decide))).1 .info rfl
  · exact (shown _ _ rfl 3 _ rfl (alone _ (by decide) (by decide))).1 .info rfl

end Program

end Footage
