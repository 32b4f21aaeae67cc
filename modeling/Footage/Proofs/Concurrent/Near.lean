import Footage.Proofs.Client.Hooking
import Footage.Proofs.Concurrent.Call

/-!
# What the caller's side makes of the messages

Given the messages that are still to come, all that the caller's side of a call does is settled:
`Near.Finishes` says what it comes to.  This holds in two ways.  Without a hook it depends on the
journal and on what the caller keeps only (`Near.Finishes.congr`).  And with a hook each step is the
one without it, but for what the hook adds to the journal (`Near.keeps_beside`), also when the
journal has other calls in it.

Both come from one account of the steps: two worlds stay related if the relation is kept by acts on
the caller's part, by what is noted and by what is presented (`Near.Keeps`, `Near.Finishes.agree`).
-/

namespace Footage

variable {σ κ φ ν : Type}

namespace Concurrent

/-- All that the callback or the writer does is within a part of the world. -/
def Asked.Within (p : Part σ κ) : Asked σ → Prop
  | fetchStream _ _ _ callback =>
    (∀ chunk, (callback chunk).Within p) ∧
      ∀ chunk w reply w', (callback chunk).run w = .ok reply w' → reply.settle.Within p
  | streamInto _ _ _ write => ∀ chunk, (write chunk).Within p
  | _ => True

/-- What is left of a reply is within a part of the world. -/
def Near.Within (p : Part σ κ) : Near σ → Prop
  | settling reply _ _ => reply.settle.Within p
  | _ => True

variable {p : Part σ κ} {asked : Asked σ}

theorem Asked.Within.accept (h : asked.Within p) (chunk : Bytes) :
    (asked.accept chunk).Within p := by
  cases asked with
  | fetch => exact Act.within_pure _
  | save => exact Act.within_pure _
  | fetchStream start stop container callback => exact h.1 chunk
  | streamInto start stop container write => exact (h chunk).bind fun _ => Act.within_pure _

theorem Asked.Within.settle (h : asked.Within p) {chunk : Bytes} {reply : Reply σ}
    {w w' : World σ} (run : (asked.accept chunk).run w = .ok reply w') : reply.settle.Within p := by
  cases asked with
  | fetch => cases run; exact Act.within_pure _
  | save => cases run; exact Act.within_pure _
  | fetchStream start stop container callback => exact h.2 chunk w reply w' run
  | streamInto start stop container write =>
    obtain ⟨_, _, -, returned⟩ := Act.exists_of_run_bind_ok run
    cases returned
    exact Act.within_pure _

namespace Near

/-! ### The steps side by side -/

/-- The relation between worlds is kept by all that the caller's side does. -/
structure Keeps (c c' : Client σ) (p : Part σ κ) (R : World σ → World σ → Prop) : Prop where
  within : ∀ {α : Type} {x : Act σ α}, x.Within p → Act.Agree R Eq x x
  note : ∀ e, Act.Agree R Eq (Act.note e) (Act.note e)
  present : ∀ item, Act.Agree R Eq (c.present item) (c'.present item)
  name : c.name = c'.name

variable {c c' : Client σ} {R : World σ → World σ → Prop}

/-- Both steps come to the same, and what is left of a reply is within the part. -/
abbrev Same (p : Part σ κ) (first second : Near σ) : Prop := first = second ∧ first.Within p

namespace Keeps

theorem log (h : Keeps c c' p R) (level : Log.Level) (message : String) :
    Act.Agree R Eq (c.log level message) (c'.log level message) := by
  unfold Client.log
  rw [h.name]
  exact h.note _

theorem streamFailed (h : Keeps c c' p R) (count : Nat) (e : Fault) :
    Act.Agree R Eq (c.streamFailed (pure ()) count e) (c'.streamFailed (pure ()) count e) := by
  unfold Client.streamFailed
  split
  · refine (h.log _ _).bind_eq fun _ => (h.note .cancelled).bind_eq fun _ => ?_
    exact Act.Agree.bind_eq (Act.agree_pure rfl).discard_attempt fun _ => h.present (.fault e)
  · exact Act.agree_pure rfl

theorem landing (h : Keeps c c' p R) (asked : Asked σ) (count : Nat) {x y : Act σ (Near σ)}
    (hx : Act.Agree R (Same p) x y) :
    Act.Agree R (Same p) (Near.landing c asked count x) (Near.landing c' asked count y) := by
  refine Act.Agree.tryCatch (hx.guarding fun e => ?_) fun e => Act.agree_pure ⟨rfl, trivial⟩
  unfold Asked.failed
  split
  · exact h.streamFailed count e
  · exact Act.agree_pure rfl

theorem take (h : Keeps c c' p R) (within : asked.Within p) (count total : Nat) (m : Message) :
    Act.Agree R (Same p) (Near.take c asked count total m) (Near.take c' asked count total m) := by
  cases m with
  | video r => exact Act.agree_ofExcept.bind_eq fun _ => Act.agree_pure ⟨rfl, trivial⟩
  | saved r => exact Act.agree_ofExcept.bind_eq fun _ => Act.agree_pure ⟨rfl, trivial⟩
  | chunk r =>
    refine Act.agree_ofExcept.bind_eq fun r => (h.note _).bind_eq fun _ => ?_
    refine ((h.within (within.accept r.video)).with_value fun _ _ _ => within.settle).bind ?_
    rintro reply _ ⟨rfl, settled⟩
    exact Act.agree_pure ⟨rfl, settled⟩
  | finished => exact (h.log _ _).bind_eq fun _ => Act.agree_pure ⟨rfl, trivial⟩
  | failed e => exact Act.agree_throw e

theorem settle (h : Keeps c c' p R) {reply : Reply σ} (settled : reply.settle.Within p)
    (count total : Nat) :
    Act.Agree R (Same p) (Near.settle reply count total) (Near.settle reply count total) :=
  (h.within settled).bind_eq fun _ => Act.agree_pure ⟨rfl, trivial⟩

end Keeps

/-! ### What it comes to -/

/-- From a world, and with messages to come, the caller's side comes to an outcome and to a later
world. -/
inductive Finishes (c : Client σ) (asked : Asked σ) :
    Near σ → List Message → World σ → Except Fault Client.Result → World σ → Prop where
  | ended {outcome : Except Fault Client.Result} {messages : List Message} {w : World σ} :
      Finishes c asked (ended outcome) messages w outcome w
  | took {count total : Nat} {m : Message} {messages : List Message} {near : Near σ}
      {w w₁ w' : World σ} {outcome : Except Fault Client.Result} :
      (landing c asked count (take c asked count total m)).run w = .ok near w₁ →
      Finishes c asked near messages w₁ outcome w' →
      Finishes c asked (waiting count total) (m :: messages) w outcome w'
  | settled {reply : Reply σ} {count total : Nat} {messages : List Message} {near : Near σ}
      {w w₁ w' : World σ} {outcome : Except Fault Client.Result} :
      (landing c asked count (settle reply count total)).run w = .ok near w₁ →
      Finishes c asked near messages w₁ outcome w' →
      Finishes c asked (settling reply count total) messages w outcome w'

/-- From two worlds in a relation that is kept, the caller's side comes to the same outcome and to
two worlds that are in this relation again. -/
theorem Finishes.agree (keeps : Keeps c c' p R) (within : asked.Within p) {near : Near σ}
    {messages : List Message} {v v' w : World σ} {outcome : Except Fault Client.Result}
    (h : Finishes c asked near messages v outcome v') (rest : near.Within p) (related : R v w) :
    ∃ w', Finishes c' asked near messages w outcome w' ∧ R v' w' := by
  have step {x y : Act σ (Near σ)} (agree : Act.Agree R (Same p) x y) {near : Near σ}
      {v v₁ w : World σ} (related : R v w) (run : x.run v = .ok near v₁) :
      ∃ w₁, y.run w = .ok near w₁ ∧ near.Within p ∧ R v₁ w₁ := by
    rcases agree.cases related with
      ⟨a, _, _, w₁, hv, hw, ⟨rfl, within⟩, related⟩ | ⟨e, _, _, hv, -⟩
    · rw [run] at hv
      cases hv
      exact ⟨w₁, hw, within, related⟩
    · rw [run] at hv
      cases hv
  induction h generalizing w with
  | ended => exact ⟨w, .ended, related⟩
  | @took count total m _ _ _ _ _ _ run _ ih =>
    obtain ⟨w₁, run', within', related'⟩ :=
      step (keeps.landing asked count (keeps.take within count total m)) related run
    obtain ⟨w', finishes, last⟩ := ih within' related'
    exact ⟨w', .took run' finishes, last⟩
  | @settled reply count total _ _ _ _ _ _ run _ ih =>
    obtain ⟨w₁, run', within', related'⟩ :=
      step (keeps.landing asked count (keeps.settle rest count total)) related run
    obtain ⟨w', finishes, last⟩ := ih within' related'
    exact ⟨w', .settled run' finishes, last⟩

end Near

end Concurrent

/-! ### The caller's part -/

/-- What is within the caller's part of the state is within the caller's part of the world. -/
theorem Act.Within.talk {α : Type} {x : Act (φ × ν) α} (h : x.Within Part.near)
    (v₀ w₀ : World (φ × ν)) : Act.Agree (Part.talk.Alike v₀ w₀) Eq x x := by
  rintro v w ⟨k, rfl, rfl⟩
  rcases h.cases (v := Part.talk.put k v₀) (w := Part.talk.put k w₀) rfl with
    ⟨a, n, hv, hw⟩ | ⟨e, n, hv, hw⟩
  · rw [hv, hw]
    exact .ok rfl ⟨(k.1, n), rfl, rfl⟩
  · rw [hv, hw]
    exact .error ⟨(k.1, n), rfl, rfl⟩

namespace Concurrent.Near

variable {c : Client (φ × ν)} {asked : Asked (φ × ν)}

theorem agree_note_alike {v₀ w₀ : World (φ × ν)} (e : Event) :
    Act.Agree (Part.talk.Alike v₀ w₀) Eq (Act.note e) (Act.note e) := by
  refine Act.agree_note ?_
  rintro _ _ ⟨k, rfl, rfl⟩
  exact ⟨(k.1 ++ [e], k.2), rfl, rfl⟩

/-- Without a hook the caller's side deals with the journal and with what the caller keeps. -/
theorem keeps_alike (unhooked : c.options.hook = none) (v₀ w₀ : World (φ × ν)) :
    Keeps c c Part.near (Part.talk.Alike v₀ w₀) where
  within h := h.talk v₀ w₀
  note e := agree_note_alike e
  present item := by
    unfold Client.present
    rw [unhooked]
    exact (agree_note_alike _).bind_eq fun _ => Act.agree_pure rfl
  name := rfl

/-- What the caller's side comes to is settled by the journal and by what the caller keeps. -/
theorem Finishes.congr (unhooked : c.options.hook = none) (within : asked.Within Part.near)
    {near : Near (φ × ν)} {messages : List Message} {v v' w : World (φ × ν)}
    {outcome : Except Fault Client.Result} (h : Finishes c asked near messages v outcome v')
    (rest : near.Within Part.near) (same : Part.talk.get v = Part.talk.get w) :
    ∃ w', Finishes c asked near messages w outcome w' ∧ Part.talk.get v' = Part.talk.get w' := by
  obtain ⟨w', finishes, k, rfl, rfl⟩ :=
    h.agree (keeps_alike unhooked v w) within rest (Part.alike_of_get_eq same)
  exact ⟨_, finishes, by simp only [Part.get_put]⟩

/-- What the caller's side comes to goes on from what it has noted. -/
theorem Finishes.grows (hook : c.options.HasOrdinaryHook) (within : asked.Within Part.near)
    {near : Near (φ × ν)} {messages : List Message} {v v' : World (φ × ν)}
    {outcome : Except Fault Client.Result} (h : Finishes c asked near messages v outcome v')
    (rest : near.Within Part.near) : v.journal <+: v'.journal := by
  have keeps : Keeps c c Part.near fun u w : World (φ × ν) =>
      u = w ∧ v.journal <+: w.journal := by
    refine ⟨?_, fun e => Act.agree_note ?_, ?_, rfl⟩
    · rintro _ x hx u _ ⟨rfl, grown⟩
      rcases hx.cases (v := u) rfl with ⟨a, k, run, -⟩ | ⟨e, k, run, -⟩ <;> rw [run]
      · exact .ok rfl ⟨rfl, grown⟩
      · exact .error ⟨rfl, grown⟩
    · rintro u _ ⟨rfl, grown⟩
      exact ⟨rfl, grown.trans (List.prefix_append _ _)⟩
    · rintro item u _ ⟨rfl, grown⟩
      rw [Client.run_present hook]
      exact .ok rfl ⟨rfl, grown.trans (List.prefix_append _ _)⟩
  obtain ⟨w', -, rfl, grown⟩ := h.agree keeps within rest ⟨rfl, List.prefix_rfl⟩
  exact grown

end Concurrent.Near

/-! ### With a hook and with others in the journal -/

namespace Client

/-- The client's hook raises this fault, or none, on an item, whatever it has been shown before. -/
def Raised (c : Client σ) (_ : List Event) (item : Item) (fault : Option Fault) : Prop :=
  ∃ hook past, c.options.hook = some hook ∧ hook past item = fault

theorem Annotated.concat {c : Client σ} {plain plain' full full' : List Event}
    (h : Annotated c c.Raised plain full) (h' : Annotated c c.Raised plain' full') :
    Annotated c c.Raised (plain ++ plain') (full ++ full') := by
  induction h' with
  | nil => simpa using h
  | event e _ ih =>
    rw [← List.append_assoc, ← List.append_assoc]
    exact ih.event e
  | hooked _ raised ih =>
    rw [← List.append_assoc]
    exact ih.hooked raised

/-- Two worlds have come from two others on the caller's side, the first one without the client's
hook and the second one with it. -/
structure Beside (c : Client (φ × ν)) (v₀ w₀ v w : World (φ × ν)) : Prop where
  near : v.state.2 = w.state.2
  far : v.state.1 = v₀.state.1
  far' : w.state.1 = w₀.state.1
  drawn : w.drawn = w₀.drawn
  journal : ∃ plain full, v.journal = v₀.journal ++ plain ∧ w.journal = w₀.journal ++ full ∧
    Annotated c c.Raised plain full

theorem beside_refl {c : Client (φ × ν)} {v w : World (φ × ν)} (h : v.state.2 = w.state.2) :
    c.Beside v w v w :=
  ⟨h, rfl, rfl, rfl, [], [], by simp, by simp, .nil⟩

end Client

namespace Concurrent.Near

variable {c : Client (φ × ν)}

theorem keeps_beside (hook : c.options.HasOrdinaryHook) (v₀ w₀ : World (φ × ν)) :
    Keeps (c.withHook none) c Part.near (c.Beside v₀ w₀) where
  within h v w hr := by
    rcases h.cases hr.near with ⟨a, n, hv, hw⟩ | ⟨e, n, hv, hw⟩
    · rw [hv, hw]
      exact .ok rfl ⟨rfl, hr.far, hr.far', hr.drawn, hr.journal⟩
    · rw [hv, hw]
      exact .error ⟨rfl, hr.far, hr.far', hr.drawn, hr.journal⟩
  note e := by
    refine Act.agree_note fun v w hr => ?_
    obtain ⟨plain, full, hv, hw, annotated⟩ := hr.journal
    refine ⟨hr.near, hr.far, hr.far', hr.drawn, plain ++ [e], full ++ [e], ?_, ?_,
      annotated.append [e]⟩
    · rw [World.grow_journal, hv, List.append_assoc]
    · rw [World.grow_journal, hw, List.append_assoc]
  present item v w hr := by
    obtain ⟨plain, full, hv, hw, annotated⟩ := hr.journal
    rw [Client.run_present Client.withHook_hasOrdinaryHook_none, Client.run_present hook]
    refine .ok rfl ⟨hr.near, hr.far, hr.far', by simp [hr.drawn], _, _,
      by rw [World.grow_journal, hv, List.append_assoc],
      by rw [World.grow_journal, hw, List.append_assoc], ?_⟩
    exact annotated.presented _ _ item fun hook ho => ⟨hook, _, ho, rfl⟩
  name := rfl

end Concurrent.Near

end Footage
