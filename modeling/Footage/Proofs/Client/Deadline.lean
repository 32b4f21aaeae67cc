import Footage.Proofs.Client.Addressing
import Footage.Proofs.Number.Sign

/-!
# Deadlines

The settings of a client are refused when the deadline is a number at or below zero
(`Client.Options.make_eq_ok_iff`).  The check asks whether the deadline is at most zero and not
whether it is above, so that what is not a number passes it (`Client.Options.Allowed`).

From then on the deadline is that of every call.  What the channel would do with another one makes
no difference to a session (`Client.session_congr_of_alikeAt`), and every call in the journal is one
with the deadline of the settings (`Client.due_session`): each operation permits only such calls
(`Client.respects_perform`), and a session is a sequence of operations.  No condition on the hook is
needed here.
-/

namespace Footage

open Number (Quantity)

variable {σ : Type}

/-- The event is no call, or a call with a given deadline. -/
def Event.IsDue (deadline : Option Quantity) : Event → Prop
  | called _ d => d = deadline
  | _ => True

/-- What happens makes no calls but such with a given deadline. -/
abbrev World.Due (deadline : Option Quantity) (w w' : World σ) : Prop :=
  w.Adds (·.IsDue deadline) w'

theorem World.Aloof.due {w w' : World σ} (aloof : w.Aloof w') (deadline : Option Quantity) :
    w.Due deadline w' :=
  aloof.mono fun e alone => by cases e <;> trivial

namespace Client

namespace Options

/-! ### What is accepted as a deadline -/

/-- Something that is given as a hook stands for a hook, or for none. -/
inductive GivesHook : Candidate Hook → Option Hook → Prop
  | absent : GivesHook (.value .null) none
  | usable (h : Hook) : GivesHook (.usable h) (some h)

/-- A value that is given as a deadline stands for a quantity, or for no deadline. -/
inductive GivesDeadline : Value → Option Quantity → Prop
  | absent : GivesDeadline .null none
  | quantity {v : Value} {q : Quantity} : v.quantity? = some q → GivesDeadline v (some q)

/-- The deadline is one that passes the check: none, or a quantity that is above zero or not a
number at all. -/
def Allowed (deadline : Option Quantity) : Prop :=
  ∀ q, deadline = some q → q.IsPositive ∨ q.IsNaN

variable {given : Value} {deadline : Option Quantity}

theorem checkDeadline_of_allowed (gives : GivesDeadline given deadline)
    (allowed : Allowed deadline) : checkDeadline given = .ok deadline := by
  cases gives with
  | absent => rfl
  | @quantity _ q number =>
    have passes := (Quantity.isAtMostZero_eq_false_iff q).2 (allowed q rfl)
    cases given <;> cases number <;> simp [checkDeadline, Value.quantity?, passes]

theorem checkDeadline_of_not_allowed (gives : GivesDeadline given deadline)
    (refused : ¬ Allowed deadline) :
    ∃ q, deadline = some q ∧ checkDeadline given = .error (.misuse (.timeout q)) := by
  cases gives with
  | absent => exact absurd nofun refused
  | @quantity _ q number =>
    have low : q.isAtMostZero = true := by
      rw [← Bool.not_eq_false, Quantity.isAtMostZero_eq_false_iff]
      exact fun passes => refused fun q' same => Option.some.inj same ▸ passes
    refine ⟨q, rfl, ?_⟩
    cases given <;> cases number <;> simp [checkDeadline, Value.quantity?, low]

/-- A hook is asked for before the deadline is checked. -/
theorem make_cases (hook : Candidate Hook) (given : Value) :
    (∃ h, GivesHook hook h ∧
      make hook given = (checkDeadline given).map fun deadline => { hook := h, deadline }) ∨
    (∀ h, ¬ GivesHook hook h) ∧ ∃ v, make hook given = .error (.misuse (.hook v)) := by
  cases hook with
  | usable h =>
    refine .inl ⟨some h, .usable h, ?_⟩
    simp only [make]
    cases checkDeadline given <;> rfl
  | value v =>
    cases v with
    | null =>
      refine .inl ⟨none, .absent, ?_⟩
      simp only [make]
      cases checkDeadline given <;> rfl
    | _ => exact .inr ⟨nofun, _, rfl⟩

theorem GivesHook.unique {hook : Candidate Hook} {h h' : Option Hook} (first : GivesHook hook h)
    (second : GivesHook hook h') : h = h' := by
  cases first <;> cases second <;> rfl

/-- Settings hold the hook and the deadline that were accepted. -/
theorem make_eq_ok_iff_checkDeadline {hook : Candidate Hook} {o : Options} :
    make hook given = .ok o ↔ GivesHook hook o.hook ∧ checkDeadline given = .ok o.deadline := by
  rcases make_cases hook given with ⟨h, hooked, made⟩ | ⟨unhooked, v, made⟩
  · rw [made]
    cases checkDeadline given with
    | error e => exact ⟨nofun, fun ⟨_, ok⟩ => nomatch ok⟩
    | ok d =>
      constructor
      · rintro ⟨⟩
        exact ⟨hooked, rfl⟩
      · rintro ⟨hooked', ⟨⟩⟩
        rw [hooked.unique hooked']
        rfl
  · rw [made]
    exact ⟨nofun, fun ⟨hooked, _⟩ => absurd hooked (unhooked _)⟩

theorem checkDeadline_eq_ok_iff (gives : GivesDeadline given deadline) {d : Option Quantity} :
    checkDeadline given = .ok d ↔ d = deadline ∧ Allowed deadline := by
  by_cases allowed : Allowed deadline
  · rw [checkDeadline_of_allowed gives allowed]
    constructor
    · rintro ⟨⟩
      exact ⟨rfl, allowed⟩
    · rintro ⟨rfl, -⟩
      rfl
  · obtain ⟨q, -, checked⟩ := checkDeadline_of_not_allowed gives allowed
    rw [checked]
    exact ⟨nofun, fun ⟨_, allowed'⟩ => absurd allowed' allowed⟩

/-- Settings are made of a hook and an allowed deadline, and they hold just these. -/
theorem make_eq_ok_iff (gives : GivesDeadline given deadline) {hook : Candidate Hook}
    {o : Options} :
    make hook given = .ok o ↔
      GivesHook hook o.hook ∧ o.deadline = deadline ∧ Allowed deadline := by
  rw [make_eq_ok_iff_checkDeadline, checkDeadline_eq_ok_iff gives]

/-- Every deadline that is not allowed is refused as a misuse of the settings.  The complaint is
about the deadline, unless the hook is refused before. -/
theorem make_of_not_allowed (gives : GivesDeadline given deadline) (refused : ¬ Allowed deadline)
    (hook : Candidate Hook) :
    ∃ cause, make hook given = .error (.misuse cause) ∧
      ∀ h, GivesHook hook h → ∃ q, deadline = some q ∧ cause = .timeout q := by
  rcases make_cases hook given with ⟨h, -, made⟩ | ⟨unhooked, v, made⟩
  · obtain ⟨q, is, checked⟩ := checkDeadline_of_not_allowed gives refused
    exact ⟨.timeout q, by rw [made, checked]; rfl, fun _ _ => ⟨q, is, rfl⟩⟩
  · exact ⟨.hook v, made, fun h hooked => absurd hooked (unhooked h)⟩

end Options

/-! ### The deadline of the calls -/

/-- The steps of an operation that streams respect a relation. -/
def Operation.Respects (R : World σ → World σ → Prop) (op : Operation σ) : Prop :=
  ∀ s, op.streaming? = some s → ∀ made chunk, (s.step made chunk).Respects R

section

variable {c : Client σ} {R : World σ → World σ → Prop} [Std.Refl R] [IsTrans _ R]
  (permits : c.Permits R) (channel : c.channel.Respects R)

include permits channel

/-- Taking the chunks of a range respects what the step on each of them does. -/
theorem respects_stream {β : Type} {step : β → Bytes → Act σ β}
    (steps : ∀ made chunk, (step made chunk).Respects R) (start stop container : String)
    (init : β) : (do (← c.feed start stop container).fold step init).Respects R := by
  intro w
  refine (respects_feed permits channel.fetchStream _ _ _).bind_run fun feed w' opened => ?_
  obtain ⟨r, w₁, call, answered, rfl⟩ := exists_call_of_run_feed opened
  have chunks := respects_chunks (c := c) permits.tolerates (channel.call _ _ _ _ _ answered)
  exact Feed.respects_fold chunks steps init w'

/-- An operation respects what is permitted to the client and respected by its channel and by the
operation's own steps. -/
theorem respects_perform {op : Operation σ} (steps : op.Respects R) :
    (c.perform op).Respects R := by
  cases streams : op.streaming? with
  | some s =>
    rw [perform_eq c streams]
    have taken :=
      respects_stream permits channel (steps s streams) s.start s.stop s.container s.init
    exact taken.awaited.bind fun _ => Act.respects_pure _
  | none =>
    cases op with
    | fetch start stop container =>
      exact (respects_fetch permits channel.fetch start stop container).bind fun _ =>
        Act.respects_pure _
    | save start stop container metadata background =>
      exact (respects_save permits channel.save start stop container metadata background).bind
        fun _ => Act.respects_pure _
    | fetchStream start stop container onChunk =>
      cases onChunk with
      | usable callback => cases streams
      | value v => exact Act.respects_throw _
    | streamInto start stop container write => cases streams
    | doCommand entries => exact Act.respects_pure _
    | close => exact Act.respects_pure _

theorem respects_session {ops : List (Operation σ)} (steps : ∀ op ∈ ops, op.Respects R) :
    (c.session ops).Respects R := by
  induction ops with
  | nil => exact Act.respects_pure _
  | cons op rest ih =>
    obtain ⟨here, others⟩ := List.forall_mem_cons.1 steps
    exact (respects_perform permits channel here).attempt.bind fun _ => (ih others).bind fun _ =>
      Act.respects_pure _

end

theorem permits_due (c : Client σ) : c.Permits (World.Due c.options.deadline) :=
  permits_adds (fun e remark => by cases e <;> trivial) fun _ => rfl

/-- All calls of a session have the deadline of the client's settings. -/
theorem due_session {c : Client σ} (channel : c.channel.Respects World.Aloof)
    {ops : List (Operation σ)} (aloof : ∀ op ∈ ops, op.Aloof) :
    (c.session ops).Respects (World.Due c.options.deadline) :=
  respects_session c.permits_due (channel.mono fun _ _ alone => alone.due _) fun op ho s streams
    made chunk => (aloof op ho s streams made chunk).mono fun _ _ alone => alone.due _

end Client

end Footage
