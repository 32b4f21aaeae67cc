import Footage.Client
import Footage.Proofs.Act.Respects

/-!
# What a client shows to its hook

`Client.presented` lists what presenting an item leaves in the journal, and
`Client.run_present` says that it leaves this and does nothing else, as long as the hook raises
ordinary faults only (`Hook.IsOrdinary`).  `Client.run_send` is the same for a request that is
presented and sent.
-/

namespace Footage

variable {σ : Type}

/-- All faults that the hook raises are ordinary. -/
def Hook.IsOrdinary (hook : Hook) : Prop :=
  ∀ past item e, hook past item = some e → e.isOrdinary = true

/-- The hook, if there is one, raises ordinary faults only. -/
def Client.Options.HasOrdinaryHook (o : Options) : Prop :=
  ∀ hook, o.hook = some hook → Hook.IsOrdinary hook

/-- The event is of the kind that clients and services note on the way of a call: entries of the
log, requests that are sent, calls that are cancelled, items that are shown to a hook. -/
def Event.IsTraffic : Event → Prop
  | logged _ | called _ _ | cancelled | hooked _ => True
  | _ => False

namespace Client

variable (c : Client σ)

/-- An entry of the log about the client's resource. -/
def entry (level : Log.Level) (message : String) (about : Option Fault.Kind := none) : Event :=
  .logged { logger := "videostore.client", level, message := c.name.text ++ ": " ++ message, about }

/-- What presenting an item adds to a journal: the item's type is logged, the hook is called with
the item, and if it raises a fault, that is logged too. -/
def presented (past : List Event) (item : Item) : List Event :=
  let shown := c.entry .debug item.typeName
  match c.options.hook with
  | none => [shown]
  | some hook =>
    match hook (past ++ [shown]) item with
    | none => [shown, .hooked item]
    | some e =>
      [shown, .hooked item,
        c.entry .error ("request_logger raised while handling " ++ item.typeName ++ ".") e.kind]

/-- What sending a request adds to a journal. -/
def sent (past : List Event) (r : Request) : List Event :=
  c.presented past (.request r) ++ [.called r c.options.deadline]

@[simp] theorem run_log (level : Log.Level) (message : String) (about : Option Fault.Kind)
    (w : World σ) :
    (c.log level message about).run w = .ok () (w.grow [c.entry level message about]) :=
  Act.run_log ..

variable {c}

/-- Presenting an item leaves nothing but `presented`, if the hook is ordinary. -/
theorem run_present (hook : c.options.HasOrdinaryHook) (item : Item) (w : World σ) :
    (c.present item).run w = .ok () (w.grow (c.presented w.journal item)) := by
  simp only [present, presented, EStateM.run_bind, run_log]
  cases ho : c.options.hook with
  | none => rfl
  | some h =>
    simp only [EStateM.run_bind, Act.run_history, Act.run_note, World.grow_journal]
    cases he : h (w.journal ++ [c.entry .debug item.typeName]) item with
    | none => simp only [EStateM.run_pure, World.grow_grow]; rfl
    | some e =>
      simp only [hook h ho _ _ _ he, if_true, run_log, World.grow_grow]
      rfl

theorem run_send (hook : c.options.HasOrdinaryHook) (r : Request) (w : World σ) :
    (c.send r).run w = .ok () (w.grow (c.sent w.journal r)) := by
  simp only [send, EStateM.run_bind, run_present hook, Act.run_note, World.grow_grow, sent]

/-- The world when the client has drawn an id for a request and has sent it. -/
def afterSending (c : Client σ) (r : Request) (w : World σ) : World σ :=
  w.grow (c.sent w.journal r) 1

/-- First the id is drawn, and then the request is sent. -/
theorem grow_sent (r : Request) (w : World σ) :
    (w.grow [] 1).grow (c.sent (w.grow [] 1).journal r) = c.afterSending r w := by
  simp only [afterSending, World.grow_grow, World.grow_journal, List.append_nil, List.nil_append,
    Nat.add_zero]

/-- Presenting an item notes no events but log entries and the call of the hook. -/
theorem of_mem_presented {past : List Event} {item : Item} {e : Event}
    (h : e ∈ c.presented past item) : (∃ entry, e = .logged entry) ∨ e = .hooked item := by
  simp only [presented] at h
  split at h
  · exact .inl ⟨_, List.mem_singleton.1 h⟩
  · split at h
    · rcases List.mem_cons.1 h with rfl | h
      · exact .inl ⟨_, rfl⟩
      · exact .inr (List.mem_singleton.1 h)
    · simp only [List.mem_cons, List.not_mem_nil, or_false] at h
      rcases h with rfl | rfl | rfl
      · exact .inl ⟨_, rfl⟩
      · exact .inr rfl
      · exact .inl ⟨_, rfl⟩

theorem isTraffic_of_mem_presented {past : List Event} {item : Item} {e : Event}
    (h : e ∈ c.presented past item) : e.IsTraffic := by
  rcases of_mem_presented h with ⟨entry, rfl⟩ | rfl <;> trivial

theorem isTraffic_of_mem_sent {past : List Event} {r : Request} {e : Event}
    (h : e ∈ c.sent past r) : e.IsTraffic := by
  rcases List.mem_append.1 h with h | h
  · exact isTraffic_of_mem_presented h
  · obtain rfl := List.mem_singleton.1 h
    trivial

end Client

end Footage
