import Footage.Proofs.Client.Tracing
import Footage.Proofs.Resource.Remotes

/-!
# Whom a client addresses

Every request of a client carries the short name of its resource.  This is said in two ways: what a
channel would answer to requests under other names makes no difference to a session
(`Client.session_congr`), nor does what it would answer with other deadlines
(`Client.session_congr_of_alikeAt`); and every request in the trace of an operation is one under
that name (`Client.Traced.name_eq`).

For a client that is made for a name and a remote, this is the short name behind that remote.
Together with the laws of names behind remotes this is `Client.addresses_through`.
-/

namespace Footage

variable {σ : Type}

/-- Two channels answer alike to the requests of a client for the resource under a name. -/
structure Channel.AlikeFor (name : String) (a b : Channel σ) : Prop where
  fetch : ∀ r deadline, r.name = name → a.fetch r deadline = b.fetch r deadline
  save : ∀ r deadline, r.name = name → a.save r deadline = b.save r deadline
  fetchStream : ∀ r deadline, r.name = name → a.fetchStream r deadline = b.fetchStream r deadline

/-- Two channels answer alike to the requests for the resource under a name that have a given
deadline. -/
structure Channel.AlikeAt (name : String) (deadline : Option Number.Quantity) (a b : Channel σ) :
    Prop where
  fetch : ∀ r, r.name = name → a.fetch r deadline = b.fetch r deadline
  save : ∀ r, r.name = name → a.save r deadline = b.save r deadline
  fetchStream : ∀ r, r.name = name → a.fetchStream r deadline = b.fetchStream r deadline

theorem Channel.AlikeFor.at {name : String} {a b : Channel σ} (alike : a.AlikeFor name b)
    (deadline : Option Number.Quantity) : a.AlikeAt name deadline b where
  fetch r := alike.fetch r deadline
  save r := alike.save r deadline
  fetchStream r := alike.fetchStream r deadline

namespace Client

/-! ### Other requests make no difference -/

section

variable {a b : Channel σ} {name : Resource.Name} {options : Options}

theorem fetch_congr (alike : a.AlikeAt name.short options.deadline b)
    (start stop container : String) :
    fetch ⟨a, name, options⟩ start stop container =
      fetch ⟨b, name, options⟩ start stop container := by
  have answer (requestId : String) := alike.fetch
    { name := name.short, start, stop, container, requestId } rfl
  simp only [fetch, answer]
  rfl

theorem save_congr (alike : a.AlikeAt name.short options.deadline b)
    (start stop container metadata : String) (background : Bool) :
    save ⟨a, name, options⟩ start stop container metadata background =
      save ⟨b, name, options⟩ start stop container metadata background := by
  have answer (requestId : String) := alike.save
    { name := name.short, start, stop, container, metadata, background, requestId } rfl
  simp only [save, answer]
  rfl

theorem feed_congr (alike : a.AlikeAt name.short options.deadline b)
    (start stop container : String) :
    feed ⟨a, name, options⟩ start stop container =
      feed ⟨b, name, options⟩ start stop container := by
  have answer (requestId : String) := alike.fetchStream
    { name := name.short, start, stop, container, requestId } rfl
  simp only [feed, answer]
  rfl

theorem perform_congr (alike : a.AlikeAt name.short options.deadline b) (op : Operation σ) :
    perform ⟨a, name, options⟩ op = perform ⟨b, name, options⟩ op := by
  cases op with
  | fetch start stop container => simp only [perform, fetch_congr alike]
  | save start stop container metadata background => simp only [perform, save_congr alike]
  | fetchStream start stop container onChunk =>
    cases onChunk with
    | usable callback => simp only [perform, fetchStream, feed_congr alike]
    | value v => rfl
  | streamInto start stop container write => simp only [perform, streamInto, feed_congr alike]
  | doCommand entries => rfl
  | close => rfl

/-- What a channel answers to requests under other names, or with other deadlines, makes no
difference. -/
theorem session_congr_of_alikeAt (alike : a.AlikeAt name.short options.deadline b)
    (ops : List (Operation σ)) :
    session ⟨a, name, options⟩ ops = session ⟨b, name, options⟩ ops := by
  induction ops with
  | nil => rfl
  | cons op rest ih => rw [session, session, perform_congr alike, ih]

theorem session_congr (alike : a.AlikeFor name.short b) (ops : List (Operation σ)) :
    session ⟨a, name, options⟩ ops = session ⟨b, name, options⟩ ops :=
  session_congr_of_alikeAt (alike.at _) ops

end

/-! ### The requests in a trace -/

variable {c : Client σ} {w w' : World σ} {request : Request} {deadline : Option Number.Quantity}

/-- The hook is no channel. -/
theorem called_notMem_hookCall (item : Item) : .called request deadline ∉ c.hookCall item := by
  unfold hookCall
  cases c.options.hook <;> simp

theorem eq_of_called_mem_requestTrace {r : Request}
    (h : .called request deadline ∈ c.requestTrace r) : request = r := by
  rcases List.mem_append.1 h with h | h
  · exact absurd h (called_notMem_hookCall _)
  · simp only [List.mem_singleton, Event.called.injEq] at h
    exact h.1

theorem called_notMem_faultTrace (e : Fault) : .called request deadline ∉ c.faultTrace e := by
  intro h
  rcases List.mem_cons.1 h with h | h
  · cases h
  · exact called_notMem_hookCall _ h

/-- Every request of an operation is one for the client's resource. -/
theorem Traced.name_eq {op : Operation σ} {outcome : Except Fault Result} {trace : List Event}
    (traced : c.Traced op w outcome trace w') (h : .called request deadline ∈ trace) :
    request.name = c.name.short := by
  cases traced with
  | fetch made => rw [eq_of_called_mem_requestTrace h, made]; rfl
  | save made => rw [eq_of_called_mem_requestTrace h, made]; rfl
  | rejected => cases h
  | unopened => rw [eq_of_called_mem_requestTrace h]; rfl
  | completed => rw [eq_of_called_mem_requestTrace h]; rfl
  | failed =>
    rcases List.mem_append.1 h with h | h
    · rw [eq_of_called_mem_requestTrace h]; rfl
    · exact absurd h (called_notMem_faultTrace _)
  | halted => rw [eq_of_called_mem_requestTrace h]; rfl
  | doCommand => cases h
  | close => cases h

theorem TracedAll.name_eq {ops : List (Operation σ)} {outcomes : List (Except Fault Result)}
    {traces : List (List Event)} (traced : c.TracedAll ops w outcomes traces w')
    (h : .called request deadline ∈ traces.flatten) : request.name = c.name.short := by
  induction traced with
  | nil => cases h
  | cons first _ ih =>
    rcases List.mem_append.1 h with h | h
    · exact first.name_eq h
    · exact ih h

/-- **Remotes compose, and a client addresses its resource through all of them.**  Behind any
remotes a name keeps its API and its own name; its remote are the non-empty ones of them, the last
one outermost, and its former remote, with colons between them, and this and the own name make up
the short name.  Two remotes do the same as one with a colon in it, and the name survives its text
if it did before.

A client for a name and a remote sends requests under the short name behind that remote, and no
others: the answers of its channel to other requests make no difference to a session, and the traces
of a session show no other request. -/
theorem addresses_through (n : Resource.Name) (remotes : List String) :
    (n.through remotes).api = n.api ∧ (n.through remotes).base = n.base ∧
      (n.through remotes).remote = ":".intercalate (n.hops remotes) ∧
      (n.through remotes).short =
        (if n.hops remotes = [] then n.base
          else ":".intercalate (n.hops remotes) ++ ":" ++ n.base) ∧
      (∀ inner outer, inner ≠ "" → outer ≠ "" →
        (n.via inner).via outer = n.via (outer ++ ":" ++ inner)) ∧
      (Resource.Name.parse n.text = .ok n →
        Resource.Name.parse (n.through remotes).text = .ok (n.through remotes)) ∧
      ∀ (σ : Type) (options : Options) (remote : String),
        (∀ a b : Channel σ, a.AlikeFor (n.via remote).short b → ∀ ops,
          (make a n options remote).session ops = (make b n options remote).session ops) ∧
        ∀ channel : Channel σ, options.HasOrdinaryHook → ∀ ops w, ∃ outcomes traces w',
          ((make channel n options remote).session ops).run w = .ok outcomes w' ∧
          (make channel n options remote).TracedAll ops w outcomes traces w' ∧
          ∀ request deadline, .called request deadline ∈ traces.flatten →
            request.name = (n.via remote).short := by
  refine ⟨n.through_api remotes, n.through_base remotes, n.remote_through remotes,
    n.short_through remotes, fun inner outer hi ho => Resource.Name.via_via hi ho,
    fun survives => Resource.Name.parse_text_through survives remotes,
    fun σ options remote => ⟨?_, ?_⟩⟩
  · intro a b alike ops
    exact session_congr alike ops
  · intro channel hook ops w
    obtain ⟨outcomes, traces, w', run, traced⟩ :=
      exists_tracedAll (c := make channel n options remote) hook ops w
    exact ⟨outcomes, traces, w', run, traced, fun _ _ h => traced.name_eq h⟩

/-- A name behind three remotes, one of them empty and one with a colon, and a session on it. -/
theorem addresses_through_camera :
    let camera : Resource.Name := ⟨.videoStore, "cam", "shed", by decide⟩
    let client : Client Unit := make (.replay {}) camera {} "barn"
    let ops : List (Operation Unit) := [.fetch "a" "b" "mp4", .save "a" "b" "mp4" "" true]
    (camera.through ["barn", "", "west:farm"]).short = "west:farm:barn:shed:cam" ∧
      (camera.via "barn").via "west:farm" = camera.via "west:farm:barn" ∧
      Resource.Name.parse camera.text = .ok camera ∧
      (∃ n, n = camera.through ["barn", "", "west:farm"] ∧ Resource.Name.parse n.text = .ok n) ∧
      ∃ outcomes traces w', (client.session ops).run (.fresh ()) = .ok outcomes w' ∧
        client.TracedAll ops (.fresh ()) outcomes traces w' ∧
        ∀ request deadline, .called request deadline ∈ traces.flatten →
          request.name = "barn:shed:cam" := by
  intro camera client ops
  obtain ⟨-, -, -, short, group, survives, clients⟩ :=
    addresses_through camera ["barn", "", "west:farm"]
  have read : Resource.Name.parse camera.text = .ok camera := by
    refine Resource.Name.parse_text ⟨⟨?_, ?_, ?_⟩, ?_⟩ <;> decide
  obtain ⟨outcomes, traces, w', run, traced, names⟩ :=
    (clients Unit {} "barn").2 (.replay {}) nofun ops (.fresh ())
  exact ⟨by rw [short]; rfl, group "barn" "west:farm" (by decide) (by decide), read,
    ⟨_, rfl, survives read⟩, outcomes, traces, w', run, traced, names⟩

end Client

end Footage
