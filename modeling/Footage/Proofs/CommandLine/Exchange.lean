import Footage.CommandLine.Options
import Footage.Proofs.Act.Outcome
import Footage.Proofs.CommandLine.Words

/-!
# Another command in place of a command

What stands before a command is read without looking at the command, and the words behind it are
read by the form of the command.  So where two commands have the same switches, one may be put in
place of the other (`CommandLine.parse_exchange`): a command line that fetches a range is read in
the same way when it streams the range instead.

`Form.walk_split` says where the command is among the arguments, and that another word may stand
there; `Form.walk_related` that a form with another name of the program goes the same way through
the same arguments, and keeps its settings related if the switches do.
-/

namespace Footage.CommandLine

variable {α : Type}

namespace Form

variable {f f' : Form α} {arg : String} {args : List String} {t : Token α} {ts : List (Token α)}

/-! ### Tokens -/

theorem text_of_token (h : f.token arg = .ok t) : t.text = arg := by
  unfold token at h
  split at h
  · unfold dashed at h
    split at h
    · cases h
      rfl
    · split at h
      · cases h
        rfl
      · split at h
        · cases h
          rfl
        · split at h <;> cases h <;> rfl
        · cases h
  · cases h
    rfl

theorem exists_of_tokens_cons (ne : arg ≠ endMark) (h : f.tokens (arg :: args) = .ok ts) :
    ∃ t ts', f.token arg = .ok t ∧ f.tokens args = .ok ts' ∧ ts = t :: ts' := by
  rw [tokens, if_neg ne] at h
  obtain ⟨t, ht, h⟩ := exists_of_bind_ok h
  obtain ⟨ts', hs, h⟩ := exists_of_bind_ok h
  cases h
  exact ⟨t, ts', ht, hs, rfl⟩

/-- The tokens of a command line have its arguments as their texts. -/
theorem map_text_of_tokens (h : f.tokens args = .ok ts) : ts.map Token.text = args := by
  induction args generalizing ts with
  | nil =>
    cases h
    rfl
  | cons arg args ih =>
    by_cases mark : arg = endMark
    · rw [tokens, if_pos mark] at h
      cases h
      simp [Token.text, mark, Function.comp_def]
    · obtain ⟨t, ts', ht, hs, rfl⟩ := exists_of_tokens_cons mark h
      rw [List.map_cons, text_of_token ht, ih hs]

/-- A word that is plain to the form. -/
def IsPlain (f : Form α) (word : String) : Prop :=
  word ≠ endMark ∧ f.token word = .ok (.plain word)

/-- Where a plain word stands another one may stand. -/
theorem tokens_exchange {before after : List (Token α)} {word word' : String}
    (h : f.tokens args = .ok (before ++ .plain word :: after)) (plain : f.IsPlain word') :
    f.tokens (before.map Token.text ++ word' :: after.map Token.text) =
      .ok (before ++ .plain word' :: after) := by
  induction before generalizing args with
  | nil =>
    cases args with
    | nil => cases h
    | cons arg args =>
      by_cases mark : arg = endMark
      · rw [tokens, if_pos mark] at h
        cases h
      · obtain ⟨t, ts', -, hs, eq⟩ := exists_of_tokens_cons mark h
        cases eq
        rw [List.map_nil, List.nil_append, map_text_of_tokens hs]
        exact tokens_cons plain.1 plain.2 hs
  | cons t before ih =>
    cases args with
    | nil => cases h
    | cons arg args =>
      by_cases mark : arg = endMark
      · -- Behind the mark all words are plain.
        rw [tokens, if_pos mark, Except.ok.injEq, List.cons_append, List.cons.injEq] at h
        obtain ⟨rfl, same⟩ := h
        obtain ⟨front, back, rfl, rfl, rest⟩ := List.map_eq_append_iff.1 same
        obtain ⟨_, back, rfl, -, rfl⟩ := List.map_eq_cons_iff.1 rest
        have texts (words : List String) :
            (words.map (Token.plain (α := α))).map Token.text = words := by
          simp [Function.comp_def, Token.text]
        rw [List.map_cons, texts, texts, List.cons_append, Token.text, tokens, if_pos rfl]
        simp
      · obtain ⟨t', ts', ht, hs, eq⟩ := exists_of_tokens_cons mark h
        obtain ⟨rfl, rfl⟩ := List.cons.inj eq
        rw [List.map_cons, text_of_token ht]
        exact tokens_cons mark ht (ih hs)

/-! ### The command -/

/-- A switch that does not take the next word for its value. -/
theorem walk_known {p : Progress α} {text name : String} {s : Switch α} {attached : Option String}
    {k : Cluster α} (clustered : f.clusterOf s name attached = .ok k)
    (alone : ∀ metavar, k.last.metavar? = some metavar → k.attached ≠ none) :
    f.walk p (.known text s name attached :: ts) =
      (do f.walk (← f.applyAll p k (k.attached.getD "")) ts) := by
  rw [walk, clustered]
  dsimp only
  split
  · next takes detached => exact absurd detached (alone _ takes)
  · next takes detached _ => exact absurd detached (alone _ takes)
  · rfl

/-- What is neither a switch nor looks like one is a word, perhaps for a command. -/
theorem walk_word {p : Progress α}
    (known : ∀ text s name attached, t = .known text s name attached → False)
    (foreign : ∀ text, t = .foreign text → False) :
    f.walk p (t :: ts) =
      match f.command? t ts with
      | some command => .ok (p, some command)
      | none => f.walk { p with extras := p.extras ++ [t.text] } ts := by
  cases t with
  | known text s name attached => exact (known text s name attached rfl).elim
  | foreign text => exact (foreign text rfl).elim
  | mark => rfl
  | plain text => rfl

theorem command?_of_commands_eq_nil (none : f.commands = []) (t : Token α) (ts : List (Token α)) :
    f.command? t ts = .none := by
  unfold command?
  rw [none]

theorem of_command?_eq_some {command : String × List String} (h : f.command? t ts = some command) :
    f.commands ≠ [] ∧ command = (t.text, ts.map Token.text) := by
  constructor
  · intro none
    rw [command?_of_commands_eq_nil none] at h
    cases h
  · unfold command? at h
    split at h
    · cases h
    · cases h
    · cases h
      rfl

theorem command?_plain (more : f.commands ≠ []) (word : String) (ts : List (Token α)) :
    f.command? (.plain word) ts = some (word, ts.map Token.text) := by
  unfold command?
  split
  · next none => exact absurd none more
  · next mark _ => cases mark
  · rfl

/-- The command is a plain word among the arguments, and another such word may stand there. -/
theorem walk_split {p q : Progress α} {name : String} {rest : List String} (ne : name ≠ endMark)
    (h : f.walk p ts = .ok (q, some (name, rest))) :
    ∃ before after, ts = before ++ .plain name :: after ∧ rest = after.map Token.text ∧
      ∀ name', f.walk p (before ++ .plain name' :: after) = .ok (q, some (name', rest)) := by
  fun_induction walk f p ts with
  | case1 => cases h
  | case2 => cases h
  | case3 p text s switch attached k clustered metavar value rest detached takes ih =>
    obtain ⟨p', applied, h⟩ := exists_of_bind_ok h
    obtain ⟨before, after, rfl, texts, walks⟩ := ih p' h
    refine ⟨.known text s switch attached :: .plain value :: before, after, rfl, texts,
      fun name' => ?_⟩
    simp only [List.cons_append, walk, clustered, takes, detached, applied]
    exact walks name'
  | case4 => cases h
  | case5 p text s switch attached k clustered rest _ alone ih =>
    obtain ⟨p', applied, h⟩ := exists_of_bind_ok h
    obtain ⟨before, after, rfl, texts, walks⟩ := ih p' h
    refine ⟨.known text s switch attached :: before, after, rfl, texts, fun name' => ?_⟩
    rw [List.cons_append, walk_known clustered alone, applied]
    exact walks name'
  | case6 p text rest ih =>
    obtain ⟨before, after, rfl, texts, walks⟩ := ih h
    exact ⟨.foreign text :: before, after, rfl, texts, walks⟩
  | case7 p t rest known foreign command begun =>
    obtain ⟨more, rfl⟩ := of_command?_eq_some begun
    cases h
    cases t with
    | known text s switch attached => exact (known text s switch attached rfl).elim
    | foreign text => exact (foreign text rfl).elim
    | mark => exact absurd rfl ne
    | plain text =>
      refine ⟨[], rest, rfl, rfl, fun name' => ?_⟩
      simp only [List.nil_append, walk, command?_plain more]
  | case8 p t rest known foreign word ih =>
    obtain ⟨before, after, rfl, texts, walks⟩ := ih h
    -- There are words left, so the form has no commands.
    have none : f.commands = [] := by
      unfold command? at word
      split at word
      · next none => exact none
      · next nothing _ => simp at nothing
      · cases word
    refine ⟨t :: before, after, rfl, texts, fun name' => ?_⟩
    rw [List.cons_append, walk_word known foreign, command?_of_commands_eq_nil none]
    exact walks name'

/-! ### Forms with the same switches -/

theorem mem_of_find? {name : String} {s : Switch α} (h : f.find? name = some s) :
    s ∈ f.switches := by
  obtain ⟨front, back, same, -⟩ := List.lookup_eq_some_iff.1 h
  have mem : (name, s) ∈ f.byName := by
    rw [same]
    simp
  obtain ⟨s', own, named⟩ := List.mem_flatMap.1 mem
  obtain ⟨name', -, eq⟩ := List.mem_map.1 named
  cases eq
  exact own

theorem mem_of_candidates {name : String} {s : Switch α} {attached : Option String}
    (h : (s, name, attached) ∈ f.candidates arg) : s ∈ f.switches := by
  unfold candidates at h
  split at h
  · obtain ⟨entry, mem, eq⟩ := List.mem_map.1 h
    obtain ⟨s', own, named⟩ := List.mem_flatMap.1 (List.mem_filter.1 mem).1
    obtain ⟨name', -, rfl⟩ := List.mem_map.1 named
    cases eq
    exact own
  · dsimp only at h
    split at h
    · next found =>
      cases List.mem_singleton.1 h
      exact mem_of_find? found
    · cases h

/-- The token is no switch, or one of the form. -/
def Knows (f : Form α) (t : Token α) : Prop :=
  ∀ text s name attached, t = .known text s name attached → s ∈ f.switches

theorem knows_of_token (h : f.token arg = .ok t) : f.Knows t := by
  rintro text s name attached rfl
  unfold token at h
  split at h
  · unfold dashed at h
    split at h
    · cases h
      exact mem_of_find? ‹_›
    · split at h
      · next found =>
        cases h
        split at found
        · exact mem_of_find? found
        · cases found
      · split at h
        · next only =>
          cases h
          have mem : (s, name, attached) ∈ f.candidates arg := by
            rw [only]
            exact List.mem_singleton_self _
          exact mem_of_candidates mem
        · split at h <;> cases h
        · cases h
  · cases h

theorem knows_of_tokens (h : f.tokens args = .ok ts) : ∀ t ∈ ts, f.Knows t := by
  induction args generalizing ts with
  | nil =>
    cases h
    simp
  | cons arg args ih =>
    by_cases mark : arg = endMark
    · rw [tokens, if_pos mark] at h
      cases h
      simp [Knows]
    · obtain ⟨t, ts', ht, hs, rfl⟩ := exists_of_tokens_cons mark h
      exact List.forall_mem_cons.2 ⟨knows_of_token ht, ih hs⟩

/-- The switches of a cluster are those of the form. -/
theorem mem_of_cluster {s : Switch α} {name : String} {cs : List Char} {k : Cluster α}
    (own : s ∈ f.switches) (h : f.cluster s name cs = .ok k) :
    (∀ m ∈ k.marks, m ∈ f.switches) ∧ k.last ∈ f.switches := by
  fun_induction cluster f s name cs generalizing k with
  | case1 =>
    cases h
    exact ⟨by simp, own⟩
  | case2 => cases h
  | case3 =>
    cases h
    exact ⟨by simp, own⟩
  | case4 => cases h
  | case5 s name c rest _ short next found =>
    cases h
    split at found
    · cases found
    · exact ⟨by simpa using own, mem_of_find? found⟩
  | case6 s name c rest _ short next found _ =>
    rename_i ih
    split at found
    · cases found
    · cases more : f.cluster next short rest with
      | error r =>
        rw [more] at h
        cases h
      | ok k' =>
        rw [more] at h
        cases h
        obtain ⟨marks, last⟩ := ih (mem_of_find? found) more
        exact ⟨List.forall_mem_cons.2 ⟨own, marks⟩, last⟩

theorem mem_of_clusterOf {s : Switch α} {name : String} {attached : Option String} {k : Cluster α}
    (own : s ∈ f.switches) (h : f.clusterOf s name attached = .ok k) :
    (∀ m ∈ k.marks, m ∈ f.switches) ∧ k.last ∈ f.switches := by
  cases attached with
  | none =>
    cases h
    exact ⟨by simp, own⟩
  | some text => exact mem_of_cluster own h

/-- The form where the program has another name. -/
def called (f : Form α) (program : String) : Form α := { f with program }

variable (program : String)

theorem tokens_called (args : List String) : (f.called program).tokens args = f.tokens args := by
  induction args with
  | nil => rfl
  | cons arg args ih =>
    rw [tokens, tokens, ih]
    rfl

theorem cluster_called (s : Switch α) (name : String) (cs : List Char) :
    (f.called program).cluster s name cs = f.cluster s name cs := by
  induction cs generalizing s name with
  | nil => rfl
  | cons c cs ih =>
    simp only [cluster, ih]
    rfl

theorem command?_called (t : Token α) (ts : List (Token α)) :
    (f.called program).command? t ts = f.command? t ts := rfl

theorem clusterOf_called (s : Switch α) (name : String) (attached : Option String) :
    (f.called program).clusterOf s name attached = f.clusterOf s name attached := by
  cases attached with
  | none => rfl
  | some text => exact cluster_called program s name text.toList

end Form

/-- The effect leads from related settings to related ones. -/
def Effect.Keeps (R : α → α → Prop) : Effect α → Prop
  | .mark set => ∀ a b, R a b → R (set a) (set b)
  | .take _ set => ∀ given a b a', R a b → set given a = .ok a' →
      ∃ b', set given b = .ok b' ∧ R a' b'
  | _ => True

/-- The settings are related, and the rest is the same. -/
structure Progress.Related (R : α → α → Prop) (p p' : Progress α) : Prop where
  settings : R p.settings p'.settings
  seen : p'.seen = p.seen
  extras : p'.extras = p.extras

namespace Form

variable {f : Form α} (program : String) {R : α → α → Prop} {p q p' : Progress α}

theorem apply_related {s : Switch α} {given : String} (keeps : s.effect.Keeps R)
    (related : p.Related R p') (h : f.apply p s given = .ok q) :
    ∃ q', (f.called program).apply p' s given = .ok q' ∧ q.Related R q' := by
  obtain ⟨settings, seen, extras⟩ := related
  unfold apply at h ⊢
  cases hs : s.effect with
  | help =>
    rw [hs] at h
    cases h
  | announce text =>
    rw [hs] at h
    cases h
  | mark set =>
    simp only [hs, Except.ok.injEq] at h
    rw [hs] at keeps
    cases h
    exact ⟨_, rfl, keeps _ _ settings, by rw [seen], extras⟩
  | take metavar set =>
    simp only [hs] at h
    rw [hs] at keeps
    split at h
    · next a done =>
      cases h
      obtain ⟨b, done', settings'⟩ := keeps _ _ _ _ settings done
      simp only [done']
      exact ⟨_, rfl, settings', by rw [seen], extras⟩
    · cases h

theorem applyAll_related {k : Cluster α} {given : String}
    (marks : ∀ s ∈ k.marks, s.effect.Keeps R) (last : k.last.effect.Keeps R)
    (related : p.Related R p') (h : f.applyAll p k given = .ok q) :
    ∃ q', (f.called program).applyAll p' k given = .ok q' ∧ q.Related R q' := by
  have go {ms : List (Switch α)} (marks : ∀ s ∈ ms, s.effect.Keeps R) {p p' q : Progress α}
      (related : p.Related R p') (h : ms.foldlM (fun p s => f.apply p s "") p = .ok q) :
      ∃ q', ms.foldlM (fun p s => (f.called program).apply p s "") p' = .ok q' ∧
        q.Related R q' := by
    induction ms generalizing p p' with
    | nil =>
      cases h
      exact ⟨p', rfl, related⟩
    | cons s ms ih =>
      obtain ⟨first, others⟩ := List.forall_mem_cons.1 marks
      rw [List.foldlM_cons] at h
      obtain ⟨r, applied, h⟩ := exists_of_bind_ok h
      obtain ⟨r', applied', related'⟩ := apply_related program first related applied
      obtain ⟨q', folded, related''⟩ := ih others related' h
      refine ⟨q', ?_, related''⟩
      rw [List.foldlM_cons, applied']
      exact folded
  obtain ⟨r, folded, h⟩ := exists_of_bind_ok h
  obtain ⟨r', folded', related'⟩ := go marks related folded
  obtain ⟨q', applied, related''⟩ := apply_related program last related' h
  refine ⟨q', ?_, related''⟩
  rw [applyAll, folded']
  exact applied

/-- **What the name of the program is does not matter for the way through the arguments, and
settings that are related stay so if every switch keeps them related.** -/
theorem walk_related (keeps : ∀ s ∈ f.switches, s.effect.Keeps R) {ts : List (Token α)}
    (known : ∀ t ∈ ts, f.Knows t) (related : p.Related R p')
    {command : Option (String × List String)} (h : f.walk p ts = .ok (q, command)) :
    ∃ q', (f.called program).walk p' ts = .ok (q', command) ∧ q.Related R q' := by
  have all {s : Switch α} {name : String} {attached : Option String} {k : Cluster α}
      (own : s ∈ f.switches) (clustered : f.clusterOf s name attached = .ok k) :
      (∀ m ∈ k.marks, m.effect.Keeps R) ∧ k.last.effect.Keeps R := by
    obtain ⟨marks, last⟩ := mem_of_clusterOf own clustered
    exact ⟨fun m hm => keeps m (marks m hm), keeps _ last⟩
  fun_induction walk f p ts generalizing p' with
  | case1 =>
    cases h
    exact ⟨p', rfl, related⟩
  | case2 => cases h
  | case3 p text s switch attached k clustered metavar value rest detached takes ih =>
    obtain ⟨own, known⟩ := List.forall_mem_cons.1 known
    obtain ⟨marks, last⟩ := all (own _ _ _ _ rfl) clustered
    obtain ⟨r, applied, h⟩ := exists_of_bind_ok h
    obtain ⟨r', applied', related'⟩ := applyAll_related program marks last related applied
    obtain ⟨q', walked, related''⟩ := ih r (List.forall_mem_cons.1 known).2 related' h
    refine ⟨q', ?_, related''⟩
    simp only [walk, clusterOf_called, clustered, takes, detached, applied']
    exact walked
  | case4 => cases h
  | case5 p text s switch attached k clustered rest _ alone ih =>
    obtain ⟨own, known⟩ := List.forall_mem_cons.1 known
    obtain ⟨marks, last⟩ := all (own _ _ _ _ rfl) clustered
    obtain ⟨r, applied, h⟩ := exists_of_bind_ok h
    obtain ⟨r', applied', related'⟩ := applyAll_related program marks last related applied
    obtain ⟨q', walked, related''⟩ := ih r known related' h
    refine ⟨q', ?_, related''⟩
    rw [walk_known (by rw [clusterOf_called, clustered]) alone, applied']
    exact walked
  | case6 p text rest ih =>
    exact ih (List.forall_mem_cons.1 known).2
      ⟨related.settings, related.seen, by rw [related.extras]⟩ h
  | case7 p t rest known' foreign command begun =>
    cases h
    refine ⟨p', ?_, related⟩
    rw [walk_word known' foreign, command?_called, begun]
  | case8 p t rest known' foreign word ih =>
    have longer : Progress.Related R { p with extras := p.extras ++ [t.text] }
        { p' with extras := p'.extras ++ [t.text] } :=
      ⟨related.settings, related.seen, by rw [related.extras]⟩
    obtain ⟨q', walked, related'⟩ := ih (List.forall_mem_cons.1 known).2 longer h
    refine ⟨q', ?_, related'⟩
    rw [walk_word known' foreign, command?_called, word]
    exact walked

end Form

namespace Grammar

variable {γ : Type} {g : Grammar γ α} {c : γ} {j : α} {args : List String}

/-- A command line is read in two steps: the form of the program up to the command, and that of the
command from there. -/
theorem parse_eq_ok_iff : g.parse args = .ok (c, j) ↔
    ∃ p name rest k q, g.form.read g.start args = .ok (p, some (name, rest)) ∧
      g.commands.find? (·.name == name) = some k ∧ g.readCommand k rest = .ok q ∧
      g.form.refuseExtras (p.extras ++ q.extras) = .ok () ∧ p.settings = c ∧ q.settings = j := by
  constructor
  · intro h
    obtain ⟨⟨p, command⟩, read, h⟩ := exists_of_bind_ok h
    cases command with
    | none => cases h
    | some command =>
      dsimp only at h
      split at h
      · cases h
      · next k found =>
        obtain ⟨q, went, h⟩ := exists_of_bind_ok h
        obtain ⟨_, fine, h⟩ := exists_of_bind_ok h
        cases h
        exact ⟨p, command.1, command.2, k, q, read, found, went, fine, rfl, rfl⟩
  · rintro ⟨p, name, rest, k, q, read, found, went, fine, rfl, rfl⟩
    simp only [parse, bind, Except.bind, read, found, went, fine]
    rfl

variable {R : α → α → Prop} {k k' : Command α}

/-- Two commands with the same switches go the same way through the same arguments. -/
theorem readCommand_related (same : k'.switches = k.switches) (start : R k.start k'.start)
    (keeps : ∀ s ∈ k.switches, s.effect.Keeps R) {q : Progress α}
    (h : g.readCommand k args = .ok q) :
    ∃ q', g.readCommand k' args = .ok q' ∧ q.Related R q' := by
  obtain ⟨⟨r, command⟩, read, h⟩ := exists_of_bind_ok h
  have renamed : g.formOf k' = (g.formOf k).called (g.formOf k').program := by
    rw [formOf, same]
    rfl
  unfold Form.read at read
  split at read
  · cases read
  · next ts tokens =>
    have begun : Progress.Related R { settings := k.start } { settings := k'.start } :=
      ⟨start, rfl, rfl⟩
    obtain ⟨q', walked, related⟩ := Form.walk_related (g.formOf k').program keeps
      (Form.knows_of_tokens tokens) begun read
    have full : (g.formOf k').missing q' = (g.formOf k).missing r := by
      rw [renamed, Form.missing, related.seen]
      rfl
    have read' : (g.formOf k').read k'.start args = .ok (q', command) := by
      rw [renamed, Form.read, Form.tokens_called, tokens]
      exact walked
    dsimp only at h
    split at h
    · next complete =>
      cases h
      refine ⟨q', ?_, related⟩
      simp only [readCommand, bind, Except.bind, read', full, complete]
      rfl
    · cases h

end Grammar

/-! ### Streaming in place of fetching -/

/-- A switch for one setting keeps what the setting keeps, blank or with what was read. -/
theorem keeps_setting_of_read {β : Type} {R : α → α → Prop} {names : List String}
    {metavar help : String} {read : String → Except Objection β} {put : Setting β → α → α}
    {required : Bool} (blank : ∀ a a', R a a' → R (put .blank a) (put .blank a'))
    (value : ∀ text b, read text = .ok b →
      ∀ a a', R a a' → R (put (.value b) a) (put (.value b) a')) :
    (Switch.setting names metavar help read put required).effect.Keeps R := by
  intro given a a' next related done
  cases given with
  | none =>
    cases done
    exact ⟨_, rfl, blank _ _ related⟩
  | some text =>
    dsimp only at done ⊢
    cases hr : read text with
    | error objection =>
      rw [hr] at done
      cases done
    | ok b =>
      rw [hr] at done
      cases done
      exact ⟨_, rfl, value text b hr _ _ related⟩

/-- A switch for one setting keeps what the setting keeps. -/
theorem keeps_setting {β : Type} {R : α → α → Prop} {names : List String} {metavar help : String}
    {read : String → Except Objection β} {put : Setting β → α → α} {required : Bool}
    (h : ∀ b a a', R a a' → R (put b a) (put b a')) :
    (Switch.setting names metavar help read put required).effect.Keeps R :=
  keeps_setting_of_read (h .blank) fun _ b _ => h (.value b)

namespace Job

/-- The second job streams what the first one fetches. -/
def Restreamed (j j' : Job) : Prop :=
  ∃ output, j.task = .fetch output ∧ j' = { j with task := .stream output }

theorem restreamed_keeps :
    ∀ s ∈ .showHelp :: rangeSwitches ++ [outputSwitch], s.effect.Keeps Restreamed := by
  simp only [rangeSwitches, List.cons_append, List.nil_append, List.forall_mem_cons, Switch.text,
    outputSwitch]
  refine ⟨trivial, keeps_setting ?_, keeps_setting ?_, keeps_setting ?_, keeps_setting ?_,
    keeps_setting ?_, by simp⟩
  all_goals
    rintro b j _ ⟨output, task, rfl⟩
  · exact ⟨output, task, rfl⟩
  · exact ⟨output, task, rfl⟩
  · exact ⟨output, task, rfl⟩
  · exact ⟨output, task, rfl⟩
  · exact ⟨b, by rw [task]; rfl, rfl⟩

/-- No switch makes a job of another kind. -/
theorem name_keeps (name : String) :
    ∀ s ∈ .showHelp :: rangeSwitches ++ outputSwitch :: saveSwitches,
      s.effect.Keeps fun j _ => j.task.name = name := by
  simp only [rangeSwitches, List.cons_append, List.nil_append, List.forall_mem_cons, Switch.text,
    outputSwitch, saveSwitches]
  refine ⟨trivial, keeps_setting ?_, keeps_setting ?_, keeps_setting ?_, keeps_setting ?_,
    keeps_setting ?_, keeps_setting ?_, ?_, by simp⟩
  · exact fun _ _ _ h => h
  · exact fun _ _ _ h => h
  · exact fun _ _ _ h => h
  · exact fun _ _ _ h => h
  · rintro b ⟨start, stop, last, container, task⟩ _ rfl
    cases task <;> rfl
  · rintro b ⟨start, stop, last, container, task⟩ _ rfl
    cases task <;> rfl
  · rintro ⟨start, stop, last, container, task⟩ _ rfl
    cases task <;> rfl

/-- A command makes a job of its kind. -/
theorem name_of_readCommand {g : Grammar Connection Job} {k : Command Job} (hk : k ∈ commands)
    {args : List String} {q : Progress Job} (h : g.readCommand k args = .ok q) :
    q.settings.task.name = k.name := by
  have own : (∀ s ∈ k.switches, s ∈ .showHelp :: rangeSwitches ++ outputSwitch :: saveSwitches) ∧
      k.start.task.name = k.name := by
    simp only [commands, List.mem_cons, List.not_mem_nil, or_false] at hk
    rcases hk with rfl | rfl | rfl
    · exact ⟨by simp +contextual [command, or_imp], rfl⟩
    · exact ⟨by simp +contextual [command, or_imp], rfl⟩
    · exact ⟨by simp +contextual [command, or_imp], rfl⟩
  obtain ⟨q', -, related⟩ := Grammar.readCommand_related rfl own.2
    (fun s hs => name_keeps k.name s (own.1 s hs)) h
  exact related.settings

/-- What makes a job that fetches is the command for this, and that for streaming makes a job that
streams of the same arguments. -/
theorem readCommand_exchange {g : Grammar Connection Job} {k : Command Job} (hk : k ∈ commands)
    {args : List String} {q : Progress Job} (h : g.readCommand k args = .ok q)
    {output : Setting String} (fetched : q.settings.task = .fetch output) :
    k.name = "fetch" ∧ ∃ k' q', commands.find? (·.name == "stream") = some k' ∧
      g.readCommand k' args = .ok q' ∧ q.Related Restreamed q' := by
  have named := name_of_readCommand hk h
  rw [fetched] at named
  simp only [commands, List.mem_cons, List.not_mem_nil, or_false] at hk
  rcases hk with rfl | rfl | rfl
  · have start : Restreamed { task := .fetch .blank } { task := .stream .blank } :=
      ⟨.blank, rfl, rfl⟩
    have same : (command (.stream .blank) "Stream a range in chunks." [outputSwitch]).switches =
        (command (.fetch .blank) "Fetch a range in one response." [outputSwitch]).switches := rfl
    obtain ⟨q', went, related⟩ := Grammar.readCommand_related same start restreamed_keeps h
    exact ⟨rfl, _, q', rfl, went, related⟩
  · simp [command, Task.name] at named
  · simp [command, Task.name] at named

end Job

namespace Form

variable {f : Form α} {start : α} {args rest : List String} {name : String} {p : Progress α}

/-- The command stands among the arguments, and another one may stand there. -/
theorem read_exchange (name' : String) (ne : name ≠ endMark) (plain : f.IsPlain name')
    (h : f.read start args = .ok (p, some (name, rest))) :
    ∃ front, args = front ++ name :: rest ∧
      f.read start (front ++ name' :: rest) = .ok (p, some (name', rest)) := by
  unfold read at h
  split at h
  · cases h
  · next ts tokens =>
    obtain ⟨before, after, rfl, rfl, walks⟩ := walk_split ne h
    refine ⟨before.map Token.text, ?_, ?_⟩
    · rw [← map_text_of_tokens tokens, List.map_append, List.map_cons, Token.text]
    · rw [read, tokens_exchange tokens plain]
      exact walks name'

end Form

/-- **A command line that fetches a range streams it, with the same options, if the word for the
command is another one.** -/
theorem parse_exchange {args : List String} {c : Connection} {j : Job} {output : Setting String}
    (parsed : (grammar).parse args = .ok (c, { j with task := .fetch output })) :
    ∃ front back, args = front ++ "fetch" :: back ∧
      (grammar).parse (front ++ "stream" :: back) =
        .ok (c, { j with task := .stream output }) := by
  obtain ⟨p, name, rest, k, q, read, found, went, fine, rfl, fetched⟩ :=
    Grammar.parse_eq_ok_iff.1 parsed
  obtain ⟨named, k', q', found', went', related⟩ :=
    Job.readCommand_exchange (List.mem_of_find?_eq_some found) went (congrArg Job.task fetched)
  have same : (k.name == name) = true :=
    List.find?_some (p := fun k : Command Job => k.name == name) found
  obtain rfl : "fetch" = name := named.symm.trans (beq_iff_eq.1 same)
  obtain ⟨front, rfl, read'⟩ := Form.read_exchange "stream" (by decide) ⟨by decide, rfl⟩ read
  refine ⟨front, rest, rfl, Grammar.parse_eq_ok_iff.2
    ⟨p, "stream", rest, k', q', read', found', went', ?_, rfl, ?_⟩⟩
  · rw [related.extras]
    exact fine
  · obtain ⟨output', task, streamed⟩ := related.settings
    rw [fetched] at task streamed
    cases task
    exact streamed

end Footage.CommandLine
