import Footage.CommandLine.Reading

/-!
# Words that a form understands

A form *understands* an argument (`Form.Understands`) if it takes it as one switch, complete with
what the switch needs, so that reading goes on after it with changed settings.  An argument of the
shape `--name=text` is understood as the switch of that name, whatever the text is, as long as it is
not the mark (`Form.understands_attached`); and a switch without a value is understood by its name
alone (`Form.understands_mark`).

A form *passes* an argument (`Form.Passes`) if it can tell what it is, by itself, so that the
argument comes through to the command as it was given.

Arguments that are understood change the settings one after the other, in their order
(`Form.read_understood`).
-/

namespace Footage.CommandLine

variable {α β ι : Type}

/-- A name of a switch with a text attached to it. -/
def attach (name text : String) : String := name ++ "=" ++ text

theorem toList_attach (name text : String) :
    (attach name text).toList = name.toList ++ '=' :: text.toList := by
  simp [attach]

/-- The name and the text come apart again, whatever the text holds. -/
theorem cutAttached_attach {name : String} (h : '=' ∉ name.toList) (text : String) :
    cutAttached (attach name text) = (name, some text) := by
  simp [cutAttached, toList_attach, Text.cutFirst_append h]

namespace Form

variable {f : Form α} {name text : String} {s : Switch α}

/-- No name of a switch has an equals sign in it. -/
def PlainNames (f : Form α) : Prop := ∀ entry ∈ f.byName, '=' ∉ entry.1.toList

theorem find?_attach (plain : f.PlainNames) (name text : String) :
    f.find? (attach name text) = none := by
  rw [find?, List.lookup_eq_none_iff]
  intro entry he
  have free := plain entry he
  rw [bne_iff_ne, ne_eq]
  intro same
  rw [← same, toList_attach] at free
  simp at free

/-- The argument begins with a minus, and is more than that. -/
abbrev Dashed (arg : String) : Prop := arg.toList.head? = some '-' ∧ 1 < arg.toList.length

theorem token_of_dashed {arg : String} (h : Dashed arg) : f.token arg = f.dashed arg := by
  obtain ⟨minus, more⟩ := h
  unfold token
  split
  · rfl
  · next other =>
    match hl : arg.toList with
    | [] => simp [hl] at more
    | [_] => simp [hl] at more
    | first :: second :: rest =>
      obtain rfl : first = '-' := by simpa [hl] using minus
      exact absurd hl (other second rest)

theorem Dashed.attach (h : Dashed name) (text : String) : Dashed (attach name text) := by
  obtain ⟨minus, more⟩ := h
  rw [Dashed, toList_attach]
  refine ⟨by simp [minus], ?_⟩
  rw [List.length_append]
  omega

theorem attach_ne_endMark (name text : String) : attach name text ≠ endMark := by
  intro h
  have := congrArg String.toList h
  rw [toList_attach] at this
  have mem : '=' ∈ endMark.toList := this ▸ by simp
  revert mem
  decide

/-- A name with a text attached is the switch of that name, with the text. -/
theorem token_attach (plain : f.PlainNames) (dashed : Dashed name) (free : '=' ∉ name.toList)
    (found : f.find? name = some s) (text : String) :
    f.token (attach name text) = .ok (.known (attach name text) s name (some text)) := by
  rw [token_of_dashed (dashed.attach text), Form.dashed, find?_attach plain,
    cutAttached_attach free]
  simp [found]

theorem token_name (dashed : Dashed name) (found : f.find? name = some s) :
    f.token name = .ok (.known name s name none) := by
  rw [token_of_dashed dashed, Form.dashed, found]

/-- The argument is taken as a switch with a label, which changes the settings. -/
structure Understands (f : Form α) (arg label : String) (set : α → α) : Prop where
  ne_endMark : arg ≠ endMark
  token : ∃ t, f.token arg = .ok t ∧ ∀ p rest,
    f.walk p (t :: rest) =
      f.walk { p with settings := set p.settings, seen := p.seen ++ [label] } rest

/-- A switch that takes a value is understood with any text attached that it can read. -/
theorem understands_attached (plain : f.PlainNames) (dashed : Dashed name)
    (free : '=' ∉ name.toList) {names : List String} {metavar help : String}
    {read : String → Except Objection β} {put : Setting β → α → α} {required : Bool}
    (found : f.find? name = some (.setting names metavar help read put required)) {b : β}
    (ne : text ≠ endMark) (readable : read text = .ok b) :
    f.Understands (attach name text) ("/".intercalate names) (put (.value b)) := by
  refine ⟨attach_ne_endMark name text, _, token_attach plain dashed free found text,
    fun p rest => ?_⟩
  have cluster : f.clusterOf (.setting names metavar help read put required) name (some text) =
      .ok ⟨[], .setting names metavar help read put required, some text⟩ := by
    rw [clusterOf]
    cases ht : text.toList with
    | nil =>
      obtain rfl : text = "" := String.toList_eq_nil_iff.1 ht
      rfl
    | cons c cs =>
      have whole : String.ofList (c :: cs) = text := by rw [← ht, String.ofList_toList]
      simp [Form.cluster, Switch.setting, Switch.metavar?, whole]
  rw [walk, cluster]
  simp only [Switch.setting, Switch.metavar?, applyAll, apply, List.foldlM_nil, Option.getD_some,
    if_neg ne, readable, Except.map]
  rfl

/-- A switch that takes no value is understood by its name. -/
theorem understands_mark (dashed : Dashed name) (ne : name ≠ endMark) {names : List String}
    {help : String} {required : Bool} {set : α → α}
    (found : f.find? name = some { names, effect := .mark set, help, required }) :
    f.Understands name ("/".intercalate names) set := by
  refine ⟨ne, _, token_name dashed found, fun p rest => ?_⟩
  rfl

/-- The form can tell what the argument is, and it is no mark. -/
structure Passes (f : Form α) (arg : String) : Prop where
  ne_endMark : arg ≠ endMark
  token : ∃ t, f.token arg = .ok t ∧ t.text = arg

/-- What is no switch of the form, not even in short, passes with any text attached. -/
theorem passes_attach (plain : f.PlainNames) (dashed : Dashed name) (free : '=' ∉ name.toList)
    (long : endMark.toList.isPrefixOf name.toList = true) (unknown : f.find? name = none)
    (unlike : f.byName.filter (fun entry => name.toList.isPrefixOf entry.1.toList) = [])
    (text : String) : f.Passes (attach name text) := by
  have beginning : endMark.toList.isPrefixOf (attach name text).toList = true := by
    rw [toList_attach, List.isPrefixOf_iff_prefix] at *
    exact long.trans (List.prefix_append _ _)
  have none_like : f.candidates (attach name text) = [] := by
    rw [candidates, if_pos beginning, cutAttached_attach free]
    simp only [unlike, List.map_nil]
  refine ⟨attach_ne_endMark name text, ?_⟩
  rw [token_of_dashed (dashed.attach text), Form.dashed, find?_attach plain,
    cutAttached_attach free]
  simp only [Option.isSome_some, if_true, unknown, none_like]
  split
  · exact ⟨_, rfl, rfl⟩
  · exact ⟨_, rfl, rfl⟩

/-! ### Many words -/

theorem tokens_cons {arg : String} (ne : arg ≠ endMark) {t : Token α} (ht : f.token arg = .ok t)
    {args : List String} {ts : List (Token α)} (hs : f.tokens args = .ok ts) :
    f.tokens (arg :: args) = .ok (t :: ts) := by
  rw [tokens, if_neg ne, ht, hs]
  rfl

/-- Arguments that pass come through as they were given. -/
theorem exists_tokens_of_passes {args : List String} (h : ∀ arg ∈ args, f.Passes arg) :
    ∃ ts, f.tokens args = .ok ts ∧ ts.map Token.text = args := by
  induction args with
  | nil => exact ⟨[], rfl, rfl⟩
  | cons arg args ih =>
    obtain ⟨first, others⟩ := List.forall_mem_cons.1 h
    obtain ⟨t, ht, text⟩ := first.token
    obtain ⟨ts, hts, texts⟩ := ih others
    exact ⟨t :: ts, tokens_cons first.ne_endMark ht hts, by rw [List.map_cons, text, texts]⟩

variable {word label : ι → String} {set : ι → α → α}

/-- What is understood is taken, each word in its turn, before what follows. -/
theorem exists_tokens_of_understands {os : List ι}
    (h : ∀ o ∈ os, f.Understands (word o) (label o) (set o)) {rest : List String}
    {ts : List (Token α)} (hs : f.tokens rest = .ok ts) :
    ∃ ts', f.tokens (os.map word ++ rest) = .ok ts' ∧ ∀ p,
      f.walk p ts' =
        f.walk { p with settings := os.foldl (fun a o => set o a) p.settings
                        seen := p.seen ++ os.map label } ts := by
  induction os with
  | nil => exact ⟨ts, hs, fun p => by simp⟩
  | cons o os ih =>
    obtain ⟨first, others⟩ := List.forall_mem_cons.1 h
    obtain ⟨t, ht, walked⟩ := first.token
    obtain ⟨ts', hts, walks⟩ := ih others
    refine ⟨t :: ts', tokens_cons first.ne_endMark ht hts, fun p => ?_⟩
    rw [walked, walks]
    simp

/-- A form without a command reads words that it understands: they change the settings in their
order, and nothing is left over. -/
theorem read_understood {os : List ι} (h : ∀ o ∈ os, f.Understands (word o) (label o) (set o))
    (start : α) :
    f.read start (os.map word) =
      .ok ({ settings := os.foldl (fun a o => set o a) start, seen := os.map label }, none) := by
  have nothing : f.tokens [] = .ok [] := rfl
  obtain ⟨ts, hts, walks⟩ := exists_tokens_of_understands h nothing
  rw [List.append_nil] at hts
  rw [read, hts]
  exact walks _

/-- A form with commands reads words that it understands up to a command, whose words it passes. -/
theorem read_command {os : List ι} (h : ∀ o ∈ os, f.Understands (word o) (label o) (set o))
    (start : α) (commands : f.commands ≠ []) {command : String}
    (plain : f.token command = .ok (.plain command)) (ne : command ≠ endMark)
    {args : List String} (passes : ∀ arg ∈ args, f.Passes arg) :
    f.read start (os.map word ++ command :: args) =
      .ok ({ settings := os.foldl (fun a o => set o a) start, seen := os.map label },
        some (command, args)) := by
  obtain ⟨ts, hts, texts⟩ := exists_tokens_of_passes passes
  obtain ⟨ts', hts', walks⟩ := exists_tokens_of_understands h (tokens_cons ne plain hts)
  have begins : f.command? (.plain command) ts = some (command, args) := by
    unfold command?
    split
    · next none => exact absurd none commands
    · next mark _ => cases mark
    · rw [texts]
      rfl
  rw [read, hts']
  dsimp only
  rw [walks]
  simp only [walk, begins, List.nil_append]

/-- Nothing is missing if every switch that must be given was given. -/
theorem missing_eq_nil {p : Progress α}
    (h : ∀ s ∈ f.switches, s.required = true → s.label ∈ p.seen) : f.missing p = [] := by
  rw [missing, List.map_eq_nil_iff, List.filter_eq_nil_iff]
  intro s hs
  by_cases hr : s.required = true
  · simpa [hr] using h s hs
  · simp [hr]

end Form

end Footage.CommandLine
