import Footage.Log
import Mathlib.Data.List.Induction

/-!
# Configuring the console many times

Each time the console is configured, the tree gets one more handler that writes, and the level of
the tree is set anew: `Console.Configured` says what has become of a console in this way, one step
keeps it (`Console.Configured.add`) and so does any number of them (`Console.configured_foldl`).

A logger of the tree that is left alone, like all loggers between it and the tree's own
(`Console.Inherits`), has the level of the tree and reaches the handlers of the tree and of the
root (`Console.upward_of_inherits`).  So an entry that goes through such a logger is written once
for each handler whose level it reaches, unless the level set last keeps it out
(`Console.Configured.lines_eq`).
-/

namespace Footage.Log

/-- The logger is at the root of the tree, or below it, and no part of its name is empty. -/
def InTree (logger : String) : Prop :=
  (logger = root ∨ (root ++ ".").toList <+: logger.toList) ∧
    [] ∉ Text.splitAll '.' logger.toList

instance (logger : String) : Decidable (InTree logger) := inferInstanceAs (Decidable (_ ∧ _))

/-- How often an entry of a level is written when the console has been configured with the levels,
in order: the last of them lets it through or not, and then it goes to all handlers. -/
def copies (levels : List Level) (l : Level) : Nat :=
  match levels.getLast? with
  | none => 0
  | some last => if last ≤ l then levels.countP (· ≤ l) else 0

/-! ### The way up -/

namespace Path

variable {p q : Path}

/-- The way up ends at the root of all loggers. -/
theorem upward_eq_concat (p : Path) : p.upward = p.upward.dropLast ++ [[]] := by
  cases p with
  | nil => rfl
  | cons part rest => rw [upward, List.dropLast_concat]

/-- The way up from below a place leads to this place. -/
theorem upward_append (p q : Path) :
    (p ++ q).upward = q.upward.dropLast.map (p ++ ·) ++ p.upward := by
  induction p with
  | nil => simpa [upward] using upward_eq_concat q
  | cons part rest ih =>
    rw [List.cons_append, upward, ih, upward, List.map_append, List.map_map, List.append_assoc]
    rfl

theorem isPrefix_of_mem_upward (h : q ∈ p.upward) : q <+: p := by
  induction p generalizing q with
  | nil =>
    obtain rfl := List.mem_singleton.1 h
    exact List.prefix_rfl
  | cons part rest ih =>
    rcases List.mem_append.1 h with h | h
    · obtain ⟨r, hr, rfl⟩ := List.mem_map.1 h
      exact (List.prefix_cons_inj part).2 (ih hr)
    · obtain rfl := List.mem_singleton.1 h
      exact List.nil_prefix

theorem ne_nil_of_mem_dropLast_upward (h : q ∈ p.upward.dropLast) : q ≠ [] := by
  cases p with
  | nil => cases h
  | cons part rest =>
    rw [upward, List.dropLast_concat] at h
    obtain ⟨r, -, rfl⟩ := List.mem_map.1 h
    exact List.cons_ne_nil part r

/-- What is in the tree by its name has its place below that of the tree. -/
theorem exists_ofName_of_inTree {logger : String} (h : InTree logger) :
    ∃ below, ofName logger = ofName root ++ below := by
  rcases h.1 with rfl | ⟨rest, h⟩
  · exact ⟨[], (List.append_nil _).symm⟩
  · have parts : logger.toList = root.toList ++ '.' :: rest := by
      rw [← h, String.toList_append, List.append_assoc]
      rfl
    have named : ¬ (logger = "" ∨ logger = "root") := by
      rintro (rfl | rfl)
      · cases parts
      · cases parts
    have free : '.' ∉ root.toList := by decide
    refine ⟨Text.splitAll '.' rest, ?_⟩
    rw [ofName, if_neg named, parts, Text.splitAll_append free]
    rfl

end Path

/-! ### Loggers that are left alone -/

namespace Console

variable {c c₀ : Console} {logger : String} {levels : List Level} {l : Level}

/-- The logger is in the tree, and neither it nor any logger between it and the tree's own has
settings. -/
structure Inherits (c : Console) (logger : String) : Prop where
  inTree : InTree logger
  plain : ∀ p, p <+: Path.ofName logger → Path.ofName root <+: p → p ≠ Path.ofName root →
    c.logger p = {}

/-- On the way up from a logger that is left alone there is nothing before the tree's own
logger. -/
theorem upward_of_inherits (h : c.Inherits logger) :
    ∃ n, c.upward (.ofName logger) =
      List.replicate n ({} : Logger) ++ [c.logger (.ofName root), c.logger []] := by
  obtain ⟨below, place⟩ := Path.exists_ofName_of_inTree h.inTree
  refine ⟨below.upward.dropLast.length, ?_⟩
  have top : (Path.ofName root).upward = [Path.ofName root, []] := rfl
  have plain : ∀ s ∈ (below.upward.dropLast.map (Path.ofName root ++ ·)).map c.logger, s = {} := by
    intro s hs
    obtain ⟨p, hp, rfl⟩ := List.mem_map.1 hs
    obtain ⟨q, hq, rfl⟩ := List.mem_map.1 hp
    refine h.plain _ ?_ (List.prefix_append _ _) ?_
    · rw [place, List.prefix_append_right_inj]
      exact Path.isPrefix_of_mem_upward (List.dropLast_subset _ hq)
    · exact fun same => Path.ne_nil_of_mem_dropLast_upward hq (List.append_right_eq_self.1 same)
  rw [upward, place, Path.upward_append, top, List.map_append, List.eq_replicate_of_mem plain,
    List.length_map, List.length_map]
  rfl

/-- The nearest level is that of the tree, if the tree has one. -/
theorem effective_of_inherits (h : c.Inherits logger) (set : c.level ≠ .notset) :
    c.effective (.ofName logger) = c.level := by
  obtain ⟨n, way⟩ := upward_of_inherits h
  have none_before : (List.replicate n Level.notset).find? (· ≠ .notset) = none := by
    rw [List.find?_eq_none]
    intro l hl
    simp [List.eq_of_mem_replicate hl]
  have own : (c.logger (.ofName root)).level ≠ .notset := set
  rw [effective, way, List.map_append, List.map_replicate, List.find?_append, none_before]
  simp [own, level]

theorem reached_of_inherits (h : c.Inherits logger) :
    c.reached (.ofName logger) =
      (c.logger (.ofName root)).handlers ++ (c.logger []).handlers := by
  obtain ⟨n, way⟩ := upward_of_inherits h
  have nothing : (List.replicate n ({} : Logger)).flatMap Logger.handlers = [] := by
    rw [List.flatMap_eq_nil_iff]
    intro s hs
    rw [List.eq_of_mem_replicate hs]
  rw [reached, way, List.flatMap_append, nothing]
  simp

/-- At the start every logger of the tree is left alone. -/
theorem inherits_of_inTree (h : InTree logger) : Inherits {} logger where
  inTree := h
  plain p _ below ne := by
    have root_ne : p ≠ [] := by
      rintro rfl
      exact absurd below (by decide)
    have other : p ≠ Path.ofName transportRoot := by
      rintro rfl
      exact absurd below (by decide)
    have differs (q : Path) (h : p ≠ q) : (p == q) = false := by simpa using h
    simp only [Console.logger, List.lookup_cons, differs _ root_ne, differs _ ne, differs _ other,
      List.lookup_nil, Option.getD_none]

/-! ### One configuration after the other -/

/-- The second console is the first one after it has been configured with the levels, in order. -/
structure Configured (c₀ : Console) (levels : List Level) (c : Console) : Prop where
  level : c.level = levels.getLast?.getD c₀.level
  handlers : (c.logger (.ofName root)).handlers =
    (c₀.logger (.ofName root)).handlers ++ levels.map .writer
  others : ∀ p ≠ .ofName root, c.logger p = c₀.logger p

theorem Configured.add (h : Configured c₀ levels c) (l : Level) :
    Configured c₀ (levels ++ [l]) (c.add l) where
  level := by simp [Console.level, Console.add]
  handlers := by simp [Console.add, h.handlers]
  others p ne := by rw [Console.add, logger_set, if_neg ne, h.others p ne]

theorem configured_foldl (c₀ : Console) (levels : List Level) :
    Configured c₀ levels (levels.foldl Console.add c₀) := by
  induction levels using List.reverseRecOn with
  | nil => exact ⟨rfl, (List.append_nil _).symm, fun _ _ => rfl⟩
  | append_singleton levels l ih =>
    rw [List.foldl_append]
    exact ih.add l

/-- The console is configured by the names of levels. -/
theorem foldlM_configure (named : ∀ l ∈ levels, l ∈ Level.named) (c₀ : Console) :
    (levels.map Level.name).foldlM Console.configure c₀ = .ok (levels.foldl Console.add c₀) := by
  induction levels generalizing c₀ with
  | nil => rfl
  | cons l levels ih =>
    obtain ⟨first, others⟩ := List.forall_mem_cons.1 named
    have step : c₀.configure l.name = .ok (c₀.add l) := by
      rw [configure, Level.ofName?_name l first]
    rw [List.map_cons, List.foldlM_cons, step]
    exact ih others (c₀.add l)

/-- To configure the console leaves loggers alone. -/
theorem Configured.inherits (h : Configured c₀ levels c) (alone : c₀.Inherits logger) :
    c.Inherits logger where
  inTree := alone.inTree
  plain p above below ne := by rw [h.others p ne, alone.plain p above below ne]

/-! ### What is written -/

/-- Nothing is written yet: the tree has its silent handler, and the root of all loggers none. -/
structure Fresh (c : Console) : Prop where
  tree : (c.logger (.ofName root)).handlers = [.silent]
  above : (c.logger []).handlers = []

theorem fresh_start : Fresh {} := ⟨rfl, rfl⟩

/-- Every handler that writes does so for the entries that reach its level. -/
theorem flatMap_lines_writer (levels : List Level) (time : String) (e : Entry) :
    (levels.map Handler.writer).flatMap (·.lines time e) =
      List.replicate (levels.countP (· ≤ e.level)) (e.line time) := by
  induction levels with
  | nil => rfl
  | cons l levels ih =>
    rw [List.map_cons, List.flatMap_cons, ih]
    by_cases reaches : l ≤ e.level
    · simp [Handler.lines, reaches, List.replicate_succ]
    · simp [Handler.lines, reaches]

/-- **An entry is written once for every handler whose level it reaches, if it reaches the level
that was set last.** -/
theorem Configured.lines_eq (h : Configured c₀ levels c) (fresh : c₀.Fresh)
    (set : ∀ l ∈ levels, l ≠ .notset) {e : Entry} (alone : c₀.Inherits e.logger) (time : String) :
    c.lines time e = List.replicate (copies levels e.level) (e.line time) := by
  have alone' := h.inherits alone
  have reached : c.reached (.ofName e.logger) = .silent :: levels.map .writer := by
    rw [reached_of_inherits alone', h.handlers, fresh.tree, h.others [] (by decide), fresh.above]
    simp
  have written : (Handler.silent :: levels.map Handler.writer).flatMap (·.lines time e) =
      List.replicate (levels.countP (· ≤ e.level)) (e.line time) := by
    rw [List.flatMap_cons, flatMap_lines_writer]
    rfl
  have both : c.lines time e = if c.effective (.ofName e.logger) ≤ e.level then
      List.replicate (levels.countP (· ≤ e.level)) (e.line time) else [] := by
    rw [lines, reached, ← written]
  rw [both, copies]
  cases last : levels.getLast? with
  | none =>
    obtain rfl := List.getLast?_eq_none_iff.1 last
    simp
  | some l =>
    have level : c.level = l := by rw [h.level, last, Option.getD_some]
    have own : c.level ≠ .notset := level ▸ set l (List.mem_of_getLast? last)
    rw [effective_of_inherits alone' own, level]
    by_cases reaches : l ≤ e.level
    · simp [reaches]
    · simp [reaches]

end Console

end Footage.Log
