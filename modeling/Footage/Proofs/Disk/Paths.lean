import Footage.Disk

/-!
# What a path leads to

`Disk.at?` is what is found at the end of a path: a file, a directory, or nothing.  A change of the
disk that leaves the directories as they are, and the entry that the path names, does not change
what the path leads to (`Disk.at?_congr`), and a file that is put at the entry is what it leads to
afterwards (`Disk.Writable.at?_put`).

A temporary file is made at a place that is free (`Disk.find?_temporary?`), so removing it gives
the former disk back (`Disk.drop_put_of_free`), and moving it leaves nothing behind
(`Disk.after_moved_put`).
-/

namespace Footage.Disk

/-! ### The view of a changed disk -/

/-- The disk without the troubles that operations on it will meet. -/
def calm (d : Disk) : Disk := { d with troubles := [] }

@[simp] theorem find?_calm (d : Disk) (p : Place) : d.calm.find? p = d.find? p := rfl

@[simp] theorem content_calm (d : Disk) (p : Place) : d.calm.content p = d.content p := rfl

@[simp] theorem calm_calm (d : Disk) : d.calm.calm = d.calm := rfl

theorem calm_after (d : Disk) (c : Change) : (d.after c).calm = d.calm.after c := by
  cases c <;> rfl

theorem put_put (d : Disk) (p : Place) (first second : Node) :
    (d.put p first).put p second = d.put p second := by
  simp [put]

theorem drop_of_free {d : Disk} {p : Place} (hp : p ≠ []) (free : d.find? p = none) :
    d.drop p = d := by
  have absent : d.entries.filter (fun entry => entry.1 ≠ p) = d.entries := by
    refine List.filter_eq_self.2 fun entry he => ?_
    have lookup : d.entries.lookup p = none := by simpa [find?, hp] using free
    have other : p ≠ entry.1 := by simpa using List.lookup_eq_none_iff.1 lookup entry he
    simpa using other.symm
  rw [drop, absent]

theorem drop_put (d : Disk) (p : Place) (n : Node) : (d.put p n).drop p = d.drop p := by
  simp [drop, put]

/-- A file at a free place can be removed without a trace. -/
theorem drop_put_of_free {d : Disk} {p : Place} (hp : p ≠ []) (free : d.find? p = none)
    (n : Node) : (d.put p n).drop p = d := by
  rw [drop_put, drop_of_free hp free]

theorem content_put_self (d : Disk) {p : Place} (hp : p ≠ []) (bytes : Bytes) :
    (d.put p (.file bytes)).content p = bytes := by
  simp [content, find?_put _ _ _ _ hp]

/-- A file at a free place that moves leaves nothing behind. -/
theorem after_moved_put {d : Disk} {p : Place} (hp : p ≠ []) (free : d.find? p = none)
    (bytes : Bytes) (target : Place) :
    (d.put p (.file bytes)).after (.moved p target) = d.put target (.file bytes) := by
  rw [after, drop_put_of_free hp free, content_put_self d hp]

/-! ### Paths on a changed disk -/

/-- Two disks have the same directories, and the same working directory. -/
def SameDirectories (d d' : Disk) : Prop :=
  d.home = d'.home ∧ ∀ p, d.find? p = some .directory ↔ d'.find? p = some .directory

theorem SameDirectories.symm {d d' : Disk} (h : d.SameDirectories d') : d'.SameDirectories d :=
  ⟨h.1.symm, fun p => (h.2 p).symm⟩

theorem SameDirectories.trans {d d' d'' : Disk} (h : d.SameDirectories d')
    (h' : d'.SameDirectories d'') : d.SameDirectories d'' :=
  ⟨h.1.trans h'.1, fun p => (h.2 p).trans (h'.2 p)⟩

/-- A file in place of something that is not a directory leaves the directories as they are. -/
theorem sameDirectories_put {d : Disk} {p : Place} (h : d.find? p ≠ some .directory)
    (bytes : Bytes) : d.SameDirectories (d.put p (.file bytes)) := by
  have hp : p ≠ [] := by
    rintro rfl
    exact h (by simp [find?])
  refine ⟨rfl, fun q => ?_⟩
  rw [find?_put _ _ _ _ hp]
  split
  · next hq =>
    subst hq
    simp [h]
  · exact Iff.rfl

theorem enter_of_sameDirectories {d d' : Disk} (h : d.SameDirectories d') {names : List String}
    {p q : Place} (hd : d.enter p names = .ok q) : d'.enter p names = .ok q := by
  -- On the names that are still to go; each step is the same on both disks.
  induction names generalizing p with
  | nil => exact hd
  | cons name rest ih =>
    unfold enter at hd ⊢
    split
    · next hn =>
      rw [if_pos hn] at hd
      exact ih hd
    · next hn =>
      rw [if_neg hn] at hd
      split
      · next hu =>
        rw [if_pos hu] at hd
        exact ih hd
      · next hu =>
        rw [if_neg hu] at hd
        -- Only a directory lets the path go on, so the entry is one on both disks.
        by_cases hl : name.utf8ByteSize > longestName
        · simp [look, hl] at hd
        · simp only [look, if_neg hl] at hd ⊢
          cases hf : d.find? (p ++ [name]) with
          | none => simp [hf] at hd
          | some n =>
            cases n with
            | file content => simp [hf] at hd
            | directory =>
              rw [hf] at hd
              rw [(h.2 _).1 hf]
              exact ih hd

theorem locate_of_sameDirectories {d d' : Disk} (h : d.SameDirectories d') {path : String}
    {t : Target} (hd : d.locate path = .ok t) : d'.locate path = .ok t := by
  have start : d'.startOf path = d.startOf path := by simp only [startOf, h.1]
  unfold locate at hd ⊢
  split
  · next he => simp [he] at hd
  · next he =>
    rw [if_neg he] at hd
    split
    · next hl => simp [hl] at hd
    · next hl =>
      rw [if_neg hl] at hd
      dsimp only at hd ⊢
      split
      · next hn => rwa [hn] at hd
      · next last before hn =>
        rw [hn] at hd
        dsimp only at hd
        rw [start]
        cases hent : d.enter (d.startOf path) before.reverse with
        | error trouble =>
          rw [hent] at hd
          cases hd
        | ok directory =>
          rw [enter_of_sameDirectories h hent]
          rwa [hent] at hd

/-- What a path leads to: a file, a directory, or nothing. -/
def at? (d : Disk) (path : String) : Option Node :=
  match d.locate path with
  | .error _ => none
  | .ok .directory => some .directory
  | .ok (.entry directory name slash) =>
    match d.look directory name with
    | .ok (some (.file content)) => if slash then none else some (.file content)
    | .ok (some .directory) => some .directory
    | _ => none

/-- The place that a path names in a directory that is there. -/
def place? (d : Disk) (path : String) : Option Place :=
  match d.locate path with
  | .ok (.entry directory name _) => some (directory ++ [name])
  | _ => none

theorem place?_of_sameDirectories {d d' : Disk} (h : d.SameDirectories d') (path : String) :
    d.place? path = d'.place? path := by
  unfold place?
  cases hl : d.locate path with
  | ok t => rw [locate_of_sameDirectories h hl]
  | error trouble =>
    cases hl' : d'.locate path with
    | error trouble' => rfl
    | ok t =>
      rw [locate_of_sameDirectories h.symm hl'] at hl
      cases hl

/-- What a path leads to depends on the directories and on the entry that it names. -/
theorem at?_congr {d d' : Disk} (h : d.SameDirectories d') {path : String}
    (entry : ∀ p, d.place? path = some p → d.find? p = d'.find? p) :
    d.at? path = d'.at? path := by
  unfold at?
  unfold place? at entry
  cases hl : d.locate path with
  | error trouble =>
    cases hl' : d'.locate path with
    | error trouble' => rfl
    | ok t =>
      rw [locate_of_sameDirectories h.symm hl'] at hl
      cases hl
  | ok t =>
    rw [hl] at entry
    rw [locate_of_sameDirectories h hl]
    cases t with
    | directory => rfl
    | entry directory name slash => simp only [look, entry _ rfl]

/-- A file at another place than the one that a path names does not change what the path leads
to. -/
theorem at?_put_of_ne {d : Disk} {p : Place} (h : d.find? p ≠ some .directory) (bytes : Bytes)
    {path : String} (other : d.place? path ≠ some p) :
    (d.put p (.file bytes)).at? path = d.at? path := by
  refine (at?_congr (sameDirectories_put h bytes) fun q hq => ?_).symm
  have hp : p ≠ [] := by
    rintro rfl
    exact h (by simp [find?])
  rw [find?_put _ _ _ _ hp, if_neg]
  rintro rfl
  exact other hq

/-- A path leads to an entry, at a place where a file may be put. -/
def Writable (d : Disk) (path : String) (place : Place) : Prop :=
  ∃ directory name found, d.locate path = .ok (.entry directory name false) ∧
    d.look directory name = .ok found ∧ found ≠ some .directory ∧ place = directory ++ [name]

theorem Writable.find?_ne {d : Disk} {path : String} {place : Place}
    (h : d.Writable path place) : d.find? place ≠ some .directory := by
  obtain ⟨directory, name, found, -, looked, file, rfl⟩ := h
  unfold look at looked
  split at looked
  · cases looked
  · cases looked
    exact file

theorem Writable.ne_nil {d : Disk} {path : String} {place : Place} (h : d.Writable path place) :
    place ≠ [] := by
  rintro rfl
  exact h.find?_ne (by simp [find?])

theorem Writable.place?_eq {d : Disk} {path : String} {place : Place}
    (h : d.Writable path place) : d.place? path = some place := by
  obtain ⟨directory, name, -, located, -, -, rfl⟩ := h
  rw [place?, located]

theorem Writable.of_sameDirectories {d d' : Disk} (same : d.SameDirectories d') {path : String}
    {place : Place} (h : d.Writable path place) : d'.Writable path place := by
  have file := h.find?_ne
  obtain ⟨directory, name, found, located, looked, -, rfl⟩ := h
  refine ⟨directory, name, d'.find? (directory ++ [name]),
    locate_of_sameDirectories same located, ?_, fun hd => file ((same.2 _).2 hd), rfl⟩
  unfold look at looked ⊢
  split at looked
  · cases looked
  · next short => rw [if_neg short]

/-- A file that is put at the entry which a path leads to is what the path leads to. -/
theorem Writable.at?_put {d : Disk} {path : String} {place : Place} (h : d.Writable path place)
    (bytes : Bytes) : (d.put place (.file bytes)).at? path = some (.file bytes) := by
  have hp := h.ne_nil
  have put : (d.put place (.file bytes)).find? place = some (.file bytes) := by
    rw [find?_put _ _ _ _ hp, if_pos rfl]
  obtain ⟨directory, name, found, located, looked, -, rfl⟩ :=
    h.of_sameDirectories (sameDirectories_put h.find?_ne bytes)
  unfold look at looked
  split at looked
  · cases looked
  · next short =>
    simp only [at?, located, look, if_neg short, put]
    rfl

theorem sameDirectories_calm (d : Disk) : d.calm.SameDirectories d :=
  ⟨rfl, fun _ => Iff.rfl⟩

theorem Writable.calm {d : Disk} {path : String} {place : Place} (h : d.Writable path place) :
    d.calm.Writable path place :=
  h.of_sameDirectories d.sameDirectories_calm.symm

@[simp] theorem at?_calm (d : Disk) (path : String) : d.calm.at? path = d.at? path :=
  at?_congr d.sameDirectories_calm fun _ _ => rfl

/-! ### Temporary files -/

/-- The place of the temporary file that is made beside an output. -/
def temporary? (d : Disk) (path : String) : Option Place :=
  let directory := (d.absolute path).parent
  (d.freeName? directory.place).map fun name => (directory.child name).place

theorem find?_of_freeNameFrom {d : Disk} {p : Place} {tries first : Nat} {name : String}
    (h : d.freeNameFrom p tries first = some name) : d.find? (p ++ [name]) = none := by
  induction tries generalizing first with
  | zero => simp [freeNameFrom] at h
  | succ tries ih =>
    unfold freeNameFrom at h
    dsimp only at h
    split at h
    · next hf =>
      cases h
      exact hf
    · exact ih h

theorem exists_draw_of_freeNameFrom {d : Disk} {p : Place} {tries first : Nat} {name : String}
    (h : d.freeNameFrom p tries first = some name) : ∃ n, name = temporaryName (d.draws n) := by
  induction tries generalizing first with
  | zero => simp [freeNameFrom] at h
  | succ tries ih =>
    unfold freeNameFrom at h
    dsimp only at h
    split at h
    · cases h
      exact ⟨first, rfl⟩
    · exact ih h

theorem freeNameFrom_calm (d : Disk) (p : Place) (tries first : Nat) :
    d.calm.freeNameFrom p tries first = d.freeNameFrom p tries first := by
  induction tries generalizing first with
  | zero => rfl
  | succ tries ih =>
    simp only [freeNameFrom, find?_calm, ih]
    rfl

@[simp] theorem temporary?_calm (d : Disk) (path : String) :
    d.calm.temporary? path = d.temporary? path := by
  have free (p : Place) : d.calm.freeName? p = d.freeName? p := d.freeNameFrom_calm p mostDraws 0
  rw [temporary?, temporary?, free]
  rfl

/-- The place of a temporary file is free. -/
theorem find?_temporary? {d : Disk} {path : String} {p : Place}
    (h : d.temporary? path = some p) : d.find? p = none := by
  obtain ⟨name, hn, rfl⟩ := Option.map_eq_some_iff.1 h
  exact find?_of_freeNameFrom hn

theorem ne_nil_of_find? {d : Disk} {p : Place} (h : d.find? p = none) : p ≠ [] := by
  rintro rfl
  simp [find?] at h

/-- A disk is a former one, but for the temporary file that is made beside an output. -/
def Beside (d : Disk) (path : String) (d' : Disk) : Prop :=
  d' = d ∨ ∃ p bytes, d.temporary? path = some p ∧ d' = d.put p (.file bytes)

/-- The name that is drawn at random for the temporary file beside an output is not the output's
own. -/
def Apart (d : Disk) (path : String) : Prop :=
  ∀ p, d.temporary? path = some p → d.place? path ≠ some p

theorem Apart.calm {d : Disk} {path : String} (h : d.Apart path) : d.calm.Apart path := by
  intro p hp
  rw [temporary?_calm] at hp
  rw [place?_of_sameDirectories d.sameDirectories_calm]
  exact h p hp

/-- The temporary file is not what the path of the output leads to. -/
theorem Beside.at? {d d' : Disk} {path : String} (h : d.Beside path d') (apart : d.Apart path) :
    d'.at? path = d.at? path := by
  rcases h with rfl | ⟨p, bytes, hp, rfl⟩
  · rfl
  · exact at?_put_of_ne (by simp [find?_temporary? hp]) bytes (apart p hp)

/-- An output which is not named as temporary files are is none of them. -/
theorem apart_of_ne_temporaryName {d : Disk} {path : String}
    (h : ∀ directory name slash, d.locate path = .ok (.entry directory name slash) →
      ∀ n, name ≠ temporaryName (d.draws n)) : d.Apart path := by
  intro p hp hq
  obtain ⟨drawn, free, rfl⟩ := Option.map_eq_some_iff.1 hp
  obtain ⟨n, rfl⟩ := exists_draw_of_freeNameFrom free
  unfold place? at hq
  split at hq
  · next directory name slash located =>
    have same : directory ++ [name] = _ ++ [temporaryName (d.draws n)] := Option.some.inj hq
    have names : name = temporaryName (d.draws n) :=
      List.singleton_inj.1 (List.append_inj_right' same rfl)
    exact h directory name slash located n names
  · cases hq

/-- An output that is there has not the name of a new file. -/
theorem apart_of_at?_ne_none {d : Disk} {path : String} (h : d.at? path ≠ none) :
    d.Apart path := by
  intro p hp hq
  refine h ?_
  unfold place? at hq
  unfold Disk.at?
  split at hq
  · next directory name slash located =>
    obtain rfl := Option.some.inj hq
    rw [located]
    by_cases long : name.utf8ByteSize > longestName
    · simp only [look, if_pos long]
    · simp only [look, if_neg long, find?_temporary? hp]
  · cases hq

end Footage.Disk
