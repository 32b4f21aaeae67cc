import Footage.Channel.Replay
import Footage.Proofs.Program.Course

/-!
# Writing the output

What the two tasks that write a file do to the disk.  A range that was fetched is written where
the path of the output leads (`Program.writeFile_spec`).  A stream is written to a temporary file
first: until the stream is complete the disk is the former one but for that file
(`Disk.Beside`), and then the file, which holds all chunks in order, is moved to where the path
leads (`Program.download_spec`).
-/

namespace Footage

open CommandLine
open Feed (Takes Ending)

/-- What happens on a channel does nothing to the disk. -/
structure Channel.LeavesDisk (ch : Channel Disk) : Prop where
  fetch : ∀ r deadline, (ch.fetch r deadline).Respects World.Untouched
  fetchStream : ∀ r deadline, (ch.fetchStream r deadline).Respects World.Untouched
  call : ∀ r deadline w call w', (ch.fetchStream r deadline).run w = .ok call w' →
    call.Respects World.Untouched

/-- A channel that answers from a script does nothing to the disk. -/
theorem Channel.replay_leavesDisk (r : Channel.Replies) :
    (Channel.replay r : Channel Disk).LeavesDisk where
  fetch _ _ := (Act.respects_ofExcept r.video).bind fun _ => Act.respects_pure _
  fetchStream _ _ := Act.respects_pure _
  call := by
    rintro q - w call w' ⟨⟩
    refine ⟨fun next hn => ?_, ?_, fun _ _ => Act.respects_pure ()⟩
    · obtain ⟨chunk, -, rfl⟩ := List.mem_map.1 hn
      exact Act.respects_pure _
    · dsimp only [Channel.Replies.feed]
      cases r.failure with
      | none => exact Act.respects_pure ()
      | some e => exact Act.respects_throw e

theorem World.untouched_allows : World.Allows World.Untouched where
  note e w h := by
    refine ⟨rfl, World.adds_grow (fun e' he => ?_) w 0⟩
    obtain rfl := List.mem_singleton.1 he
    rintro ⟨c, rfl⟩
    exact h
  draw w := ⟨rfl, World.adds_grow (by simp) w 1⟩

namespace Program

variable {c : Client Disk} {start stop container path : String} {d : Disk} {place : Place}

theorem untouched_feed (leaves : c.channel.LeavesDisk) :
    (c.feed start stop container).Respects World.Untouched :=
  Client.respects_feed (World.untouched_allows.permits _) leaves.fetchStream start stop container

theorem untouched_of_run_feed (leaves : c.channel.LeavesDisk) {w w' : World Disk}
    {feed : Feed Disk Bytes} (h : (c.feed start stop container).run w = .ok feed w') :
    feed.Respects World.Untouched := by
  obtain ⟨r, w₁, call, hc, rfl⟩ := Client.exists_call_of_run_feed h
  exact Client.respects_chunks World.untouched_allows.tolerates (leaves.call _ _ _ _ _ hc)

/-! ### The temporary file -/

theorem keeps_append (h : d.temporary? path = some place) (bytes : Bytes) :
    (Files.append place bytes).Respects (World.Keeps (d.Beside path)) := by
  intro w
  refine (Files.changes_append place bytes).keeps ?_
  rintro - - rfl hb
  -- The file may be new or not; afterwards it is the only thing beside the former disk.
  refine .inr ⟨place, w.state.calm.content place ++ bytes, h, ?_⟩
  rcases hb with hb | ⟨p, former, hp, hb⟩
  · rw [Disk.after, hb]
  · obtain rfl := Option.some.inj (h.symm.trans hp)
    rw [Disk.after, hb, Disk.put_put]

theorem keeps_remove (h : d.temporary? path = some place) :
    (Files.remove place).Respects (World.Keeps (d.Beside path)) := by
  have free := Disk.find?_temporary? h
  have hp := Disk.ne_nil_of_find? free
  intro w
  refine (Files.changes_remove place).keeps ?_
  rintro - - rfl hb
  refine .inl ?_
  rcases hb with hb | ⟨p, former, hp', hb⟩
  · rw [Disk.after, hb, Disk.drop_of_free hp free]
  · obtain rfl := Option.some.inj (h.symm.trans hp')
    rw [Disk.after, hb, Disk.drop_put_of_free hp free]

theorem keeps_close : (Files.close).Respects (World.Keeps (d.Beside path)) :=
  Files.respects_meetTrouble.mono fun _ _ => World.Untouched.keeps

section

variable {P : Disk → Prop}
  (ha : ∀ bytes, (Files.append place bytes).Respects (World.Keeps P))

include ha

theorem keeps_handOn (total : Nat) (chunk : Bytes) :
    (Client.handOn (Files.append place) total chunk).Respects (World.Keeps P) := by
  have note : (Act.note (.delivered chunk)).Respects (World.Keeps P) :=
    Act.respects_note fun w => World.Untouched.keeps
      ⟨rfl, World.adds_grow (by simp [Event.IsChange]) w 0⟩
  exact note.bind fun _ => (ha chunk).bind fun _ => Act.respects_pure _

/-- While a stream goes to its temporary file, nothing happens to the disk but that the file
grows. -/
theorem keeps_streamInto (leaves : c.channel.LeavesDisk) :
    (c.streamInto start stop container (Files.append place)).Respects (World.Keeps P) := by
  have keeps {w w' : World Disk} : w.Untouched w' → w.Keeps P w' := World.Untouched.keeps
  refine Act.Respects.awaited fun w => ?_
  refine ((untouched_feed leaves).mono fun _ _ => keeps).bind_run fun feed w₁ hf => ?_
  have still := untouched_of_run_feed leaves hf
  have feed_keeps : feed.Respects (World.Keeps P) :=
    ⟨fun next hn => (still.items next hn).mono fun _ _ => keeps,
      still.finish.mono fun _ _ => keeps,
      fun taken e => (still.abandon taken e).mono fun _ _ => keeps⟩
  exact Feed.respects_fold feed_keeps (keeps_handOn ha) 0 w₁

end

/-- A chunk that is handed on stands at the end of the file. -/
theorem of_run_handOn {w w' : World Disk} {total n : Nat} {chunk : Bytes}
    (h : (Client.handOn (Files.append place) total chunk).run w = .ok n w') :
    w'.state.calm = w.state.calm.put place (.file (w.state.calm.content place ++ chunk)) := by
  simp only [Client.handOn, EStateM.run_bind, Act.run_note] at h
  split at h
  · next hr =>
    cases h
    obtain ⟨_, w₁, rfl, ht, rfl⟩ := (Files.changes_append place chunk).of_ok hr
    rw [World.calm_change, ht.1]
    rfl
  · cases h

/-- **When a stream is complete, its temporary file holds all chunks in order.** -/
theorem calm_of_takes (hp : place ≠ []) {finish : Act Disk Unit}
    (hf : finish.Respects World.Untouched) {items : List (Act Disk Bytes)}
    (hi : ∀ next ∈ items, next.Respects World.Untouched) {total total' : Nat}
    {w w' : World Disk} {chunks : List Bytes}
    (h : Takes finish (Client.handOn (Files.append place)) items total w chunks
      (.complete total') w') {bytes : Bytes} (hd : w.state.calm = d.put place (.file bytes)) :
    w'.state.calm = d.put place (.file (bytes ++ chunks.flatten)) := by
  generalize he : Ending.complete total' = ending at h
  -- What holds all along: the file has the bytes from before and the chunks that went through.
  induction h generalizing bytes with
  | complete h => simpa [hd] using (hf.of_ok h).1
  | unfinished => cases he
  | broken => cases he
  | refused => cases he
  | @taken next rest total total₁ w w₁ w₂ w' chunk chunks ending hn hs _ ih =>
    have got := ((hi next List.mem_cons_self).of_ok hn).1
    have put : w₂.state.calm = d.put place (.file (bytes ++ chunk)) := by
      rw [of_run_handOn hs, got, hd, Disk.content_put_self _ hp, Disk.put_put]
    rw [List.flatten_cons, ← List.append_assoc]
    exact ih (fun next hn => hi next (List.mem_cons_of_mem _ hn)) put he

/-- A stream that was written to the end was complete. -/
theorem takes_of_run_streamInto {write : Bytes → Act Disk Unit} {total : Nat} {w w' : World Disk}
    (h : (c.streamInto start stop container write).run w = .ok total w') :
    ∃ feed w₁ chunks, (c.feed start stop container).run w = .ok feed w₁ ∧
      Takes feed.finish (Client.handOn write) feed.items 0 w₁ chunks (.complete total) w' := by
  rw [Client.streamInto, Act.run_awaited_eq_ok_iff, EStateM.run_bind] at h
  split at h
  · next feed w₁ hf =>
    obtain ⟨chunks, ending, w₂, taken⟩ :=
      Feed.exists_takes feed.finish (Client.handOn write) feed.items 0 w₁
    rw [Feed.run_fold feed taken] at h
    cases ending with
    | complete n =>
      cases h
      exact ⟨feed, w₁, chunks, hf, taken⟩
    | broken e => cases h
    | refused chunk e =>
      rw [Feed.conclude] at h
      split at h <;> cases h
  · cases h

/-- The stream of a range goes to a temporary file beside a path and is complete with these
chunks. -/
def Receives (c : Client Disk) (start stop container path : String) (w : World Disk)
    (chunks : List Bytes) : Prop :=
  ∃ file w₁ feed w₂ total w₃,
    (Files.createTemporary (w.state.absolute path).parent).run w = .ok file w₁ ∧
    (c.feed start stop container).run w₁ = .ok feed w₂ ∧
    Takes feed.finish (Client.handOn (Files.append file.place)) feed.items 0 w₂ chunks
      (.complete total) w₃

/-- The settings that go into a request are texts, or the request is not made. -/
theorem run_texts {α : Type} (start stop container : Setting String)
    (next : String → String → String → Act Disk α) (w : World Disk) :
    (.blank ∈ [start, stop, container] ∧
      (do next (← inRequest start) (← inRequest stop) (← inRequest container)).run w =
        .error Setting.blankInRequest w) ∨
    ∃ s t k, start = .value s ∧ stop = .value t ∧ container = .value k ∧
      (do next (← inRequest start) (← inRequest stop) (← inRequest container)).run w =
        (next s t k).run w := by
  cases start with
  | blank => exact .inl ⟨by simp, rfl⟩
  | value s =>
    cases stop with
    | blank => exact .inl ⟨by simp, rfl⟩
    | value t =>
      cases container with
      | blank => exact .inl ⟨by simp, rfl⟩
      | value k => exact .inr ⟨s, t, k, rfl, rfl, rfl, rfl⟩

/-- The part of a download that is guarded: the stream goes to the temporary file. -/
def transfer (c : Client Disk) (start stop container : Setting String) (place : Place) :
    Act Disk Nat := do
  c.streamInto (← inRequest start) (← inRequest stop) (← inRequest container) (Files.append place)

theorem keeps_transfer {P : Disk → Prop} (leaves : c.channel.LeavesDisk)
    (ha : ∀ bytes, (Files.append place bytes).Respects (World.Keeps P))
    (start stop container : Setting String) :
    (transfer c start stop container place).Respects (World.Keeps P) :=
  (Act.respects_ofExcept _).bind fun _ => (Act.respects_ofExcept _).bind fun _ =>
    (Act.respects_ofExcept _).bind fun _ => keeps_streamInto ha leaves

theorem run_transfer_ok {start stop container : Setting String} {total : Nat} {w w' : World Disk}
    (h : (transfer c start stop container place).run w = .ok total w') :
    ∃ s t k, start = .value s ∧ stop = .value t ∧ container = .value k ∧
      (c.streamInto s t k (Files.append place)).run w = .ok total w' := by
  rcases run_texts start stop container (c.streamInto · · · (Files.append place)) w with
    ⟨-, failed⟩ | ⟨s, t, k, hs, ht, hk, ran⟩
  · cases failed.symm.trans h
  · exact ⟨s, t, k, hs, ht, hk, ran.symm.trans h⟩

/-- The last part of a download: the temporary file is closed and moved. -/
def settle (file : Disk.Absolute) (path : String) : Act Disk Unit := do
  Files.close
  Files.move file path

theorem changes_settle (file : Disk.Absolute) (path : String) (w : World Disk) :
    (settle file path).Changes w fun _ c =>
      ∃ place, w.state.calm.Writable path place ∧ c = .moved file.place place := by
  refine Files.respects_meetTrouble.changes fun _ w₁ h => ?_
  rw [← (Files.respects_meetTrouble.of_ok h).1]
  exact Files.changes_move file path

/-- What is done with the temporary file when its stream fails. -/
def cleanUp (place : Place) : Act Disk Unit := do
  Files.close
  Files.remove place

/-- A download in its parts. -/
theorem download_eq (c : Client Disk) (start stop container : Setting String) (path : String) :
    download c start stop container (.value path) = (do
      let file ← Files.createTemporary ((← Act.state).absolute path).parent
      let total ← (transfer c start stop container file.place).guarding fun _ =>
        cleanUp file.place
      settle file path
      return total) := by
  simp only [download, asPath, transfer, settle, cleanUp, bind_assoc, pure_bind]

/-- A temporary file that was made is where it belongs, and it is empty. -/
theorem of_run_createTemporary {w w₁ : World Disk} {file : Disk.Absolute}
    (h : (Files.createTemporary (w.state.absolute path).parent).run w = .ok file w₁) :
    w.state.calm.temporary? path = some file.place ∧
      w₁.state.calm = w.state.calm.put file.place (.file []) ∧
      w.Keeps (w.state.calm.Beside path) w₁ := by
  obtain ⟨_, w₀, ⟨named, rfl⟩, untouched, rfl⟩ :=
    (Files.changes_createTemporary (w.state.absolute path).parent).of_ok h
  obtain ⟨name, hn, rfl⟩ := Option.map_eq_some_iff.1 named
  let file := (w.state.absolute path).parent.child name
  have temporary : w.state.calm.temporary? path = some file.place := by
    rw [Disk.temporary?_calm, Disk.temporary?, hn]
    rfl
  have empty : (w₀.change (.written file.place [])).state.calm =
      w.state.calm.put file.place (.file []) := by
    rw [World.calm_change, untouched.1]
    rfl
  refine ⟨temporary, empty, trans_of _ untouched.keeps (World.keeps_change ?_)⟩
  rw [← World.calm_change, empty]
  exact .inr ⟨file.place, [], temporary, rfl⟩

/-- A transfer that returns is that of a complete stream, and the temporary file holds all chunks
in order. -/
theorem of_run_transfer (leaves : c.channel.LeavesDisk) {start stop container : Setting String}
    {file : Disk.Absolute} {w w₁ w₂ : World Disk} {total : Nat}
    (made : (Files.createTemporary (w.state.absolute path).parent).run w = .ok file w₁)
    (h : (transfer c start stop container file.place).run w₁ = .ok total w₂) :
    ∃ s t k chunks, start = .value s ∧ stop = .value t ∧ container = .value k ∧
      Receives c s t k path w chunks ∧
      w₂.state.calm = w.state.calm.put file.place (.file chunks.flatten) := by
  obtain ⟨s, t, k, hs, ht, hk, streamed⟩ := run_transfer_ok h
  obtain ⟨feed, w₃, chunks, hf, taken⟩ := takes_of_run_streamInto streamed
  obtain ⟨temporary, empty, -⟩ := of_run_createTemporary made
  have hp := Disk.ne_nil_of_find? (Disk.find?_temporary? temporary)
  have still := untouched_of_run_feed leaves hf
  have begun : w₃.state.calm = w.state.calm.put file.place (.file []) := by
    rw [((untouched_feed leaves).of_ok hf).1, empty]
  have full : w₂.state.calm = w.state.calm.put file.place (.file chunks.flatten) :=
    calm_of_takes hp still.finish still.items taken begun
  exact ⟨s, t, k, chunks, hs, ht, hk, ⟨file, w₁, feed, w₃, total, w₂, made, hf, taken⟩, full⟩

/-- A temporary file that holds the whole stream comes to be where the path leads, which is where
it led before there was the temporary file. -/
theorem of_run_settle {file : Disk.Absolute} {bytes : Bytes} {w w₂ w' : World Disk}
    (temporary : w.state.calm.temporary? path = some file.place)
    (full : w₂.state.calm = w.state.calm.put file.place (.file bytes))
    (h : (settle file path).run w₂ = .ok () w') :
    ∃ w₁ place, w₂.Untouched w₁ ∧ w' = w₁.change (.moved file.place place) ∧
      w.state.calm.Writable path place ∧
      w'.state.calm = w.state.calm.put place (.file bytes) := by
  obtain ⟨_, w₁, ⟨place, writable, rfl⟩, untouched, rfl⟩ := (changes_settle file path w₂).of_ok h
  have free := Disk.find?_temporary? temporary
  have same := Disk.sameDirectories_put (d := w.state.calm) (p := file.place)
    (by simp [free]) bytes
  refine ⟨w₁, place, untouched, rfl, (full ▸ writable).of_sameDirectories same.symm, ?_⟩
  rw [World.calm_change, untouched.1, full,
    Disk.after_moved_put (Disk.ne_nil_of_find? free) free]

/-- **What a download does to the disk.**  Until it is done, the disk is the former one but for
the temporary file, and it stays so when the download fails.  Else the last thing that happens is
that the chunks, all of them and in order, come to be where the path leads. -/
theorem download_spec (leaves : c.channel.LeavesDisk) (start stop container : Setting String)
    (path : String) (w : World Disk) :
    match (download c start stop container (.value path)).run w with
    | .error _ w' => w.Keeps (w.state.calm.Beside path) w'
    | .ok _ w' => ∃ s t k chunks w₁ source place,
      start = .value s ∧ stop = .value t ∧ container = .value k ∧
      Receives c s t k path w chunks ∧ w.Keeps (w.state.calm.Beside path) w₁ ∧
      w' = w₁.change (.moved source place) ∧ w.state.calm.Writable path place ∧
      w'.state.calm = w.state.calm.put place (.file chunks.flatten) := by
  rw [download_eq]
  simp only [EStateM.run_bind, Act.run_state]
  cases hc : (Files.createTemporary (w.state.absolute path).parent).run w with
  | error e w₁ =>
    exact ((Files.changes_createTemporary (w.state.absolute path).parent).of_error hc).keeps
  | ok file w₁ =>
    obtain ⟨temporary, -, made⟩ := of_run_createTemporary hc
    let guarded := (transfer c start stop container file.place).guarding fun _ =>
      cleanUp file.place
    have keeps : guarded.Respects (World.Keeps (w.state.calm.Beside path)) :=
      (keeps_transfer leaves (keeps_append temporary) start stop container).guarding fun _ =>
        keeps_close.bind fun _ => keeps_remove temporary
    dsimp only
    cases hg : guarded.run w₁ with
    | error e w₂ => exact trans_of _ made (keeps.of_error hg)
    | ok total w₂ =>
      have kept := trans_of _ made (keeps.of_ok hg)
      obtain ⟨s, t, k, chunks, hs, ht, hk, received, full⟩ :=
        of_run_transfer leaves hc (Act.run_of_guarding_ok hg)
      dsimp only
      cases hm : (settle file path).run w₂ with
      | error e w₃ =>
        exact trans_of _ kept ((changes_settle file path w₂).of_error hm).keeps
      | ok u w₃ =>
        obtain ⟨w₄, place, untouched, hw, writable, done⟩ := of_run_settle temporary full hm
        exact ⟨s, t, k, chunks, w₄, file.place, place, hs, ht, hk, received,
          trans_of _ kept untouched.keeps, hw, writable, done⟩

/-! ### A range that was fetched -/

/-- A file that was written is where the path leads, and holds the bytes. -/
theorem of_run_writeFile {bytes : Bytes} {w w' : World Disk}
    (h : (writeFile (.value path) bytes).run w = .ok () w') :
    ∃ place, w.state.calm.Writable path place ∧
      w'.state.calm = w.state.calm.put place (.file bytes) := by
  obtain ⟨place, w₁, hc, h⟩ := Act.exists_of_run_bind_ok (x := Files.create path) h
  obtain ⟨u, w₂, ha, h⟩ := Act.exists_of_run_bind_ok h
  obtain ⟨_, w₃, ⟨writable, rfl⟩, untouched, rfl⟩ := (Files.changes_create path).of_ok hc
  obtain ⟨_, w₄, rfl, untouched', rfl⟩ := (Files.changes_append place bytes).of_ok ha
  have closed := (Files.respects_meetTrouble.of_ok h).1
  refine ⟨place, writable, ?_⟩
  rw [closed, World.calm_change, untouched'.1, World.calm_change, untouched.1, Disk.after,
    Disk.after, Disk.content_put_self _ writable.ne_nil, Disk.put_put, List.nil_append]

end Program

end Footage
