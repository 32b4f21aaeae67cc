import Footage.Proofs.Program.Download

/-!
# The output is all or nothing

A run of the program that fetches or streams a range either puts the whole video where the path of
the output leads, or leaves what is there as it is (`Program.execute_output`).  For a stream this
holds at every moment of the run: the journal can be cut at one place, behind the last chunk that
was received, before which the path leads to what it led to at first.

The one thing that is left to chance is the name of the temporary file, which is drawn: it must
not be the output's own (`Disk.Apart`).  This can only happen where there is no output yet
(`Disk.apart_of_at?_ne_none`), and where the output is named as temporary files are
(`Disk.apart_of_ne_temporaryName`).
-/

namespace Footage.Program

open CommandLine

variable {env : Environment} {args : List String} {c : Connection} {j : Job} {w : World Disk}

/-- The channels of a client that was accepted are those of the environment. -/
theorem Begins.leavesDisk (transport : ∀ address secure, (env.connect address secure).LeavesDisk)
    {store : Client Disk} {start stop : Setting String} {w₀ : World Disk}
    (h : Begins env c j w store start stop w₀) : store.channel.LeavesDisk := by
  obtain ⟨address, options, -, -, hc, -⟩ := h.client
  unfold Program.client at hc
  split at hc
  · cases hc
  · split at hc
    · cases hc
    · cases hc
      exact transport address c.secure

/-! ### Fetching -/

/-- Fetching a range is a call and writing what it returns, if there are texts for its request. -/
theorem run_perform_fetch (store : Client Disk) (start stop container output : Setting String)
    (w : World Disk) :
    (.blank ∈ [start, stop, container] ∧
      (perform store start stop container (.fetch output)).run w =
        .error Setting.blankInRequest w) ∨
    ∃ s t k, start = .value s ∧ stop = .value t ∧ container = .value k ∧
      (perform store start stop container (.fetch output)).run w =
        match (store.fetch s t k).run w with
        | .ok video w => (do
            writeFile output video
            log ("Wrote " ++ toString video.length ++ " bytes to " ++ output.shown)).run w
        | .error e w => .error e w := by
  rcases run_texts start stop container (fun s t k => do
      let video ← store.fetch s t k
      writeFile output video
      log ("Wrote " ++ toString video.length ++ " bytes to " ++ output.shown)) w with
    ⟨blank, failed⟩ | ⟨s, t, k, hs, ht, hk, ran⟩
  · exact .inl ⟨blank, failed⟩
  · refine .inr ⟨s, t, k, hs, ht, hk, ran.trans ?_⟩
    rw [EStateM.run_bind]
    cases (store.fetch s t k).run w <;> rfl

/-- The stream of a range is complete with these chunks, in a run that gets as far as that. -/
def Streams (env : Environment) (c : Connection) (j : Job) (w : World Disk) (output : String)
    (chunks : List Bytes) : Prop :=
  ∃ store start stop container w₀,
    Begins env c j w store (.value start) (.value stop) w₀ ∧ j.container = .value container ∧
    Receives store start stop container output w₀ chunks

/-- Streaming a range is a download, and an entry of the log after it. -/
theorem run_perform_stream (store : Client Disk) (start stop container : Setting String)
    (output : String) (w : World Disk) :
    (perform store start stop container (.stream (.value output))).run w =
      match (download store start stop container (.value output)).run w with
      | .ok total w =>
        .ok () (w.grow [.logged {
          logger := "videostore.__main__"
          level := .info
          message := "Stream complete: wrote " ++ toString total ++ " bytes to " ++ output
          about := none }])
      | .error e w => .error e w := by
  simp only [perform, EStateM.run_bind, log, Act.run_log]
  cases (download store start stop container (.value output)).run w <;> rfl

/-- An environment in which a stream has two chunks, and then a fault if one is given. -/
def streaming (failure : Option Fault) : Environment where
  now := { year := 2024 }
  address := some "localhost:8080"
  connect := fun _ _ => .replay { chunks := [[1], [2]], failure }

/-- A command line that streams a range to an output. -/
def toOutput : List String := ["stream", "--from", "a", "--to", "b", "--out", "out.mp4"]

/-- A disk on which there is an output already. -/
def written : Disk where
  entries := [(["out.mp4"], .file [9])]
  home := []

end Footage.Program
