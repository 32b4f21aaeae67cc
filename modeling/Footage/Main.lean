import Footage.Channel.Direct
import Footage.Journal
import Footage.Program
import Footage.RequestId
import Std.Time.DateTime.Timestamp
/-!
# The command line

The program as it is started from a shell.  No transport is linked into it, so every remote call
ends with the status `UNAVAILABLE`; and it keeps its files in memory, on a disk that holds nothing
at first.
-/

namespace Footage.Shell

/-- The time now. -/
def readClock : IO Calendar.Moment := do
  let sinceEpoch := (← Std.Time.Timestamp.now).toNanosecondsSinceUnixEpoch.val.toNat
  return .ofTicks (({ year := 1970 } : Calendar.Moment).ticks + sinceEpoch / 1000)

/-- A number that no other run has drawn. -/
def drawNumber : IO Nat := do
  return (← IO.getRandomBytes 16).toList.foldl (fun n b => 256 * n + b.toNat) 0

/-- The time as it stands in the log. -/
def stamp (t : Calendar.Moment) : String :=
  let two (n : Nat) := String.ofList (Number.padded 2 n)
  String.ofList (Number.padded 4 t.year) ++ "-" ++ two t.month ++ "-" ++ two t.day ++ " " ++
    two t.hour ++ ":" ++ two t.minute ++ ":" ++ two t.second ++ "," ++
    String.ofList (Number.padded 3 (t.micro / 1000))

/-- Shows what a run has shown. -/
def display (now : Calendar.Moment) (w : World Disk) : IO Unit := do
  IO.eprint (Journal.errorOutput (stamp now) {} w.journal)
  IO.print (Journal.output w.journal)

end Footage.Shell

open Footage in
def main (args : List String) : IO UInt32 := do
  let now ← Shell.readClock
  let seed ← Shell.drawNumber
  let env : Program.Environment := {
    now
    address := ← IO.getEnv CommandLine.Connection.addressVariable
    connect := fun _ _ => .broken (.rpc .unavailable "no transport is linked in") }
  let world : World Disk := {
    supply := fun n => RequestId.text (seed + n)
    state := { entries := [], home := [] } }
  match (Program.execute env args).run world with
  | .ok status w =>
    Shell.display now w
    return status.toUInt32
  | .error e w =>
    Shell.display now w
    IO.eprintln (e.kind.fullName ++ ": " ++ e.message)
    return 1
