import Footage.Act
/-!
# Files

The acts on files of a disk.  Each either changes the disk and notes the change in the journal,
or fails and leaves the disk as it was.
-/

namespace Footage.Files

/-- Changes the disk. -/
def change (c : Disk.Change) : Act Disk Unit := do
  Act.setState ((← Act.state).after c)
  Act.note (.changed c)

/-- Meets the next trouble, if there is one. -/
def meetTrouble : Act Disk Unit := do
  let d ← Act.state
  match d.troubles with
  | [] => pure ()
  | next :: rest =>
    Act.setState { d with troubles := rest }
    match next with
    | none => pure ()
    | some e => throw e

/-- Fails if a text is no path at all. -/
def checkPath (path : String) : Act Disk Unit :=
  if path.toList.contains '\x00' then throw .nulInPath else pure ()

/-- Makes an empty file, in place of the one that was there. -/
def create (path : String) : Act Disk Place := do
  checkPath path
  let d ← Act.state
  let fail (trouble : FileTrouble) : Act Disk Place := throw (.file trouble path none)
  match d.locate path with
  | .error trouble => fail trouble
  | .ok .directory => fail .isDirectory
  | .ok (.entry _ _ true) => fail .isDirectory
  | .ok (.entry directory name false) =>
    match d.look directory name with
    | .error trouble => fail trouble
    | .ok (some .directory) => fail .isDirectory
    | .ok _ => do
      meetTrouble
      let place := directory ++ [name]
      change (.written place [])
      return place

/-- Writes more bytes to a file. -/
def append (place : Place) (bytes : Bytes) : Act Disk Unit := do
  meetTrouble
  let d ← Act.state
  change (.written place (d.content place ++ bytes))

/-- Closes a file, which is when the last of its bytes reach the disk. -/
def close : Act Disk Unit := meetTrouble

/-- Makes an empty file with a free name in a directory. -/
def createTemporary (directory : Disk.Absolute) : Act Disk Disk.Absolute := do
  let d ← Act.state
  match d.freeName? directory.place with
  | none => throw .noFreeName
  | some name =>
    let file := directory.child name
    checkPath file.text
    let fail (trouble : FileTrouble) : Act Disk Disk.Absolute :=
      throw (.file trouble file.text none)
    if file.text.utf8ByteSize > Disk.longestPath then fail .nameTooLong
    else match d.enter [] directory.place with
      | .error trouble => fail trouble
      | .ok _ => do
        meetTrouble
        change (.written file.place [])
        return file

/-- Removes a file. -/
def remove (place : Place) : Act Disk Unit := do
  meetTrouble
  change (.removed place)

/-- Moves a file to where a path leads, in place of the file that was there. -/
def move (source : Disk.Absolute) (path : String) : Act Disk Unit := do
  checkPath path
  let d ← Act.state
  let fail (trouble : FileTrouble) : Act Disk Unit :=
    throw (.file trouble source.text (some path))
  match d.locate path with
  | .error trouble => fail trouble
  | .ok .directory => fail .busy
  | .ok (.entry directory name slash) =>
    match d.look directory name with
    | .error trouble => fail trouble
    | .ok found =>
      if slash then fail .notDirectory
      else if found = some .directory then fail .isDirectory
      else do
        meetTrouble
        change (.moved source.place (directory ++ [name]))

end Footage.Files
