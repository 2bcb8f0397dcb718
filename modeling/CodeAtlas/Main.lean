import CodeAtlas.Command.Run
import CodeAtlas.Disk.Change
import Std.Time.DateTime.Timestamp

/-!
# The program

Reads what a command may look at into a disk, runs the command on it, and makes the same changes
to the files.
-/

namespace CodeAtlas.Program

/-- The time of the clock. -/
def clock : IO Instant := do
  let nanos := (← Std.Time.Timestamp.now).toNanosecondsSinceUnixEpoch.val
  return ⟨nanos / 1000000000, (nanos % 1000000000).toNat⟩

/-- Where a location of the disk is. -/
def absolute (location : String) : String := "/" ++ location

/-- Put what is at a location on the disk; gives the locations below it.  Links are left out. -/
def readEntry (disk : Disk) (reached : List String) : IO (Disk × List (List String)) := do
  let place := absolute (Disk.location reached)
  let real ← IO.FS.realPath place
  let metadata ← real.metadata
  match metadata.type with
  | .dir =>
      let names := (← real.readDir).toList.map (·.fileName)
      let made := if reached.isEmpty then disk else disk.setEntry reached .directory
      return (made, if real.toString == place then names.map (· :: reached) else [])
  | .file =>
      let modified : Instant := ⟨metadata.modified.sec, metadata.modified.nsec.toNat⟩
      return (disk.setEntry reached (.file (← IO.FS.readBinFile place) modified), [])
  | _ => return (disk, [])

/-- Put a directory on the disk, if it is there, without what it holds. -/
def readDirectory (disk : Disk) (reached : List String) : IO Disk := do
  try
    let metadata ← (← IO.FS.realPath (absolute (Disk.location reached))).metadata
    return if metadata.type == .dir then disk.setEntry reached .directory else disk
  catch _ => return disk

/-- Put the directories on the way to a location on the disk. -/
def readAbove (disk : Disk) (segments : List String) : IO Disk :=
  (List.range segments.length).foldlM (fun disk count =>
    readDirectory disk (segments.take (count + 1)).reverse) disk

/-- Put what is at a location on the disk, with everything below it. -/
def readBelow (disk : Disk) (reached : List String) : IO Disk := do
  let mut disk := disk
  let mut waiting := [reached]
  while !waiting.isEmpty do
    let mut below := []
    for next in waiting do
      try
        let (read, found) ← readEntry disk next
        disk := read
        below := found ++ below
      catch _ => pure ()
    waiting := below
  return disk

/-- The segments of an absolute path. -/
def segmentsOf (path : String) : List String := (Path.segments path).filter (· != "")

/-- Put what a path leads to on the disk. -/
def readPath (disk : Disk) (path : String) : IO Disk := do
  let working := absolute (Path.ofSegments disk.working)
  match Path.normalize? (Path.resolve working path) with
  | none => return disk
  | some location =>
      let segments := segmentsOf location
      readBelow (← readAbove disk segments) segments.reverse

/-- Make a change.  A file is written beside its place and then put there. -/
def makeChange : DiskChange → IO Unit
  | .remove location => do
      let real ← IO.FS.realPath (absolute location)
      if (← real.metadata).type == .dir then IO.FS.removeDirAll real else IO.FS.removeFile real
  | .makeDirectory location => IO.FS.createDirAll (absolute location)
  | .write location content => do
      let place := absolute location
      IO.FS.writeBinFile (Store.temporaryPath place) content
      IO.FS.rename (Store.temporaryPath place) place

/-- Show an outcome; gives the exit code. -/
def finish (outcome : Outcome) : IO UInt32 := do
  IO.print outcome.output
  if let some failure := outcome.failure then IO.eprintln failure
  return outcome.exit.toUInt32

/-- The disk with all that a command may look at. -/
def readPlaces (arguments : List String) : IO Disk := do
  let working := segmentsOf (← IO.currentDir).toString
  let mut disk ← readAbove ⟨.empty, working⟩ working
  if let .ok invocation := Invocation.ofArguments arguments then
    for place in invocation.places do
      disk ← readPath disk place
    if let some root := invocation.targetRoot? disk then
      disk ← readPath disk root
  return disk

/-- Run the program with arguments. -/
def run (arguments : List String) : IO UInt32 := do
  let before ← readPlaces arguments
  let (outcome, after) := runArguments .plain arguments before (← clock)
  for change in before.changes after do
    makeChange change
  finish outcome

end CodeAtlas.Program

/-- Run the program with the arguments of its command line. -/
def main (arguments : List String) : IO UInt32 := CodeAtlas.Program.run arguments
