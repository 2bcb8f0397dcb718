import CodeAtlas.Instant
import CodeAtlas.Keyed
import CodeAtlas.Path

/-!
# Disks

The files and directories that a program works on, as a value.  Every location is a path from
the top of the disk; a path given by a user is followed from the top if it begins with a slash,
and else from the working directory.  Each change is one step that either yields the changed disk
or fails and leaves nothing behind.
-/

namespace CodeAtlas

/-- What stands at a location. -/
inductive DiskEntry
  | file (content : ByteArray) (modified : Instant)
  | directory

/-- Why a location cannot be used. -/
inductive DiskFault
  /-- Nothing is there. -/
  | missing
  /-- A file is there, and a directory is to be made. -/
  | taken
  | notDirectory
  | isDirectory
  /-- The bytes are no text. -/
  | notText
deriving DecidableEq, Repr

namespace DiskFault

/-- The wording of the system. -/
def message : DiskFault → String
  | .missing => "No such file or directory (os error 2)"
  | .taken => "File exists (os error 17)"
  | .notDirectory => "Not a directory (os error 20)"
  | .isDirectory => "Is a directory (os error 21)"
  | .notText => "stream did not contain valid UTF-8"

end DiskFault

/-- The entries of a disk by location, and the working directory.  The top of the disk is a
directory and has no entry. -/
structure Disk where
  entries : Keyed DiskEntry
  working : List String

namespace Disk

/-- A disk without entries. -/
def empty : Disk := ⟨.empty, []⟩

instance : Inhabited Disk := ⟨empty⟩

/-- The location that segments lead to, the last one first. -/
def location (reached : List String) : String := Path.ofSegments reached.reverse

/-- What stands where segments lead to. -/
def entryAt? (disk : Disk) (reached : List String) : Option DiskEntry :=
  if reached.isEmpty then some .directory else disk.entries.get? (location reached)

/-- Follow one segment.  It must be followed from a directory. -/
def follow (disk : Disk) (reached : List String) (segment : String) :
    Except DiskFault (List String) :=
  match disk.entryAt? reached with
  | none => .error .missing
  | some (.file _ _) => .error .notDirectory
  | some .directory =>
      if segment = "" ∨ segment = "." then .ok reached
      else if segment = ".." then
        match reached with
        | [] => .error .missing
        | _ :: outer => .ok outer
      else .ok (segment :: reached)

/-- Where following a path begins. -/
def startOf (disk : Disk) (path : String) : List String :=
  if path.startsWith "/" then [] else disk.working.reverse

/-- Where a path leads.  Its last segment need not be there. -/
def locate (disk : Disk) (path : String) : Except DiskFault (List String) :=
  if path = "" then .error .missing
  else (Path.segments path).foldlM disk.follow (disk.startOf path)

/-- What a path leads to. -/
def entry (disk : Disk) (path : String) : Except DiskFault DiskEntry := do
  match disk.entryAt? (← disk.locate path) with
  | some found => .ok found
  | none => .error .missing

def isDirectory (disk : Disk) (path : String) : Bool :=
  match disk.entry path with
  | .ok .directory => true
  | _ => false

def isFile (disk : Disk) (path : String) : Bool :=
  match disk.entry path with
  | .ok (.file _ _) => true
  | _ => false

/-- Whether a path leads to anything. -/
def holds (disk : Disk) (path : String) : Bool :=
  match disk.entry path with
  | .ok _ => true
  | .error _ => false

/-- The bytes of a file. -/
def read (disk : Disk) (path : String) : Except DiskFault ByteArray := do
  match ← disk.entry path with
  | .file content _ => .ok content
  | .directory => .error .isDirectory

/-- The text of a file. -/
def readText (disk : Disk) (path : String) : Except DiskFault String := do
  match String.fromUTF8? (← disk.read path) with
  | some text => .ok text
  | none => .error .notText

/-- When a file was changed; a directory does not count as a file. -/
def modified (disk : Disk) (path : String) : Except DiskFault Instant := do
  match ← disk.entry path with
  | .file _ modified => .ok modified
  | .directory => .error .missing

def setEntry (disk : Disk) (reached : List String) (entry : DiskEntry) : Disk :=
  { disk with entries := disk.entries.insert (location reached) entry }

def removeEntry (disk : Disk) (reached : List String) : Disk :=
  { disk with entries := disk.entries.erase (location reached) }

/-- Follow one segment, making the directory that it names. -/
def makeStep (state : Disk × List String) (segment : String) :
    Except DiskFault (Disk × List String) := do
  let (disk, reached) := state
  let next ← disk.follow reached segment
  match disk.entryAt? next with
  | some .directory => .ok (disk, next)
  | some (.file _ _) => .error .notDirectory
  | none => .ok (disk.setEntry next .directory, next)

/-- Make the directories of a path that are not there. -/
def makeDirectories (disk : Disk) (path : String) : Except DiskFault Disk :=
  if path = "" then .ok disk
  else match (Path.segments path).foldlM makeStep (disk, disk.startOf path) with
    | .ok (made, _) => .ok made
    | .error fault => .error (if disk.isFile path then .taken else fault)

/-- Write a file, replacing what it held. -/
def write (disk : Disk) (path : String) (content : ByteArray) (now : Instant) :
    Except DiskFault Disk := do
  let reached ← disk.locate path
  match disk.entryAt? reached, disk.entryAt? (reached.drop 1) with
  | some .directory, _ => .error .isDirectory
  | _, some .directory => .ok (disk.setEntry reached (.file content now))
  | _, _ => .error .missing

/-- Put a file where another path leads, replacing a file that is there. -/
def rename (disk : Disk) (source target : String) : Except DiskFault Disk := do
  let origin ← disk.locate source
  let goal ← disk.locate target
  match disk.entryAt? origin, disk.entryAt? goal with
  | _, some .directory => .error .isDirectory
  | some (.file content modified), _ =>
      .ok ((disk.removeEntry origin).setEntry goal (.file content modified))
  | some .directory, _ => .error .notDirectory
  | none, _ => .error .missing

/-- Whether a location lies below another. -/
def isBelow (outer inner : String) : Bool :=
  outer = "" || (outer ++ "/").isPrefixOf inner

/-- Remove what a path leads to, with everything below it. -/
def remove (disk : Disk) (path : String) : Except DiskFault Disk := do
  let reached ← disk.locate path
  match disk.entryAt? reached with
  | none => .error .missing
  | some _ =>
      let top := location reached
      .ok { disk with
        entries := ⟨disk.entries.entries.filter fun entry =>
            entry.1 != top && !isBelow top entry.1,
          disk.entries.ascending.filter _⟩ }

/-- A file below a directory: the segments from the directory to it, its content, and when it
was changed. -/
structure Found where
  segments : List String
  content : ByteArray
  modified : Instant

/-- The files below a directory, in the order of their locations. -/
def filesBelow (disk : Disk) (directory : String) : List Found :=
  match disk.locate directory with
  | .error _ => []
  | .ok reached =>
      let top := location reached
      disk.entries.entries.filterMap fun entry =>
        match entry.2 with
        | .file content modified =>
            if isBelow top entry.1 then
              some ⟨(Path.segments entry.1).drop reached.length, content, modified⟩
            else none
        | .directory => none

end Disk

end CodeAtlas
