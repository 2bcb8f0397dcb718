import CodeAtlas.Digest
import CodeAtlas.Disk
import CodeAtlas.Graph.Basic

/-!
# References to code

A reference remembers what a file held when it was captured: the digest of its content and the
time of its last change.  Checking compares the times first and the digests only when the times
differ, so a file that was only touched is not stale.  Both read the time before the content, and
the disk may change between the two.
-/

namespace CodeAtlas

/-- Lines from a first to a last one, both included; the first line of a file is 1. -/
structure LineRange where
  start : Nat
  stop : Nat
deriving DecidableEq, Repr

/-- A file, or some lines of it, as it was when captured. -/
structure CodeReference where
  /-- Relative to the root of the project. -/
  path : String
  /-- The SHA-256 digest of the whole file in hexadecimal digits. -/
  hash : String
  modified : Instant
  lines : Option LineRange
deriving DecidableEq, Repr

/-- How a file compares with a reference to it. -/
inductive Freshness
  | fresh
  /-- Changed in time and not in content. -/
  | touched
  | modified
  | missing
deriving DecidableEq, Repr

namespace Freshness

def name : Freshness → String
  | .fresh => "fresh"
  | .touched => "touched"
  | .modified => "modified"
  | .missing => "missing"

/-- Whether the content may have changed. -/
def isStale : Freshness → Bool
  | .modified | .missing => true
  | .fresh | .touched => false

end Freshness

namespace LineRange

def toJson (range : LineRange) : Json :=
  .object [("start", .ofNat range.start), ("end", .ofNat range.stop)]

def ofJson? (value : Json) : Option LineRange := do
  let record ← value.record? ["start", "end"]
  return {
    start := ← record.required "start" Json.asNat32?
    stop := ← record.required "end" Json.asNat32? }

/-- Those of the lines that lie in the range. -/
def within (range : LineRange) (lines : List (List Char)) : List (List Char) :=
  let skipped := max range.start 1 - 1
  (lines.drop skipped).take (range.stop + 1 - (skipped + 1))

/-- The text of the lines in the range, ended by a line feed unless it is empty. -/
def select (range : LineRange) (lines : List (List Char)) : List Char :=
  let text := Text.joinWith ['\n'] (range.within lines)
  if text.isEmpty then [] else text ++ ['\n']

end LineRange

namespace CodeReference

def toJson (reference : CodeReference) : Json :=
  .object ([("path", .string reference.path), ("hash", .string reference.hash),
    ("mtime", reference.modified.toJson)] ++
    match reference.lines with
    | some range => [("lines", range.toJson)]
    | none => [])

def ofJson? (value : Json) : Option CodeReference := do
  let record ← value.record? ["path", "hash", "mtime", "lines"]
  return {
    path := ← record.required "path" Json.asString?
    hash := ← record.required "hash" Json.asString?
    modified := ← record.required "mtime" Instant.ofJson?
    lines := ← record.defaulted "lines" none (Json.Record.orNull LineRange.ofJson?) }

/-- A fault of a file that the reference names. -/
def problem (path : String) : DiskFault → Problem
  | .missing => .notFound .file path
  | fault => .inputOutput fault

/-- Capture a file below a root: its time on one disk, its digest on a later one. -/
def captureBetween (earlier later : Disk) (root path : String) (lines : Option LineRange) :
    Except Problem CodeReference := do
  let target := Path.resolve root path
  let modified ← (earlier.modified target).mapError (problem path)
  let content ← (later.read target).mapError (problem path)
  return ⟨path, Digest.sha256 content, modified, lines⟩

/-- Capture a file below a root. -/
def capture (disk : Disk) (root path : String) (lines : Option LineRange) :
    Except Problem CodeReference :=
  captureBetween disk disk root path lines

/-- Compare a reference with the file it names: the time on one disk, and the content, where it
counts, on a later one. -/
def checkBetween (reference : CodeReference) (earlier later : Disk) (root : String) : Freshness :=
  let target := Path.resolve root reference.path
  match earlier.modified target with
  | .error _ => .missing
  | .ok modified =>
      if modified = reference.modified then .fresh
      else match later.read target with
        | .ok content =>
            if Digest.sha256 content = reference.hash then .touched else .modified
        | .error _ => .missing

/-- Compare a reference with the file it names. -/
def check (reference : CodeReference) (disk : Disk) (root : String) : Freshness :=
  reference.checkBetween disk disk root

def isStale (reference : CodeReference) (disk : Disk) (root : String) : Bool :=
  (reference.check disk root).isStale

/-- A new reference to the same place. -/
def refreshed (reference : CodeReference) (disk : Disk) (root : String) :
    Except Problem CodeReference :=
  capture disk root reference.path reference.lines

/-- The text that a reference names, as it is now. -/
def load (reference : CodeReference) (disk : Disk) (root : String) : Except Problem String := do
  let text ← (disk.readText (Path.resolve root reference.path)).mapError (problem reference.path)
  match reference.lines with
  | none => return text
  | some range => return String.ofList (range.select (Text.lines text.toList))

end CodeReference

end CodeAtlas
