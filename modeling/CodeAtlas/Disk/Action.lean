import CodeAtlas.Disk
import CodeAtlas.Problem

/-!
# Actions on a disk

An action may change the disk and may fail.  What it changed before it failed stays changed.
Changes are made of steps, so that the disk after any number of them can be spoken about.
-/

namespace CodeAtlas

/-- One change of a disk. -/
inductive DiskStep
  | makeDirectories (path : String)
  | write (path text : String)
  | rename (source target : String)
deriving DecidableEq, Repr

namespace DiskStep

/-- The disk after a step. -/
def run (step : DiskStep) (disk : Disk) (now : Instant) : Except DiskFault Disk :=
  match step with
  | .makeDirectories path => disk.makeDirectories path
  | .write path text => disk.write path text.toUTF8 now
  | .rename source target => disk.rename source target

/-- The disk after steps up to the first that fails, and its fault if one does. -/
def runAll (now : Instant) : List DiskStep → Disk → Disk × Option DiskFault
  | [], disk => (disk, none)
  | step :: rest, disk =>
      match step.run disk now with
      | .ok changed => runAll now rest changed
      | .error fault => (disk, some fault)

@[simp] theorem runAll_nil (now : Instant) (disk : Disk) : runAll now [] disk = (disk, none) :=
  rfl

end DiskStep

/-- What an operation does with a disk: a result or a problem, and the disk afterwards. -/
abbrev DiskAction := ExceptT Problem (StateM Disk)

namespace DiskAction

/-- Look at the disk without changing it. -/
def inspect {α : Type} (look : Disk → Except Problem α) : DiskAction α := do
  match look (← get) with
  | .ok value => return value
  | .error problem => throw problem

/-- Take steps one after the other, up to the first that fails. -/
def perform (steps : List DiskStep) (now : Instant) : DiskAction Unit := do
  let (disk, fault?) := DiskStep.runAll now steps (← get)
  set disk
  match fault? with
  | none => return ()
  | some fault => throw (.inputOutput fault)

/-- The result of an action and the disk after it. -/
def runOn {α : Type} (action : DiskAction α) (disk : Disk) : Except Problem α × Disk :=
  (ExceptT.run action).run disk

end DiskAction

end CodeAtlas
