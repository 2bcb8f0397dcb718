import CodeAtlas.Disk

/-!
# Changes of a disk

What has to be removed and written to turn one disk into another.
-/

namespace CodeAtlas

/-- A change at a location. -/
inductive DiskChange
  | remove (location : String)
  | makeDirectory (location : String)
  | write (location : String) (content : ByteArray)

namespace Disk

/-- Whether two entries hold the same, at whatever time. -/
def sameContent : DiskEntry → DiskEntry → Bool
  | .file first _, .file second _ => first == second
  | .directory, .directory => true
  | _, _ => false

/-- What has to be removed: all that is gone or has become something else, what is inside before
what it is inside of. -/
def removals (before after : Disk) : List DiskChange :=
  before.entries.entries.reverse.filterMap fun entry =>
    match entry.2, after.entries.get? entry.1 with
    | .file _ _, some (.file _ _) | .directory, some .directory => none
    | _, _ => some (.remove entry.1)

/-- What has to be made or written, directories before what is inside of them. -/
def additions (before after : Disk) : List DiskChange :=
  after.entries.entries.filterMap fun entry =>
    if (before.entries.get? entry.1).any (sameContent entry.2) then none
    else match entry.2 with
      | .file content _ => some (.write entry.1 content)
      | .directory => some (.makeDirectory entry.1)

/-- What turns one disk into another. -/
def changes (before after : Disk) : List DiskChange :=
  removals before after ++ additions before after

end Disk

end CodeAtlas
